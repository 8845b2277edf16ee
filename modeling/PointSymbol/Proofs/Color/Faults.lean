import PointSymbol.Proofs.Color.Parse

/-!
# Faults of color texts

A color text is rejected for its first fault. Hex digits are looked at before they are counted, and
components are counted before they are read from the left. A text of neither shape is looked up as a
keyword. `read_eq_error_iff` says which fault a text has.
-/

namespace PointSymbol.Color
open Text (Blank Tight Trims)

def hexDigits : List Char := "0123456789abcdef".toList

/-- The arguments of a call of `rgb` or `rgba`. -/
inductive Arguments : List Char → List Char → Prop
  | mk {name blanks args : List Char} (hname : name = ['r', 'g', 'b'] ∨ name = ['r', 'g', 'b', 'a'])
      (hblanks : Blank blanks) : Arguments args (name ++ blanks ++ '(' :: (args ++ [')']))

/-- The first of some parts that is no component, without the blanks around it. -/
inductive FirstInvalid : List (List Char) → List Char → Prop
  | mk {before after : List (List Char)} {part core : List Char}
      (hbefore : ∀ p ∈ before, ∃ x, Component p x) (hpart : ∀ x, ¬Component part x)
      (hcore : Trims part core) : FirstInvalid (before ++ part :: after) core

inductive FirstFault : List Char → Fault → Prop
  | empty : FirstFault [] .empty
  | nonHexDigit {ds : List Char} (hdigit : ∃ c ∈ ds, c ∉ hexDigits) :
      FirstFault ('#' :: ds) .nonHexDigit
  | digitCount {ds : List Char} (hdigit : ∀ c ∈ ds, c ∈ hexDigits)
      (hcount : ds.length ∉ [3, 4, 6, 8]) : FirstFault ('#' :: ds) (.digitCount ds.length)
  | componentCount {cs args : List Char} (hargs : Arguments args cs)
      (hcount : args.count ',' + 1 ∉ [3, 4]) :
      FirstFault cs (.componentCount (args.count ',' + 1))
  | invalidComponent {cs args core : List Char} (hargs : Arguments args cs)
      (hcount : args.count ',' + 1 ∈ [3, 4]) (hcore : FirstInvalid (args.splitOn ',') core) :
      FirstFault cs (.invalidComponent (.ofList core))
  | unknownName {cs : List Char} (hnil : cs ≠ []) (hhex : ∀ ds, cs ≠ '#' :: ds)
      (hargs : ∀ args, ¬Arguments args cs) (hkeyword : ∀ c, ¬KeywordForm c cs) :
      FirstFault cs .unknownName

/-! ## Hex digits -/

theorem mem_hexDigits_iff {c : Char} : c ∈ hexDigits ↔ ∃ d, HexDigit.ofChar? c = some d := by
  simp only [HexDigit.ofChar?_eq_some_iff]
  constructor
  · intro h
    have hall : hexDigits.all fun c => (HexDigit.ofChar? c).isSome := by decide
    obtain ⟨d, hd⟩ := Option.isSome_iff_exists.mp (List.all_eq_true.mp hall c h)
    exact ⟨d, HexDigit.ofChar?_eq_some_iff.mp hd⟩
  · intro h
    obtain ⟨d, rfl⟩ := h
    revert d
    decide

theorem exists_mapM_ofChar?_iff {cs : List Char} :
    (∃ ds, cs.mapM HexDigit.ofChar? = some ds) ↔ ∀ c ∈ cs, c ∈ hexDigits := by
  simp only [mapM_ofChar?_eq_some_iff]
  induction cs with
  | nil => simp
  | cons c cs ih =>
    rw [List.forall_mem_cons, ← ih, mem_hexDigits_iff]
    simp only [HexDigit.ofChar?_eq_some_iff, List.map_eq_cons_iff]
    constructor
    · intro h
      obtain ⟨_, d, ds, -, hd, hds⟩ := h
      exact ⟨⟨d, hd⟩, ds, hds⟩
    · intro h
      obtain ⟨⟨d, hd⟩, ds, hds⟩ := h
      exact ⟨_, d, ds, rfl, hd, hds⟩

theorem readHex_of_mapM_eq_some {cs : List Char} {ds : List HexDigit}
    (h : cs.mapM HexDigit.ofChar? = some ds) :
    if cs.length ∈ [3, 4, 6, 8] then ∃ c, Rgba.readHex cs = .ok c
    else Rgba.readHex cs = .error (.digitCount cs.length) := by
  have hlength : cs.length = ds.length := by
    rw [← mapM_ofChar?_eq_some_iff.mp h, List.length_map]
  rw [hlength, Rgba.readHex, h]
  rcases ds with _ | ⟨_, _ | ⟨_, _ | ⟨_, _ | ⟨_, _ | ⟨_, _ | ⟨_, _ | ⟨_, _ | ⟨_, _ | ⟨_, _⟩⟩⟩⟩⟩⟩⟩⟩⟩ <;>
    simp

theorem readHex_eq_error_iff {ds : List Char} {fault : Fault} :
    Rgba.readHex ds = .error fault ↔
      (∃ c ∈ ds, c ∉ hexDigits) ∧ fault = .nonHexDigit ∨
        (∀ c ∈ ds, c ∈ hexDigits) ∧ ds.length ∉ [3, 4, 6, 8] ∧ fault = .digitCount ds.length := by
  by_cases hdigit : ∀ c ∈ ds, c ∈ hexDigits
  · have hnot : ¬∃ c ∈ ds, c ∉ hexDigits := by
      intro h
      obtain ⟨c, hc, hc'⟩ := h
      exact hc' (hdigit c hc)
    obtain ⟨digits, hdigits⟩ := exists_mapM_ofChar?_iff.mpr hdigit
    have hread := readHex_of_mapM_eq_some hdigits
    by_cases hcount : ds.length ∈ [3, 4, 6, 8]
    · rw [if_pos hcount] at hread
      obtain ⟨c, hc⟩ := hread
      simp [hc, hnot, hcount]
    · rw [if_neg hcount] at hread
      rw [hread, Except.error.injEq, eq_comm, or_iff_right fun h => hnot h.1]
      exact ⟨fun h => ⟨hdigit, hcount, h⟩, fun h => h.2.2⟩
  · have hnone : ds.mapM HexDigit.ofChar? = none := by
      rw [Option.eq_none_iff_forall_ne_some]
      intro digits hdigits
      exact hdigit (exists_mapM_ofChar?_iff.mp ⟨digits, hdigits⟩)
    have hsome : ∃ c ∈ ds, c ∉ hexDigits := by simpa using hdigit
    simp [Rgba.readHex, hnone, hsome, hdigit, eq_comm]

/-! ## Components -/

theorem arguments?_eq_some_iff_arguments {cs args : List Char} :
    arguments? cs = some args ↔ Arguments args cs := by
  rw [arguments?_eq_some_iff]
  constructor
  · intro h
    obtain ⟨name, blanks, hname, hblanks, rfl⟩ := h
    exact .mk hname hblanks
  · intro h
    obtain ⟨hname, hblanks⟩ := h
    exact ⟨_, _, hname, hblanks, rfl⟩

theorem length_splitOn (a : Char) (cs : List Char) : (cs.splitOn a).length = cs.count a + 1 := by
  induction cs with
  | nil => simp
  | cons c cs ih =>
    rw [List.splitOn_cons_eq_if_modifyHead, List.count_cons]
    split <;> simp [ih]

/-- Reading one after the other fails at the first element that cannot be read. -/
theorem mapM_eq_error_iff {ε α β : Type} {f : α → Except ε β} {as : List α} {e : ε} :
    as.mapM f = .error e ↔ ∃ before a after, as = before ++ a :: after ∧
      (∀ b ∈ before, ∃ y, f b = .ok y) ∧ f a = .error e := by
  induction as with
  | nil => simp [pure, Except.pure]
  | cons a as ih =>
    rw [List.mapM_cons]
    constructor
    · intro h
      cases ha : f a with
      | error e' =>
        rw [ha] at h
        cases h
        exact ⟨[], a, as, rfl, by simp, ha⟩
      | ok y =>
        rw [ha] at h
        cases has : as.mapM f with
        | error e' =>
          rw [has] at h
          cases h
          obtain ⟨before, b, after, hsplit, hbefore, hb⟩ := ih.mp has
          refine ⟨a :: before, b, after, by rw [hsplit, List.cons_append], ?_, hb⟩
          exact List.forall_mem_cons.mpr ⟨⟨y, ha⟩, hbefore⟩
        | ok ys =>
          rw [has] at h
          cases h
    · intro h
      obtain ⟨before, b, after, hsplit, hbefore, hb⟩ := h
      cases before with
      | nil =>
        obtain ⟨rfl, rfl⟩ := List.cons.inj hsplit
        rw [hb]
        rfl
      | cons c before =>
        obtain ⟨rfl, rfl⟩ := List.cons.inj hsplit
        obtain ⟨⟨y, hy⟩, hbefore⟩ := List.forall_mem_cons.mp hbefore
        have has := ih.mpr ⟨before, b, after, rfl, hbefore, hb⟩
        rw [hy, has]
        rfl

theorem readComponent_eq_error_iff {part : List Char} {fault : Fault} :
    readComponent (Text.trim part) = .error fault ↔
      (∀ x, ¬Component part x) ∧ fault = .invalidComponent (.ofList (Text.trim part)) := by
  simp only [← component?_trim_eq_some_iff, readComponent]
  cases component? (Text.trim part) with
  | none => simp [eq_comm]
  | some x => simp

/-- Three or four components are read one after the other. -/
theorem exists_readComponents_eq {args : List Char} (hcount : (args.splitOn ',').length ∈ [3, 4]) :
    ∃ color : List Double → Rgba, Rgba.readComponents args =
      color <$> (args.splitOn ',').mapM fun part => readComponent (Text.trim part) := by
  unfold Rgba.readComponents
  generalize args.splitOn ',' = parts at hcount
  have hcases : (∃ p q r, parts = [p, q, r]) ∨ ∃ p q r s, parts = [p, q, r, s] := by
    simpa [List.length_eq_three, List.length_eq_four] using hcount
  rcases hcases with ⟨p, q, r, rfl⟩ | ⟨p, q, r, s, rfl⟩
  · refine ⟨fun xs => .solid (channelByte (xs.getD 0 0)) (channelByte (xs.getD 1 0))
      (channelByte (xs.getD 2 0)), ?_⟩
    simp [List.mapM_cons]
  · refine ⟨fun xs => ⟨channelByte (xs.getD 0 0), channelByte (xs.getD 1 0),
      channelByte (xs.getD 2 0), (xs.getD 3 0).clamp 0 1⟩, ?_⟩
    simp [List.mapM_cons]

theorem firstInvalid_iff {parts : List (List Char)} {fault : Fault} :
    parts.mapM (fun part => readComponent (Text.trim part)) = .error fault ↔
      ∃ core, FirstInvalid parts core ∧ fault = .invalidComponent (.ofList core) := by
  simp only [mapM_eq_error_iff, readComponent_eq_ok_iff, readComponent_eq_error_iff]
  constructor
  · intro h
    obtain ⟨before, part, after, rfl, hbefore, hpart, rfl⟩ := h
    exact ⟨_, .mk hbefore hpart (Text.trims_iff.mpr rfl), rfl⟩
  · intro h
    obtain ⟨core, ⟨hbefore, hpart, hcore⟩, rfl⟩ := h
    refine ⟨_, _, _, rfl, hbefore, hpart, ?_⟩
    rw [Text.trims_iff.mp hcore]

theorem readComponents_eq_error_iff {args : List Char} {fault : Fault} :
    Rgba.readComponents args = .error fault ↔
      args.count ',' + 1 ∉ [3, 4] ∧ fault = .componentCount (args.count ',' + 1) ∨
        args.count ',' + 1 ∈ [3, 4] ∧ ∃ core, FirstInvalid (args.splitOn ',') core ∧
          fault = .invalidComponent (.ofList core) := by
  rw [← length_splitOn]
  by_cases hcount : (args.splitOn ',').length ∈ [3, 4]
  · obtain ⟨color, hread⟩ := exists_readComponents_eq hcount
    have hmap : Rgba.readComponents args = .error fault ↔
        (args.splitOn ',').mapM (fun part => readComponent (Text.trim part)) = .error fault := by
      rw [hread]
      cases (args.splitOn ',').mapM fun part => readComponent (Text.trim part) <;> simp
    rw [hmap, firstInvalid_iff]
    simp [hcount]
  · have hread : Rgba.readComponents args = .error (.componentCount (args.splitOn ',').length) := by
      unfold Rgba.readComponents
      generalize args.splitOn ',' = parts at hcount
      rw [← List.length_map Text.trim] at hcount ⊢
      split
      · next hparts => simp [hparts] at hcount
      · next hparts => simp [hparts] at hcount
      · rfl
    simp [hread, hcount, eq_comm]

/-! ## Texts -/

section Texts
variable {cs args : List Char} {fault : Fault}

theorem head_of_arguments (h : Arguments args cs) : ∃ ds, cs = 'r' :: ds := by
  obtain ⟨hname, -⟩ := h
  rcases hname with rfl | rfl <;> exact ⟨_, rfl⟩

theorem Arguments.unique {args' : List Char} (h : Arguments args cs) (h' : Arguments args' cs) :
    args = args' := by
  rw [← arguments?_eq_some_iff_arguments] at h h'
  rw [h] at h'
  exact Option.some.inj h'

theorem Arguments.tight (h : Arguments args cs) : Tight cs := by
  obtain ⟨hname, -⟩ := h
  constructor
  · intro c hc
    obtain rfl : 'r' = c := by rcases hname with rfl | rfl <;> simpa using hc
    decide
  · intro c hc
    rw [← List.cons_append, ← List.append_assoc, List.getLast?_concat] at hc
    obtain rfl : ')' = c := by simpa using hc
    decide

theorem read_of_arguments (h : Arguments args cs) : Rgba.read cs = Rgba.readComponents args := by
  obtain ⟨ds, rfl⟩ := head_of_arguments h
  rw [← arguments?_eq_some_iff_arguments] at h
  rw [Rgba.read, h]
  · simp
  · simp

theorem read_eq_error_iff_of_not_arguments (hnil : cs ≠ []) (hhex : ∀ ds, cs ≠ '#' :: ds)
    (hargs : ∀ args, ¬Arguments args cs) :
    Rgba.read cs = .error fault ↔ (∀ c, ¬KeywordForm c cs) ∧ fault = .unknownName := by
  have hnone : arguments? cs = none := by
    rw [Option.eq_none_iff_forall_ne_some]
    intro args h
    exact hargs args (arguments?_eq_some_iff_arguments.mp h)
  simp only [← find?_eq_some_iff_keywordForm]
  rw [Rgba.read, hnone]
  · cases Keyword.find? (.ofList cs) with
    | none => simp [eq_comm]
    | some c => simp
  · exact hnil
  · exact hhex

theorem read_eq_error_iff : Rgba.read cs = .error fault ↔ FirstFault cs fault := by
  constructor
  · intro h
    by_cases hargs : ∃ args, Arguments args cs
    · obtain ⟨args, hargs⟩ := hargs
      rw [read_of_arguments hargs, readComponents_eq_error_iff] at h
      rcases h with ⟨hcount, rfl⟩ | ⟨hcount, core, hcore, rfl⟩
      · exact .componentCount hargs hcount
      · exact .invalidComponent hargs hcount hcore
    · cases cs with
      | nil =>
        cases h
        exact .empty
      | cons d ds =>
        by_cases hd : d = '#'
        · subst hd
          rw [read_hex, readHex_eq_error_iff] at h
          rcases h with ⟨hdigit, rfl⟩ | ⟨hdigit, hcount, rfl⟩
          · exact .nonHexDigit hdigit
          · exact .digitCount hdigit hcount
        · have hhex (ds' : List Char) : d :: ds ≠ '#' :: ds' := fun h => hd (List.cons.inj h).1
          have hargs (args : List Char) : ¬Arguments args (d :: ds) := fun h => hargs ⟨args, h⟩
          rw [read_eq_error_iff_of_not_arguments (by simp) hhex hargs] at h
          obtain ⟨hkeyword, rfl⟩ := h
          exact .unknownName (by simp) hhex hargs hkeyword
  · intro h
    cases h with
    | empty => rfl
    | nonHexDigit hdigit => exact readHex_eq_error_iff.mpr (.inl ⟨hdigit, rfl⟩)
    | digitCount hdigit hcount => exact readHex_eq_error_iff.mpr (.inr ⟨hdigit, hcount, rfl⟩)
    | componentCount hargs hcount =>
      rw [read_of_arguments hargs]
      exact readComponents_eq_error_iff.mpr (.inl ⟨hcount, rfl⟩)
    | invalidComponent hargs hcount hcore =>
      rw [read_of_arguments hargs]
      exact readComponents_eq_error_iff.mpr (.inr ⟨hcount, _, hcore, rfl⟩)
    | unknownName hnil hhex hargs hkeyword =>
      exact (read_eq_error_iff_of_not_arguments hnil hhex hargs).mpr ⟨hkeyword, rfl⟩

theorem parse_eq_error_iff {text : String} {e : Error} :
    Rgba.parse text = .error e ↔ e.input = text ∧ FirstFault (normalForm text) e.fault := by
  rw [← read_eq_error_iff, Rgba.parse]
  obtain ⟨fault, input⟩ := e
  cases Rgba.read (normalForm text) with
  | error fault' => simp [Except.mapError, and_comm, eq_comm]
  | ok c => simp [Except.mapError]

theorem FirstFault.unique {fault' : Fault} (h : FirstFault cs fault) (h' : FirstFault cs fault') :
    fault = fault' := by
  rw [← read_eq_error_iff] at h h'
  rw [h] at h'
  exact Except.error.inj h'

end Texts

/-! ## Messages -/

section Messages
variable {cs args : List Char} {fault : Fault}

/-- The fourth letter tells the messages of a reader apart. -/
def Fault.letter : Fault → Option Char
  | empty => 't'
  | nonHexDigit => '-'
  | digitCount _ => ' '
  | componentCount _ => 'e'
  | invalidComponent _ => 'a'
  | unknownName => 'n'
  | declined reason => reason.toList[3]?

theorem Fault.letter_eq (fault : Fault) : fault.letter = fault.message.toList[3]? := by
  cases fault <;> unfold message <;> simp [letter]

theorem FirstFault.message_eq_empty_iff (h : FirstFault cs fault) :
    fault.message = "empty color string" ↔ cs = [] := by
  constructor
  · intro hmessage
    have hletter := fault.letter_eq
    rw [hmessage] at hletter
    cases h with
    | empty => rfl
    | _ => simp [Fault.letter] at hletter
  · intro hnil
    subst hnil
    rw [h.unique .empty]
    rfl

theorem FirstFault.message_eq_nonHexDigit_iff {ds : List Char} (h : FirstFault ('#' :: ds) fault) :
    fault.message = "non-hex digit in color literal" ↔ ∃ c ∈ ds, c ∉ hexDigits := by
  constructor
  · intro hmessage
    have hletter := fault.letter_eq
    rw [hmessage] at hletter
    cases h with
    | nonHexDigit hdigit => exact hdigit
    | _ => simp [Fault.letter] at hletter
  · intro hdigit
    rw [h.unique (.nonHexDigit hdigit)]
    rfl

/-- A rejected text of hex digits has a wrong number of them. -/
theorem FirstFault.message_of_hexDigits {ds : List Char} (h : FirstFault ('#' :: ds) fault)
    (hdigit : ∀ c ∈ ds, c ∈ hexDigits) :
    fault.message = "hex color must have 3, 4, 6 or 8 digits, got " ++ ds.length.repr := by
  cases h with
  | nonHexDigit hdigit' =>
    obtain ⟨c, hc, hc'⟩ := hdigit'
    exact absurd (hdigit c hc) hc'
  | digitCount => rfl
  | componentCount hargs | invalidComponent hargs =>
    obtain ⟨ds', hds⟩ := head_of_arguments hargs
    cases hds
  | unknownName _ hhex => exact absurd rfl (hhex ds)

theorem FirstFault.message_eq_componentCount_iff (h : FirstFault cs fault)
    (hargs : Arguments args cs) :
    fault.message = "expected 3 or 4 color components, got " ++ (args.count ',' + 1).repr ↔
      args.count ',' + 1 ∉ [3, 4] := by
  constructor
  · intro hmessage
    have hletter := fault.letter_eq
    rw [hmessage] at hletter
    cases h with
    | componentCount hargs' hcount => rwa [hargs.unique hargs']
    | _ => simp [Fault.letter] at hletter
  · intro hcount
    rw [h.unique (.componentCount hargs hcount)]
    rfl

theorem FirstFault.message_of_arguments (h : FirstFault cs fault) (hargs : Arguments args cs)
    (hcount : args.count ',' + 1 ∈ [3, 4]) : ∃ core, FirstInvalid (args.splitOn ',') core ∧
      fault.message = "invalid component " ++ Text.quoted (.ofList core) := by
  obtain ⟨ds, hds⟩ := head_of_arguments hargs
  cases h with
  | empty | nonHexDigit | digitCount => cases hds
  | componentCount hargs' hcount' =>
    rw [hargs.unique hargs'] at hcount
    exact absurd hcount hcount'
  | invalidComponent hargs' _ hcore =>
    rw [hargs.unique hargs']
    exact ⟨_, hcore, rfl⟩
  | unknownName _ _ hargs' => exact absurd hargs (hargs' args)

theorem FirstFault.message_eq_unknownName_iff (h : FirstFault cs fault) :
    fault.message = "unknown color name" ↔
      cs ≠ [] ∧ (∀ ds, cs ≠ '#' :: ds) ∧ ∀ args, ¬Arguments args cs := by
  constructor
  · intro hmessage
    have hletter := fault.letter_eq
    rw [hmessage] at hletter
    cases h with
    | unknownName hnil hhex hargs => exact ⟨hnil, hhex, hargs⟩
    | _ => simp [Fault.letter] at hletter
  · intro hother
    obtain ⟨hnil, hhex, hargs⟩ := hother
    cases h with
    | empty => exact absurd rfl hnil
    | nonHexDigit | digitCount => exact absurd rfl (hhex _)
    | componentCount hargs' | invalidComponent hargs' => exact absurd hargs' (hargs _)
    | unknownName => rfl

/-- A rejected text is handed back as it was given, with the message of its first fault. -/
theorem parse_first_fault (text : String) (e : Error) (h : Rgba.parse text = .error e) :
    e.input = text ∧ (∃ core, Trims text.toList core ∧ normalForm text = core.map Char.toLower) ∧
    (e.fault.message = "empty color string" ↔ normalForm text = []) ∧
    (∀ ds, normalForm text = '#' :: ds →
      (e.fault.message = "non-hex digit in color literal" ↔ ∃ c ∈ ds, c ∉ hexDigits) ∧
      ((∀ c ∈ ds, c ∈ hexDigits) → e.fault.message =
        "hex color must have 3, 4, 6 or 8 digits, got " ++ ds.length.repr)) ∧
    (∀ args, Arguments args (normalForm text) →
      (e.fault.message =
          "expected 3 or 4 color components, got " ++ (args.count ',' + 1).repr ↔
        args.count ',' + 1 ∉ [3, 4]) ∧
      (args.count ',' + 1 ∈ [3, 4] → ∃ core, FirstInvalid (args.splitOn ',') core ∧
        e.fault.message = "invalid component " ++ Text.quoted (.ofList core))) ∧
    (e.fault.message = "unknown color name" ↔ normalForm text ≠ [] ∧
      (∀ ds, normalForm text ≠ '#' :: ds) ∧ ∀ args, ¬Arguments args (normalForm text)) := by
  obtain ⟨hinput, hfault⟩ := parse_eq_error_iff.mp h
  refine ⟨hinput, ⟨_, Text.trims_iff.mpr rfl, rfl⟩, hfault.message_eq_empty_iff, ?_, ?_,
    hfault.message_eq_unknownName_iff⟩
  · intro ds hds
    rw [hds] at hfault
    exact ⟨hfault.message_eq_nonHexDigit_iff, hfault.message_of_hexDigits⟩
  · intro args hargs
    exact ⟨hfault.message_eq_componentCount_iff hargs, hfault.message_of_arguments hargs⟩

/-- Of two components that are at fault the left one is quoted, in lower case. -/
theorem parse_first_fault_of_two_invalid :
    let e : Error := ⟨.invalidComponent "2px", " RGBA (1, 2Px ,, .5)\t"⟩
    Rgba.parse " RGBA (1, 2Px ,, .5)\t" = .error e ∧
      ∃ core, FirstInvalid ("1, 2px ,, .5".toList.splitOn ',') core ∧
        e.fault.message = "invalid component " ++ Text.quoted (.ofList core) ∧
        e.fault.message = "invalid component \"2px\"" := by
  intro e
  have hparse : Rgba.parse " RGBA (1, 2Px ,, .5)\t" = .error e := by decide +kernel
  have hform : normalForm " RGBA (1, 2Px ,, .5)\t" =
      ['r', 'g', 'b', 'a'] ++ [' '] ++ '(' :: ("1, 2px ,, .5".toList ++ [')']) := by
    decide +kernel
  obtain ⟨-, -, -, -, hcall, -⟩ := parse_first_fault _ e hparse
  rw [hform] at hcall
  obtain ⟨-, hinvalid⟩ := hcall _ (.mk (.inr rfl) (by simp [Blank]; decide))
  obtain ⟨core, hcore, hmessage⟩ := hinvalid (by decide)
  exact ⟨hparse, core, hcore, hmessage, by decide +kernel⟩

end Messages

end PointSymbol.Color
