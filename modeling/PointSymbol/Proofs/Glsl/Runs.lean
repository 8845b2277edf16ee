import PointSymbol.Proofs.Glsl.Source

/-!
# Runs of a source

A run is made of letters, digits, underscores and points, as long as it can be. Every run of a
source is one of its tokens, so the numbers in the text of a program are those of its literals.
-/

namespace PointSymbol.Glsl

/-- A longest run within a text. -/
inductive IsRun : List Char → List Char → Prop
  | mk {before run after : List Char} (hbefore : ∀ c ∈ before.getLast?, isRunChar c = false)
      (hrun : ∀ c ∈ run, isRunChar c) (hne : run ≠ []) (hafter : Breaks after) :
      IsRun run (before ++ (run ++ after))

section Runs
variable {run cs ds : List Char} {ts : List Token}

theorem isRunChar_of_mem_mark {m : Mark} {c : Char} (hc : c ∈ m.chars) : isRunChar c = false := by
  have hall : m.chars.all fun c => !isRunChar c := by cases m <;> decide
  simpa using List.all_eq_true.mp hall c hc

theorem drop_of_mark_append {m : Mark} {c : Char} (h : m.chars ++ ds = c :: cs) :
    cs.drop (m.chars.length - 1) = ds := by
  cases hchars : m.chars with
  | nil => cases m <;> cases hchars
  | cons d chars =>
    rw [hchars] at h
    obtain ⟨-, rfl⟩ := List.cons.inj h
    simp

/-- A run does not reach back into characters that no run has. -/
theorem IsRun.of_append (h : IsRun run (cs ++ ds)) (hcs : ∀ c ∈ cs, isRunChar c = false) :
    IsRun run ds := by
  generalize htext : cs ++ ds = text at h
  obtain @⟨before, run, after, hbefore, hrun, hne, hafter⟩ := h
  rcases List.append_eq_append_iff.mp htext with ⟨rest, rfl, rfl⟩ | ⟨front, rfl, hfront⟩
  · refine .mk (fun c hc => hbefore c ?_) hrun hne hafter
    rw [List.getLast?_append, Option.mem_def.mp hc]
    rfl
  · cases front with
    | nil =>
      rw [List.nil_append] at hfront
      rw [← hfront]
      have hstart : IsRun run ([] ++ (run ++ after)) := .mk (by simp) hrun hne hafter
      exact hstart
    | cons c front =>
      cases run with
      | nil => exact absurd rfl hne
      | cons d run =>
        obtain ⟨rfl, -⟩ := List.cons.inj hfront
        have hout := hcs d (by simp)
        rw [hrun d (by simp)] at hout
        cases hout

/-- The run that a text begins with, or a later one. -/
theorem IsRun.eq_or_of_append (h : IsRun run (cs ++ ds)) (hcs : ∀ c ∈ cs, isRunChar c)
    (hds : Breaks ds) : run = cs ∨ IsRun run ds := by
  generalize htext : cs ++ ds = text at h
  obtain @⟨before, run, after, hbefore, hrun, hne, hafter⟩ := h
  -- a run that begins inside `cs` would have a character of `cs` before it
  cases before with
  | nil =>
    left
    rw [← Text.takeWhile_append_of_head hcs hds, htext, List.nil_append,
      Text.takeWhile_append_of_head hrun hafter]
  | cons b before =>
    right
    rcases List.append_eq_append_iff.mp htext with ⟨rest, hrest, rfl⟩ | ⟨front, rfl, -⟩
    · refine .mk (fun c hc => hbefore c ?_) hrun hne hafter
      rw [hrest, List.getLast?_append, Option.mem_def.mp hc]
      rfl
    · have hlast := List.getLast?_eq_some_getLast (List.cons_ne_nil b before)
      have hout := hbefore _ hlast
      rw [hcs _ (List.mem_append_left _ (List.getLast_mem _))] at hout
      cases hout

/-- A run is the text of a token. -/
theorem exists_token_of_isRun (h : scan cs = some ts) (hrun : IsRun run cs) :
    ∃ t ∈ ts, Token.ofRun? run = some t := by
  -- the scanner takes a blank, a run or a mark off the front, and only a run can be `run` itself
  fun_induction scan cs generalizing ts with
  | case1 =>
    generalize htext : ([] : List Char) = text at hrun
    obtain ⟨hbefore, hrun, hne, hafter⟩ := hrun
    simp_all
  | case2 c cs hblank ih =>
    have hc : isRunChar c = false := by
      rw [← Bool.not_eq_true]
      intro hc
      rw [not_isWhitespace_of_isRunChar hc] at hblank
      cases hblank
    have hrun : IsRun run ([c] ++ cs) := hrun
    exact ih h (hrun.of_append (by simpa using hc))
  | case3 c cs hblank hc ih =>
    simp only [Option.bind_eq_bind, Option.bind_eq_some_iff] at h
    obtain ⟨t, ht, us, hus, hts⟩ := h
    obtain rfl := Option.some.inj hts
    have hdrop : (c :: cs).dropWhile isRunChar = cs.dropWhile isRunChar :=
      List.dropWhile_cons_of_pos hc
    rw [← List.takeWhile_append_dropWhile (p := isRunChar) (l := c :: cs), hdrop] at hrun
    rcases hrun.eq_or_of_append (fun _ => List.mem_takeWhile_imp) (Text.head_dropWhile _ _) with
      rfl | hrest
    · exact ⟨t, by simp, ht⟩
    · obtain ⟨t', hmem, ht'⟩ := ih hus hrest
      exact ⟨t', by simp [hmem], ht'⟩
  | case4 c cs hblank hc ih =>
    simp only [Option.bind_eq_bind, Option.bind_eq_some_iff] at h
    obtain ⟨m, hm, us, hus, hts⟩ := h
    obtain rfl := Option.some.inj hts
    have hprefix : m.chars <+: c :: cs := by simpa using List.find?_some hm
    obtain ⟨rest, hrest⟩ := hprefix
    specialize @ih m
    rw [drop_of_mark_append hrest] at hus ih
    rw [← hrest] at hrun
    obtain ⟨t, hmem, ht⟩ := ih hus (hrun.of_append fun c => isRunChar_of_mem_mark)
    exact ⟨t, by simp [hmem], ht⟩

end Runs

/-! ## Clean pieces -/

/-- Words are names and numbers are plain. -/
def Piece.IsClean : Piece → Prop
  | token (.word name) => isName name
  | token (.number digits) => Decimal.PlainDigits digits
  | token (.mark _) => True
  | space | newline => True

def Clean (ps : List Piece) : Prop := ∀ p ∈ ps, p.IsClean

section Clean
variable {ps qs : List Piece} {digits : List Char}

@[simp] theorem clean_nil : Clean [] := by simp [Clean]

@[simp] theorem clean_append : Clean (ps ++ qs) ↔ Clean ps ∧ Clean qs :=
  List.forall_mem_append

@[simp] theorem clean_word {name : String} :
    Clean (.word name :: ps) ↔ isName name ∧ Clean ps := by
  simp [Clean, Piece.word, Piece.IsClean]

@[simp] theorem clean_mark {m : Mark} : Clean (.mark m :: ps) ↔ Clean ps := by
  simp [Clean, Piece.mark, Piece.IsClean]

@[simp] theorem clean_space : Clean (.space :: ps) ↔ Clean ps := by
  simp [Clean, Piece.IsClean]

@[simp] theorem clean_newline : Clean (.newline :: ps) ↔ Clean ps := by
  simp [Clean, Piece.IsClean]

@[simp] theorem clean_line : Clean (line ps) ↔ Clean ps := by
  simp [line]

@[simp] theorem clean_spaced {m : Mark} : Clean (spaced m) := by
  simp [spaced]

@[simp] theorem clean_parenthesized : Clean (parenthesized ps) ↔ Clean ps := by
  simp [parenthesized]

@[simp] theorem clean_wrapIf {needed : Bool} : Clean (Expr.wrapIf needed ps) ↔ Clean ps := by
  cases needed <;> simp [Expr.wrapIf]

theorem clean_intercalate {pss : List (List Piece)} (h : ∀ ps ∈ pss, Clean ps) :
    Clean ([.mark .comma, .space].intercalate pss) := by
  induction pss with
  | nil => simp
  | cons ps pss ih =>
    cases pss with
    | nil => simpa using h
    | cons qs pss =>
      rw [List.intercalate_cons_cons, clean_append, clean_append]
      exact ⟨⟨h ps (by simp), by simp⟩, ih fun qs hqs => h qs (by simp [hqs])⟩

theorem clean_call {pss : List (List Piece)} (h : ∀ ps ∈ pss, Clean ps) (t : ValueType) :
    Clean (Expr.call t pss) := by
  simp only [Expr.call, clean_word, clean_parenthesized]
  exact ⟨isName_valueType t, clean_intercalate h⟩

theorem clean_literal (a : Literal) : Clean a.pieces := by
  have hplain := Decimal.plainDigits_positionalChars (Decimal.ofBinary a.value).digits
    (Decimal.ofBinary a.value).exponent
  rw [Literal.pieces_eq]
  cases (Decimal.ofBinary a.value).negative with
  | false => simpa [Clean, Piece.IsClean] using hplain
  | true => simpa [Clean, Piece.IsClean, Piece.mark] using hplain

theorem Expr.clean_pieces {e : Expr} (h : ∀ n ∈ e.names, isIdentifier n) (level : Nat) :
    Clean (e.pieces level) := by
  induction e generalizing level with
  | literal a => exact clean_literal a
  | name n => simpa [pieces] using isName_of_isIdentifier (h n (by simp [names]))
  | vec2 x y ihx ihy =>
    simp only [names, List.forall_mem_append] at h
    exact clean_call (by simp [ihx h.1, ihy h.2]) .vec2
  | vec4 x y z w ihx ihy ihz ihw =>
    simp only [names, List.forall_mem_append] at h
    obtain ⟨⟨⟨hx, hy⟩, hz⟩, hw⟩ := h
    exact clean_call (by simp [ihx hx, ihy hy, ihz hz, ihw hw]) .vec4
  | extend xy z w ihxy ihz ihw =>
    simp only [names, List.forall_mem_append] at h
    obtain ⟨⟨hxy, hz⟩, hw⟩ := h
    exact clean_call (by simp [ihxy hxy, ihz hz, ihw hw]) .vec4
  | mul a b iha ihb | add a b iha ihb | equal a b iha ihb | or a b iha ihb =>
    simp only [names, List.forall_mem_append] at h
    simp [pieces, iha h.1, ihb h.2]
  | select c a b ihc iha ihb =>
    simp only [names, List.forall_mem_append] at h
    obtain ⟨⟨hc, ha⟩, hb⟩ := h
    simp [pieces, ihc hc, iha ha, ihb hb]

theorem Statement.clean_pieces {s : Statement} (h : ∀ n ∈ s.names, isIdentifier n) :
    Clean s.pieces := by
  have htarget := isName_of_isIdentifier (h s.target (by simp [names]))
  have hvalue := Expr.clean_pieces (e := s.value) (fun n hn => h n (List.mem_cons_of_mem _ hn)) 0
  cases s with
  | declare v e => simpa [pieces, Variable.pieces, isName_valueType] using ⟨htarget, hvalue⟩
  | assign n e => simpa [pieces] using ⟨htarget, hvalue⟩

theorem clean_flatMap {α : Type} {as : List α} {f : α → List Piece} (h : ∀ a ∈ as, Clean (f a)) :
    Clean (as.flatMap f) := by
  intro p hp
  obtain ⟨a, ha, hp⟩ := List.mem_flatMap.mp hp
  exact h a ha p hp

namespace Program
variable {p : Program}

theorem clean_declarations {vs : List Variable} (h : ∀ v ∈ vs, isIdentifier v.name)
    (q : Qualifier) : Clean (declarations q vs) := by
  refine clean_flatMap fun v hv => ?_
  have hname := isName_of_isIdentifier (h v hv)
  simpa [Qualifier.declaration, Variable.pieces, isName_qualifier, isName_valueType] using hname

theorem clean_precision : Clean precision := by
  simp only [precision, clean_word, clean_space, clean_mark, clean_nil, and_true]
  decide

theorem clean_mainHead : Clean mainHead := by
  simp only [mainHead, clean_append, clean_parenthesized, clean_word, clean_space, clean_mark,
    clean_nil, and_true]
  decide

theorem clean_pieces (h : p.WellNamed) : Clean p.pieces := by
  simp only [WellNamed, names, List.forall_mem_append, List.forall_mem_map,
    List.mem_flatMap, forall_exists_index, and_imp] at h
  obtain ⟨⟨⟨huniforms, hattributes⟩, hvaryings⟩, hbody⟩ := h
  have hbody : Clean (p.body.flatMap fun s => [.space, .space] ++ line s.pieces) :=
    clean_flatMap fun s hs => by
      simpa using Statement.clean_pieces fun n hn => hbody n s hs hn
  simp only [pieces, clean_append, clean_line, clean_newline, clean_mark, clean_nil, and_true]
  exact ⟨⟨⟨⟨⟨clean_precision, clean_declarations huniforms .uniform⟩,
    clean_declarations hattributes .attrib⟩, clean_declarations hvaryings .varying⟩,
    clean_mainHead⟩, hbody⟩

end Program

end Clean

/-! ## Texts of clean pieces -/

theorem lt_of_isNameChar {c : Char} (h : isNameChar c) : c.toNat < 128 := by
  have hle {last : Char} (hlast : last.toNat < 128) (h : c.val ≤ last.val) : c.toNat < 128 :=
    lt_of_le_of_lt (UInt32.le_iff_toNat_le.mp h) hlast
  have hclasses : (((c.isUpper || c.isLower) || c.isDigit) || c == '_') = true := h
  simp only [Bool.or_eq_true, beq_iff_eq] at hclasses
  rcases hclasses with ((hupper | hlower) | hdigit) | rfl
  · have hrange : c.val ≥ 'A'.val ∧ c.val ≤ 'Z'.val := of_decide_eq_true hupper
    exact hle (by decide) hrange.2
  · have hrange : (decide (c.val ≥ 'a'.val) && decide (c.val ≤ 'z'.val)) = true := hlower
    rw [Bool.and_eq_true, decide_eq_true_eq, decide_eq_true_eq] at hrange
    exact hle (by decide) hrange.2
  · have hrange : (decide (c.val ≥ '0'.val) && decide (c.val ≤ '9'.val)) = true := hdigit
    rw [Bool.and_eq_true, decide_eq_true_eq, decide_eq_true_eq] at hrange
    exact hle (by decide) hrange.2
  · decide

theorem lt_of_mem_plainDigits {digits : List Char} {c : Char} (h : Decimal.PlainDigits digits)
    (hc : c ∈ digits) : c.toNat < 128 := by
  obtain ⟨hwhole, -, -, hfraction, -⟩ := h
  have hdigit {d : Char} (hd : d.isDigit) : d.toNat < 128 :=
    lt_of_isNameChar (by simp [isNameChar, Char.isAlphanum, hd])
  simp only [List.mem_append, List.mem_cons] at hc
  rcases hc with hc | rfl | hc
  · exact hdigit (hwhole c hc)
  · decide
  · exact hdigit (hfraction c hc)

theorem Piece.lt_of_mem_chars {p : Piece} (h : p.IsClean) {c : Char} (hc : c ∈ p.chars) :
    c.toNat < 128 := by
  cases p with
  | token t =>
    cases t with
    | word name =>
      simp only [IsClean, isName, Bool.and_eq_true, List.all_eq_true] at h
      exact lt_of_isNameChar (h.1 c hc)
    | number digits => exact lt_of_mem_plainDigits h hc
    | mark m =>
      have hall : m.chars.all fun c => c.toNat < 128 := by cases m <;> decide
      simpa using List.all_eq_true.mp hall c hc
  | space =>
    rw [List.mem_singleton.mp hc]
    decide
  | newline =>
    rw [List.mem_singleton.mp hc]
    decide

namespace Program
variable {p : Program} {run : List Char}

/-- The text of a program is pure ASCII. -/
theorem lt_of_mem_text (h : p.WellNamed) : ∀ c ∈ p.text.toList, c.toNat < 128 := by
  intro c hc
  rw [text, write, String.toList_ofList] at hc
  obtain ⟨q, hq, hc⟩ := List.mem_flatMap.mp hc
  exact Piece.lt_of_mem_chars (clean_pieces h q hq) hc

theorem plainDigits_of_mem_tokens (h : p.WellNamed) {digits : List Char}
    (hmem : .number digits ∈ tokens p.pieces) : Decimal.PlainDigits digits := by
  obtain ⟨q, hq, htoken⟩ := List.mem_filterMap.mp hmem
  have hclean := clean_pieces h q hq
  cases q with
  | token t =>
    obtain rfl := Option.some.inj htoken
    exact hclean
  | space => cases htoken
  | newline => cases htoken

/-- Runs that begin with a digit are plain numbers. -/
theorem plainDigits_of_isRun (h : p.WellNamed) (hrun : IsRun run p.text.toList)
    (hdigit : run.head?.any Char.isDigit) : Decimal.PlainDigits run := by
  obtain ⟨t, hmem, ht⟩ := exists_token_of_isRun (scan_write (scans_pieces h)) hrun
  cases run with
  | nil => cases ht
  | cons c cs =>
    rw [ofRun?_of_isDigit (by simpa using hdigit)] at ht
    obtain rfl := Option.some.inj ht
    exact plainDigits_of_mem_tokens h hmem

end Program

end PointSymbol.Glsl
