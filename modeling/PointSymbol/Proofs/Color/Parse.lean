import PointSymbol.Proofs.Color.Components
import PointSymbol.Proofs.Color.Hex
import PointSymbol.Proofs.Color.Keyword

/-!
# Color texts

A color text has one of three forms: hex digits after a number sign, a functional color or a
keyword. No text has two of them, and reading accepts exactly the texts that have one.
-/

namespace PointSymbol.Color

inductive KeywordForm (c : Rgba) : List Char → Prop
  | transparent (hcolor : c = ⟨0, 0, 0, 0⟩) : KeywordForm c "transparent".toList
  | named {name : String} (hmem : (name, c) ∈ Keyword.table) : KeywordForm c name.toList

variable {cs : List Char} {c c' : Rgba}

/-! ## Forms exclude each other -/

theorem exists_tail_of_hexForm (h : HexForm c cs) : ∃ ds, cs = '#' :: ds := by
  cases h with
  | solid => exact ⟨_, rfl⟩
  | alpha => exact ⟨_, rfl⟩

theorem mem_leftParen_of_arguments? {args : List Char} (hargs : arguments? cs = some args) :
    '(' ∈ cs := by
  obtain ⟨name, blanks, -, -, rfl⟩ := arguments?_eq_some_iff.mp hargs
  simp

theorem head_of_functionForm (h : FunctionForm c cs) : ∃ ds, cs = 'r' :: ds := by
  obtain ⟨args, hargs, -⟩ := functionForm_iff.mp h
  obtain ⟨name, blanks, hname, -, rfl⟩ := arguments?_eq_some_iff.mp hargs
  rcases hname with rfl | rfl <;> exact ⟨_, rfl⟩

theorem isLower_of_keywordForm (h : KeywordForm c cs) : ∀ d ∈ cs, d.isLower := by
  cases h with
  | transparent =>
    have hall : "transparent".toList.all Char.isLower := by decide
    exact List.all_eq_true.mp hall
  | named hmem => exact (Keyword.names_of_mem_table hmem).2.2

theorem ne_nil_of_keywordForm (h : KeywordForm c cs) : cs ≠ [] := by
  cases h with
  | transparent => decide
  | named hmem =>
    intro hnil
    exact (Keyword.names_of_mem_table hmem).2.1 (String.toList_eq_nil_iff.mp hnil)

theorem not_keywordForm_of_arguments? {args : List Char} (hargs : arguments? cs = some args) :
    ¬KeywordForm c cs := by
  intro hkeyword
  have h := isLower_of_keywordForm hkeyword '(' (mem_leftParen_of_arguments? hargs)
  cases h

theorem not_hexForm_and_functionForm : ¬(HexForm c cs ∧ FunctionForm c' cs) := by
  rintro ⟨hhex, hfunction⟩
  obtain ⟨ds, rfl⟩ := exists_tail_of_hexForm hhex
  obtain ⟨ds', h⟩ := head_of_functionForm hfunction
  cases h

theorem not_hexForm_and_keywordForm : ¬(HexForm c cs ∧ KeywordForm c' cs) := by
  rintro ⟨hhex, hkeyword⟩
  obtain ⟨ds, rfl⟩ := exists_tail_of_hexForm hhex
  have h := isLower_of_keywordForm hkeyword '#' (by simp)
  cases h

theorem not_functionForm_and_keywordForm : ¬(FunctionForm c cs ∧ KeywordForm c' cs) := by
  rintro ⟨hfunction, hkeyword⟩
  obtain ⟨args, hargs, -⟩ := functionForm_iff.mp hfunction
  exact not_keywordForm_of_arguments? hargs hkeyword

/-! ## Reading -/

theorem find?_eq_some_iff_keywordForm : Keyword.find? (.ofList cs) = some c ↔ KeywordForm c cs := by
  rw [Keyword.find?_eq_some_iff]
  constructor
  · rintro (⟨hname, rfl⟩ | hmem)
    · rw [← String.toList_ofList (l := cs), hname]
      exact .transparent rfl
    · rw [← String.toList_ofList (l := cs)]
      exact .named hmem
  · intro h
    cases h with
    | transparent hcolor => exact .inl ⟨String.ofList_toList, hcolor⟩
    | named hmem =>
      rw [String.ofList_toList]
      exact .inr hmem

theorem read_hex (ds : List Char) : Rgba.read ('#' :: ds) = Rgba.readHex ds := rfl

/-- Any other text is a functional color if it has arguments, and a keyword otherwise. -/
theorem read_eq_ok_iff_of_ne_hex (hnil : cs ≠ []) (hhex : '#' ∉ cs.head?) :
    Rgba.read cs = .ok c ↔ FunctionForm c cs ∨ KeywordForm c cs := by
  rw [Rgba.read]
  · cases hargs : arguments? cs with
    | some args =>
      have hkeyword : ¬KeywordForm c cs := not_keywordForm_of_arguments? hargs
      simp [functionForm_iff, hargs, hkeyword]
    | none =>
      rw [← find?_eq_some_iff_keywordForm, functionForm_iff]
      cases Keyword.find? (.ofList cs) with
      | none => simp [hargs]
      | some color => simp [hargs]
  · exact hnil
  · rintro ds rfl
    exact hhex rfl

theorem read_eq_ok_iff :
    Rgba.read cs = .ok c ↔ HexForm c cs ∨ FunctionForm c cs ∨ KeywordForm c cs := by
  cases cs with
  | nil =>
    constructor
    · intro h
      cases h
    · rintro (h | h | h)
      · obtain ⟨ds, hds⟩ := exists_tail_of_hexForm h
        cases hds
      · obtain ⟨ds, hds⟩ := head_of_functionForm h
        cases hds
      · exact absurd rfl (ne_nil_of_keywordForm h)
  | cons d ds =>
    by_cases hd : d = '#'
    · subst hd
      rw [read_hex, readHex_eq_ok_iff]
      constructor
      · exact .inl
      · rintro (h | h | h)
        · exact h
        · obtain ⟨ds', hds⟩ := head_of_functionForm h
          cases hds
        · have := isLower_of_keywordForm h '#' (by simp)
          cases this
    · have hhex : ¬HexForm c (d :: ds) := by
        intro h
        obtain ⟨ds', hds⟩ := exists_tail_of_hexForm h
        exact hd (List.cons.inj hds).1
      rw [read_eq_ok_iff_of_ne_hex (by simp) (by simpa using hd), or_iff_right hhex]

theorem parse_eq_ok_iff_read {text : String} :
    Rgba.parse text = .ok c ↔ Rgba.read (normalForm text) = .ok c := by
  rw [Rgba.parse]
  cases Rgba.read (normalForm text) with
  | error fault => simp [Except.mapError]
  | ok color => simp [Except.mapError]

theorem forms_of_parse {text : String} (h : Rgba.parse text = .ok c) :
    HexForm c (normalForm text) ∨ FunctionForm c (normalForm text) ∨
      KeywordForm c (normalForm text) :=
  read_eq_ok_iff.mp (parse_eq_ok_iff_read.mp h)

theorem parse_of_functionForm {text : String} (h : FunctionForm c (normalForm text)) :
    Rgba.parse text = .ok c :=
  parse_eq_ok_iff_read.mpr (read_eq_ok_iff.mpr (.inr (.inl h)))

/-- The texts of colors, with their colors. Case and blanks at the ends do not matter. -/
theorem parse_eq_ok_iff (text : String) (c : Rgba) :
    (∃ core, Text.Trims text.toList core ∧ normalForm text = core.map Char.toLower) ∧
    (Rgba.parse text = .ok c ↔
      HexForm c (normalForm text) ∨ FunctionForm c (normalForm text) ∨
        KeywordForm c (normalForm text)) ∧
    ∀ c₁ c₂ : Rgba, ¬(HexForm c₁ (normalForm text) ∧ FunctionForm c₂ (normalForm text)) ∧
      ¬(HexForm c₁ (normalForm text) ∧ KeywordForm c₂ (normalForm text)) ∧
      ¬(FunctionForm c₁ (normalForm text) ∧ KeywordForm c₂ (normalForm text)) := by
  refine ⟨⟨_, Text.trims_iff.mpr rfl, rfl⟩, ?_, fun c₁ c₂ => ⟨not_hexForm_and_functionForm,
    not_hexForm_and_keywordForm, not_functionForm_and_keywordForm⟩⟩
  rw [← read_eq_ok_iff, Rgba.parse]
  cases Rgba.read (normalForm text) with
  | error fault => simp [Except.mapError]
  | ok color => simp [Except.mapError]

end PointSymbol.Color
