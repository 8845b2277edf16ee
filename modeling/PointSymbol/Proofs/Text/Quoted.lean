import PointSymbol.Text.Quoted

/-!
# Reading quoted texts

A reader that goes through a quoted text character by character finds the text again and knows where
it ends, whatever follows. `firstQuoted?_append`: a line that begins without a double quote tells
the text that it quotes first. Quoting leaves no control characters.
-/

namespace PointSymbol.Text

def hexValue? (c : Char) : Option Nat :=
  (List.range 16).find? fun d => Nat.digitChar d = c

/-- The character that a letter stands for after a backslash. -/
def named? : Char → Option Char
  | '"' => some '"'
  | '\\' => some '\\'
  | '0' => some '\x00'
  | 't' => some '\t'
  | 'n' => some '\n'
  | 'r' => some '\r'
  | _ => none

/-- Where a reader stands after an opening quote, and what it has read of the text. -/
inductive Reader where
  | inside (text : List Char)
  | backslash (text : List Char)
  | letter (text : List Char)
  | code (text : List Char) (n : Nat)
  | closed (text : List Char)
  | lost

namespace Reader

def step : Reader → Char → Reader
  | inside text, c =>
    if c = '"' then closed text else if c = '\\' then backslash text else inside (text ++ [c])
  | backslash text, c =>
    if c = 'u' then letter text
    else
      match named? c with
      | some d => inside (text ++ [d])
      | none => lost
  | letter text, c => if c = '\x7b' then code text 0 else lost
  | code text n, c =>
    if c = '\x7d' then inside (text ++ [Char.ofNat n])
    else
      match hexValue? c with
      | some d => code text (16 * n + d)
      | none => lost
  | closed text, _ => closed text
  | lost, _ => lost

end Reader

/-- The text between the first double quote of a line and the double quote that closes it. -/
def firstQuoted? (line : List Char) : Option (List Char) :=
  match line.dropWhile (· ≠ '"') with
  | [] => none
  | _ :: rest =>
    match rest.foldl Reader.step (.inside []) with
    | .closed text => some text
    | _ => none

/-! ## Hexadecimal codes -/

theorem hexValue?_digitChar {d : Nat} (h : d < 16) : hexValue? (Nat.digitChar d) = some d := by
  revert d
  decide

theorem digitChar_ne_brace {d : Nat} (h : d < 16) : Nat.digitChar d ≠ '\x7d' := by
  revert d
  decide

theorem isControl_digitChar {d : Nat} (h : d < 16) : isControl (Nat.digitChar d) = false := by
  revert d
  decide

theorem step_digitChar (text : List Char) (n : Nat) {d : Nat} (h : d < 16) :
    (Reader.code text n).step (Nat.digitChar d) = .code text (16 * n + d) := by
  simp only [Reader.step, if_neg (digitChar_ne_brace h), hexValue?_digitChar h]

/-- The digits of a code are read from the highest on. -/
theorem foldl_toDigits (text : List Char) (n : Nat) :
    (Nat.toDigits 16 n).foldl Reader.step (.code text 0) = .code text n := by
  induction n using Nat.strongRecOn with
  | _ n ih =>
    by_cases h : n < 16
    · rw [Nat.toDigits_of_lt_base h, List.foldl_cons, List.foldl_nil, step_digitChar text 0 h,
        Nat.mul_zero, Nat.zero_add]
    · have hmod := Nat.mod_lt n (show 0 < 16 by decide)
      rw [Nat.toDigits_of_base_le (by decide) (Nat.not_lt.mp h), List.foldl_append,
        ih (n / 16) (by omega), List.foldl_cons, List.foldl_nil, step_digitChar text _ hmod,
        Nat.div_add_mod]

theorem exists_digitChar_of_mem_toDigits {n : Nat} {c : Char} (h : c ∈ Nat.toDigits 16 n) :
    ∃ d, d < 16 ∧ c = Nat.digitChar d := by
  induction n using Nat.strongRecOn with
  | _ n ih =>
    by_cases hn : n < 16
    · rw [Nat.toDigits_of_lt_base hn, List.mem_singleton] at h
      exact ⟨n, hn, h⟩
    · rw [Nat.toDigits_of_base_le (by decide) (Nat.not_lt.mp hn), List.mem_append,
        List.mem_singleton] at h
      rcases h with h | h
      · exact ih (n / 16) (by omega) h
      · exact ⟨n % 16, Nat.mod_lt n (by decide), h⟩

/-! ## Characters -/

/-- Every character is read back from what is written for it, and nothing after it is touched. -/
theorem foldl_escape (text : List Char) (c : Char) :
    (escape c).foldl Reader.step (.inside text) = .inside (text ++ [c]) := by
  unfold escape
  split
  · rfl
  · rfl
  · rfl
  · rfl
  · rfl
  · rfl
  · next hquote hbackslash _ _ _ _ =>
    split
    · show (Nat.toDigits 16 c.toNat ++ ['\x7d']).foldl Reader.step (.code text 0) = _
      rw [List.foldl_append, foldl_toDigits, List.foldl_cons, List.foldl_nil, Reader.step,
        if_pos rfl, Char.ofNat_toNat]
    · rw [List.foldl_cons, List.foldl_nil, Reader.step, if_neg hquote, if_neg hbackslash]

theorem isControl_eq_false_iff {c : Char} :
    isControl c = false ↔ ¬(c.toNat ≤ 0x1f ∨ 0x7f ≤ c.toNat ∧ c.toNat ≤ 0x9f) := by
  simp only [isControl, Bool.or_eq_false_iff, Bool.and_eq_false_iff, decide_eq_false_iff_not]
  omega

theorem isControl_escape {c d : Char} (h : d ∈ escape c) : isControl d = false := by
  have hall {cs : List Char} (hcs : cs.all (!isControl ·)) (hd : d ∈ cs) : isControl d = false := by
    simpa using List.all_eq_true.mp hcs d hd
  unfold escape at h
  split at h
  · exact hall rfl h
  · exact hall rfl h
  · exact hall rfl h
  · exact hall rfl h
  · exact hall rfl h
  · exact hall rfl h
  · split at h
    · rw [List.mem_append, List.mem_append] at h
      rcases h with (h | h) | h
      · exact hall rfl h
      · obtain ⟨k, hk, rfl⟩ := exists_digitChar_of_mem_toDigits h
        exact isControl_digitChar hk
      · exact hall rfl h
    · next hhidden =>
      obtain rfl := List.mem_singleton.mp h
      rw [← Bool.not_eq_true]
      intro hcontrol
      exact hhidden (isHidden_of_isControl hcontrol)

/-! ## Texts -/

theorem foldl_flatMap_escape (text cs : List Char) :
    (cs.flatMap escape).foldl Reader.step (.inside text) = .inside (text ++ cs) := by
  induction cs generalizing text with
  | nil => rw [List.append_nil]; rfl
  | cons c cs ih =>
    rw [List.flatMap_cons, List.foldl_append, foldl_escape, ih, List.append_assoc,
      List.singleton_append]

theorem foldl_closed (text rest : List Char) :
    rest.foldl Reader.step (.closed text) = .closed text := by
  induction rest with
  | nil => rfl
  | cons c rest ih => exact ih

theorem firstQuoted?_append {before : List Char} (h : '"' ∉ before) (cs rest : List Char) :
    firstQuoted? (before ++ quotedChars cs ++ rest) = some cs := by
  have hbefore : ∀ c ∈ before, (c ≠ '"' : Bool) := by
    intro c hc
    rw [decide_eq_true_eq]
    rintro rfl
    exact h hc
  have hdrop : (before ++ quotedChars cs ++ rest).dropWhile (· ≠ '"') = quotedChars cs ++ rest := by
    rw [List.append_assoc, List.dropWhile_append_of_pos hbefore]
    rfl
  have hread : (cs.flatMap escape ++ ['"'] ++ rest).foldl Reader.step (.inside []) = .closed cs := by
    rw [List.foldl_append, List.foldl_append, foldl_flatMap_escape]
    exact foldl_closed cs rest
  rw [firstQuoted?, hdrop, quotedChars, List.cons_append]
  simp only [hread]

theorem isControl_quotedChars {cs : List Char} {d : Char} (h : d ∈ quotedChars cs) :
    isControl d = false := by
  rw [quotedChars, List.mem_cons, List.mem_append, List.mem_flatMap, List.mem_singleton] at h
  rcases h with rfl | ⟨c, -, hd⟩ | rfl
  · rfl
  · exact isControl_escape hd
  · rfl

end PointSymbol.Text
