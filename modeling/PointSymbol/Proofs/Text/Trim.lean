import Mathlib.Data.List.TakeWhile
import PointSymbol.Text.Blank

/-!
# Runs of characters and trimmed texts

A run of characters of a class ends where the text ends or at the first character outside the class.
`trims_iff`: trimming leaves what is between the blanks at the two ends.
-/

namespace PointSymbol.Text

section Runs
variable {p : Char → Bool} {as bs : List Char}

theorem takeWhile_append_of_head (ha : ∀ c ∈ as, p c) (hb : ∀ c ∈ bs.head?, p c = false) :
    (as ++ bs).takeWhile p = as := by
  rw [List.takeWhile_append_of_pos ha]
  cases bs with
  | nil => simp
  | cons c cs => simp [hb c rfl]

theorem dropWhile_append_of_head (ha : ∀ c ∈ as, p c) (hb : ∀ c ∈ bs.head?, p c = false) :
    (as ++ bs).dropWhile p = bs := by
  rw [List.dropWhile_append_of_pos ha]
  cases bs with
  | nil => simp
  | cons c cs => simp [hb c rfl]

theorem head_dropWhile (p : Char → Bool) (cs : List Char) :
    ∀ c ∈ (cs.dropWhile p).head?, p c = false := by
  intro c hc
  have h := List.head?_dropWhile_not p cs
  rw [Option.mem_def.mp hc] at h
  simpa using h

theorem exists_run (p : Char → Bool) (cs : List Char) :
    ∃ as bs, cs = as ++ bs ∧ (∀ c ∈ as, p c) ∧ ∀ c ∈ bs.head?, p c = false :=
  ⟨_, _, List.takeWhile_append_dropWhile.symm, fun _ => List.mem_takeWhile_imp, head_dropWhile p cs⟩

end Runs

def Blank (cs : List Char) : Prop := ∀ c ∈ cs, isBlank c

/-- A text begins and ends with other characters than blanks, or is empty. -/
def Tight (cs : List Char) : Prop :=
  (∀ c ∈ cs.head?, isBlank c = false) ∧ ∀ c ∈ cs.getLast?, isBlank c = false

inductive Trims : List Char → List Char → Prop
  | mk {before core after : List Char} (hbefore : Blank before) (hcore : Tight core)
      (hafter : Blank after) : Trims (before ++ core ++ after) core

theorem tight_of_forall {cs : List Char} (h : ∀ c ∈ cs, isBlank c = false) : Tight cs :=
  ⟨fun c hc => h c (List.mem_of_mem_head? hc), fun c hc => h c (List.mem_of_mem_getLast? hc)⟩

variable {cs ws core : List Char}

theorem trimStart_eq_self (h : ∀ c ∈ cs.head?, isBlank c = false) : trimStart cs = cs :=
  @dropWhile_append_of_head _ [] cs (by simp) h

theorem trimEnd_eq_self (h : ∀ c ∈ cs.getLast?, isBlank c = false) : trimEnd cs = cs := by
  have hreverse : trimStart cs.reverse = cs.reverse :=
    trimStart_eq_self (by simpa [List.head?_reverse] using h)
  rw [trimEnd, ← trimStart, hreverse, List.reverse_reverse]

theorem trimEnd_of_blank (h : Blank cs) : trimEnd cs = [] := by
  have := trimEnd_append h []
  rwa [List.nil_append] at this

theorem trim_eq_of_trims (h : Trims cs core) : trim cs = core := by
  obtain ⟨hbefore, hcore, hafter⟩ := h
  rw [trim, List.append_assoc, trimStart_append hbefore]
  cases core with
  | nil =>
    apply trimEnd_of_blank
    intro c hc
    exact hafter c ((List.dropWhile_suffix _).subset hc)
  | cons c cs =>
    rw [List.cons_append, trimStart_eq_self (by simpa using hcore.1 c rfl), ← List.cons_append,
      trimEnd_append hafter, trimEnd_eq_self hcore.2]

theorem trim_eq_self (h : Tight cs) : trim cs = cs := by
  rw [trim, trimStart_eq_self h.1, trimEnd_eq_self h.2]

theorem exists_trims (cs : List Char) : ∃ core, Trims cs core := by
  obtain ⟨before, rest, rfl, hbefore, hrest⟩ := exists_run isBlank cs
  obtain ⟨after, core, hreverse, hafter, hcore⟩ := exists_run isBlank rest.reverse
  obtain rfl : rest = core.reverse ++ after.reverse := by
    rw [← List.reverse_append, ← hreverse, List.reverse_reverse]
  refine ⟨core.reverse, ?_⟩
  rw [← List.append_assoc]
  refine .mk hbefore ⟨fun c hc => hrest c ?_, ?_⟩ fun c hc => hafter c (List.mem_reverse.mp hc)
  · rw [List.head?_append, Option.mem_def.mp hc]
    rfl
  · simpa using hcore

theorem trims_iff : Trims cs core ↔ trim cs = core := by
  constructor
  · exact trim_eq_of_trims
  · rintro rfl
    obtain ⟨core, hcore⟩ := exists_trims cs
    rwa [trim_eq_of_trims hcore]

end PointSymbol.Text
