import Mathlib.Data.List.Chain
import PointSymbol.Color.Keyword

/-!
# Search for color keywords

Binary search finds a name among increasing entries exactly if an entry has it.
-/

namespace PointSymbol.Color.Keyword

def Increasing (entries : Array (String × Rgba)) : Prop :=
  ∀ (i j : Nat) (a b : String × Rgba), entries[i]? = some a → entries[j]? = some b → i < j →
    a.1 < b.1

section Search
variable {entries : Array (String × Rgba)} {name : String} {low high : Nat} {color : Rgba}

theorem mem_of_search (h : search entries name low high = some color) :
    (name, color) ∈ entries := by
  fun_induction search entries name low high with
  | case1 low high hlt middle hnone => cases h
  | case2 low high hlt middle key found hsome hkey ih => exact ih h
  | case3 low high hlt middle key found hsome hkey hname ih => exact ih h
  | case4 low high hlt middle key found hsome hkey hname =>
    obtain rfl := Option.some.inj h
    obtain rfl : name = key := String.le_antisymm hkey hname
    exact Array.mem_of_getElem? hsome
  | case5 low high hge => cases h

theorem search_of_getElem? (hentries : Increasing entries) {i : Nat}
    (h : entries[i]? = some (name, color)) (hlow : low ≤ i) (hhigh : i < high)
    (hsize : high ≤ entries.size) : search entries name low high = some color := by
  fun_induction search entries name low high with
  | case1 low high hlt middle hnone =>
    have hmiddle := Array.getElem?_eq_none_iff.mp hnone
    omega
  | case2 low high hlt middle key found hsome hkey ih =>
    apply ih _ hhigh hsize
    rcases Nat.lt_trichotomy i middle with hi | rfl | hi
    · have := hentries i middle _ _ h hsome hi
      exact absurd (String.lt_trans hkey this) (String.lt_irrefl _)
    · rw [h] at hsome
      cases hsome
      exact absurd hkey (String.lt_irrefl _)
    · exact hi
  | case3 low high hlt middle key found hsome hkey hname ih =>
    apply ih hlow _ (by omega)
    rcases Nat.lt_trichotomy i middle with hi | rfl | hi
    · exact hi
    · rw [h] at hsome
      cases hsome
      exact absurd hname (String.lt_irrefl _)
    · exact absurd (hentries middle i _ _ hsome h hi) hkey
  | case4 low high hlt middle key found hsome hkey hname =>
    rcases Nat.lt_trichotomy i middle with hi | rfl | hi
    · exact absurd (hentries i middle _ _ h hsome hi) hname
    · rw [h] at hsome
      cases hsome
      rfl
    · exact absurd (hentries middle i _ _ hsome h hi) hkey
  | case5 low high hge => omega

theorem search_eq_some_iff (hentries : Increasing entries) :
    search entries name 0 entries.size = some color ↔ (name, color) ∈ entries := by
  constructor
  · exact mem_of_search
  · intro h
    obtain ⟨i, hi, hget⟩ := Array.mem_iff_getElem.mp h
    exact search_of_getElem? hentries (Array.getElem?_eq_some_iff.mpr ⟨hi, hget⟩) (Nat.zero_le i)
      hi le_rfl

end Search

/-! ## The table -/

instance : Trans (fun a b : String × Rgba => a.1 < b.1) (fun a b : String × Rgba => a.1 < b.1)
    (fun a b : String × Rgba => a.1 < b.1) := ⟨String.lt_trans⟩

theorem isChain_of_zip_tail {entries : List (String × Rgba)}
    (h : (entries.zip entries.tail).all fun (a, b) => a.1 < b.1) :
    entries.IsChain fun a b => a.1 < b.1 := by
  induction entries with
  | nil => exact .nil
  | cons a as ih =>
    cases as with
    | nil => exact .singleton a
    | cons b bs =>
      simp only [List.tail_cons, List.zip_cons_cons, List.all_cons, Bool.and_eq_true,
        decide_eq_true_eq] at h
      exact .cons_cons h.1 (ih h.2)

theorem increasing_table : Increasing table := by
  intro i j a b ha hb hij
  have hpairwise := (isChain_of_zip_tail table_increasing).pairwise
  rw [← Array.getElem?_toList] at ha hb
  obtain ⟨hi, rfl⟩ := List.getElem?_eq_some_iff.mp ha
  obtain ⟨hj, rfl⟩ := List.getElem?_eq_some_iff.mp hb
  exact List.pairwise_iff_getElem.mp hpairwise i j hi hj hij

theorem table_names : table.toList.all fun (name, _) =>
    name != "transparent" && name != "" && name.toList.all Char.isLower := by decide +kernel

theorem names_of_mem_table {name : String} {color : Rgba} (h : (name, color) ∈ table) :
    name ≠ "transparent" ∧ name ≠ "" ∧ ∀ c ∈ name.toList, c.isLower := by
  have hnames := List.all_eq_true.mp table_names (name, color) (Array.mem_toList_iff.mpr h)
  simpa [and_assoc] using hnames

theorem table_alpha : table.toList.all fun (_, color) => color.alpha = 1 := by decide +kernel

theorem alpha_of_mem_table {name : String} {color : Rgba} (h : (name, color) ∈ table) :
    color.alpha = 1 := by
  have halpha := List.all_eq_true.mp table_alpha (name, color) (Array.mem_toList_iff.mpr h)
  exact of_decide_eq_true halpha

theorem find?_eq_some_iff {name : String} {color : Rgba} :
    find? name = some color ↔
      name = "transparent" ∧ color = .transparent ∨ (name, color) ∈ table := by
  unfold find?
  split
  · next h =>
    have hnot : (name, color) ∉ table := fun hmem => (names_of_mem_table hmem).1 h
    simp [h, h ▸ hnot, eq_comm]
  · next h =>
    rw [search_eq_some_iff increasing_table]
    simp [h]

end PointSymbol.Color.Keyword
