import PointSymbol.Symbol.Basic

/-!
# Resolved symbols

The result of a logged computation does not depend on its records, and the records of one step stand
before those of the next. The numbers of a symbol that a style resolves to are all finite.
-/

namespace PointSymbol

namespace Logged
variable {ε ε' α β : Type}

@[simp] theorem result_pure (a : α) : (pure a : Logged ε α).result = .ok a := rfl

@[simp] theorem result_liftM (r : Except ε α) : (liftM r : Logged ε α).result = r := rfl

@[simp] theorem result_record (r : Log.Record) : (record r : Logged ε Unit).result = .ok () := rfl

@[simp] theorem result_bind (m : Logged ε α) (next : α → Logged ε β) :
    (m >>= next).result = m.result >>= fun a => (next a).result := by
  have hbind : m >>= next = m.bind next := rfl
  rw [hbind, bind]
  cases m.result with
  | ok a => rfl
  | error e => rfl

@[simp] theorem records_pure (a : α) : (pure a : Logged ε α).records = [] := rfl

@[simp] theorem records_liftM (r : Except ε α) : (liftM r : Logged ε α).records = [] := rfl

@[simp] theorem records_record (r : Log.Record) : (record r : Logged ε Unit).records = [r] := rfl

theorem records_bind_of_ok {m : Logged ε α} {a : α} (h : m.result = .ok a)
    (next : α → Logged ε β) : (m >>= next).records = m.records ++ (next a).records := by
  have hbind : m >>= next = m.bind next := rfl
  rw [hbind, bind, h]

theorem records_bind_of_error {m : Logged ε α} {e : ε} (h : m.result = .error e)
    (next : α → Logged ε β) : (m >>= next).records = m.records := by
  have hbind : m >>= next = m.bind next := rfl
  rw [hbind, bind, h]

end Logged

namespace Symbol

theorem check_eq_ok_iff {s t : Symbol} :
    s.check = .ok t ↔ s = t ∧ ∀ p ∈ s.numbers, p.2.isFinite := by
  unfold check
  split
  · next field x h =>
    have hmem := List.mem_of_find?_eq_some h
    have hx : x.isFinite = false := by simpa using List.find?_some h
    constructor
    · rintro ⟨⟩
    · rintro ⟨-, hall⟩
      rw [hall (field, x) hmem] at hx
      cases hx
  · next h =>
    have hall : ∀ p ∈ s.numbers, p.2.isFinite := by simpa using h
    constructor
    · rintro ⟨⟩
      exact ⟨rfl, hall⟩
    · rintro ⟨rfl, -⟩
      rfl

end Symbol

namespace Style
variable {resolver : Color.Resolver} {s : Style} {n : Symbol}

theorem isFinite_of_resolve (h : (s.resolve resolver).result = .ok n) :
    ∀ p ∈ n.numbers, p.2.isFinite := by
  unfold resolve at h
  split at h
  · cases h
  · rw [Logged.result_bind] at h
    cases hcolor : (Logged.mapError Symbol.Error.color
        ((s.color.getD (.channels .white)).resolve resolver)).result with
    | error e =>
      rw [hcolor] at h
      cases h
    | ok color =>
      rw [hcolor] at h
      obtain ⟨rfl, hall⟩ := Symbol.check_eq_ok_iff.mp h
      exact hall

end Style

end PointSymbol
