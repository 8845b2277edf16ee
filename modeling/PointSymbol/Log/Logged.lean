import PointSymbol.Log.Record

/-!
# Logged computations

A result or an error together with the records written before it.
-/

namespace PointSymbol

structure Logged (ε α : Type) where
  result : Except ε α
  records : List Log.Record

namespace Logged
variable {ε ε' α β : Type}

def ofExcept (r : Except ε α) : Logged ε α := ⟨r, []⟩

def record (r : Log.Record) : Logged ε Unit := ⟨.ok (), [r]⟩

/-- Goes on after a result and stops at an error; the records stay in either case. -/
def bind (m : Logged ε α) (next : α → Logged ε β) : Logged ε β :=
  match m.result with
  | .ok a =>
    let n := next a
    ⟨n.result, m.records ++ n.records⟩
  | .error e => ⟨.error e, m.records⟩

def mapError (g : ε → ε') (m : Logged ε α) : Logged ε' α := ⟨m.result.mapError g, m.records⟩

instance : Monad (Logged ε) where
  pure a := ⟨.ok a, []⟩
  bind := bind

instance : LawfulMonad (Logged ε) :=
  .mk' _
    (by rintro _ ⟨_ | _, _⟩ <;> simp [Functor.map, bind])
    (by intros; simp [Bind.bind, bind, Pure.pure])
    (by
      rintro _ _ _ ⟨_ | a, _⟩ g _
      · rfl
      · cases h : (g a).result <;> simp [Bind.bind, bind, h])

instance : MonadLift (Except ε) (Logged ε) := ⟨ofExcept⟩

end Logged

end PointSymbol
