import PointSymbol.Decimal.Basic

/-!
# Shortest decimals

Every number of a binary format is a multiple of `10 ^ (-scale)`, so it lies on the finest of the
grids with steps `10 ^ (k - scale)`. `ofBinary` goes from a grid coarser than the number to finer
ones and stops at the first with a point that reads back as the number. Only the two neighbours of
the number on a grid can be the nearest such point.
-/

namespace PointSymbol.Decimal
-- the powers of core, whether or not a monoid of naturals is in scope
attribute [local instance (2000)] instPowNat
open Binary (Format)

/-- Whether `n * 10 ^ k` steps of the finest grid read back as the code. -/
def readsBack (f : Format) (code k n : Nat) : Bool :=
  f.nearestCode (n * 10 ^ k) (5 ^ f.scale) = code

/-- The neighbours of `w / 10 ^ k`, the nearer one first and of two the upper one. -/
def neighbours (w k : Nat) : List Nat :=
  let below := w / 10 ^ k
  if 2 * (w % 10 ^ k) < 10 ^ k then [below, below + 1] else [below + 1, below]

/-- A point that reads back on one of the grids up to `k`, on the coarsest that has one. The number
itself is `w` steps of the finest grid. -/
def shorten (f : Format) (code w : Nat) : Nat → Nat × Nat
  | 0 => (w, 0)
  | k + 1 =>
    match (neighbours w (k + 1)).find? (readsBack f code (k + 1)) with
    | some n => (n, k + 1)
    | none => shorten f code w k

/-- The decimal with the fewest digits that reads back as the number, and of those the nearest. -/
def ofBinary {f : Format} (x : Binary f) : Decimal :=
  if x.isZero then ⟨x.negative, 0, 0⟩
  else
    let w := x.units * 5 ^ f.scale
    let (n, k) := shorten f x.code w (Nat.toDigits 10 w).length
    ⟨x.negative, n, k - f.scale⟩

end PointSymbol.Decimal
