import PointSymbol.Glsl.Literal

/-!
# Expressions

The expressions of vertex shaders and how they are written. An operand stands in parentheses only if
its operator binds less tightly than its place asks for.
-/

namespace PointSymbol.Glsl

inductive ValueType where
  | float
  | vec2
  | vec4
  | mat4
  deriving DecidableEq

def ValueType.name : ValueType → String
  | float => "float"
  | vec2 => "vec2"
  | vec4 => "vec4"
  | mat4 => "mat4"

/-- `extend` makes four components of two and two more. -/
inductive Expr where
  | literal (a : Literal)
  | name (name : String)
  | vec2 (x y : Expr)
  | vec4 (x y z w : Expr)
  | extend (xy z w : Expr)
  | mul (a b : Expr)
  | add (a b : Expr)
  | equal (a b : Expr)
  | or (a b : Expr)
  | select (condition yes no : Expr)
  deriving DecidableEq

namespace Expr

def call (type : ValueType) (arguments : List (List Piece)) : List Piece :=
  .word type.name :: parenthesized ([.mark .comma, .space].intercalate arguments)

def wrapIf (needed : Bool) (ps : List Piece) : List Piece :=
  if needed then parenthesized ps else ps

/-- The levels go from a whole expression at zero to an operand of the tightest operator. -/
def pieces (level : Nat) : Expr → List Piece
  | literal a => a.pieces
  | name n => [.word n]
  | vec2 x y => call .vec2 [x.pieces 0, y.pieces 0]
  | vec4 x y z w => call .vec4 [x.pieces 0, y.pieces 0, z.pieces 0, w.pieces 0]
  | extend xy z w => call .vec4 [xy.pieces 0, z.pieces 0, w.pieces 0]
  | mul a b => wrapIf (4 < level) (a.pieces 4 ++ spaced .star ++ b.pieces 5)
  | add a b => wrapIf (3 < level) (a.pieces 3 ++ spaced .plus ++ b.pieces 4)
  | equal a b => wrapIf (2 < level) (a.pieces 2 ++ spaced .equal ++ b.pieces 3)
  | or a b => wrapIf (1 < level) (a.pieces 1 ++ spaced .or ++ b.pieces 2)
  | select c a b =>
    wrapIf (0 < level)
      (c.pieces 1 ++ spaced .question ++ a.pieces 0 ++ spaced .colon ++ b.pieces 0)

end Expr

end PointSymbol.Glsl
