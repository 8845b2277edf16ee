import PointSymbol.Glsl.Expr

/-!
# Programs

A vertex shader program declares its interface and then assigns in its main function. `text` is its
source, one declaration or statement on a line.
-/

namespace PointSymbol.Glsl

structure Variable where
  type : ValueType
  name : String
  deriving DecidableEq

inductive Qualifier where
  | uniform
  | attrib
  | varying
  deriving DecidableEq

def Qualifier.name : Qualifier → String
  | uniform => "uniform"
  | attrib => "attribute"
  | varying => "varying"

inductive Statement where
  | declare (v : Variable) (value : Expr)
  | assign (name : String) (value : Expr)
  deriving DecidableEq

structure Program where
  uniforms : List Variable
  attributes : List Variable
  varyings : List Variable
  body : List Statement
  deriving DecidableEq

def Variable.pieces (v : Variable) : List Piece := [.word v.type.name, .space, .word v.name]

def Qualifier.declaration (q : Qualifier) (v : Variable) : List Piece :=
  [.word q.name, .space] ++ v.pieces ++ [.mark .semicolon]

def Statement.pieces : Statement → List Piece
  | declare v e => v.pieces ++ spaced .assign ++ e.pieces 0 ++ [.mark .semicolon]
  | assign n e => .word n :: spaced .assign ++ e.pieces 0 ++ [.mark .semicolon]

namespace Program

/-- Floats have medium precision unless declared otherwise. -/
def precision : List Piece :=
  [.word "precision", .space, .word "mediump", .space, .word "float", .mark .semicolon]

def mainHead : List Piece :=
  [.word "void", .space, .word "main"] ++ parenthesized [.word "void"] ++
    [.space, .mark .leftBrace]

def declarations (q : Qualifier) (vs : List Variable) : List Piece :=
  vs.flatMap fun v => line (q.declaration v)

def pieces (p : Program) : List Piece :=
  line precision ++ declarations .uniform p.uniforms ++ [.newline] ++
    declarations .attrib p.attributes ++ [.newline] ++
    declarations .varying p.varyings ++ [.newline] ++
    line mainHead ++ p.body.flatMap (fun s => [.space, .space] ++ line s.pieces) ++
    line [.mark .rightBrace]

def text (p : Program) : String := write p.pieces

end Program

end PointSymbol.Glsl
