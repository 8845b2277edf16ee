/-!
# Tokens

The tokens of a shader source and the blanks between them.
-/

namespace PointSymbol.Glsl

inductive Mark where
  | leftParen
  | rightParen
  | leftBrace
  | rightBrace
  | comma
  | semicolon
  | question
  | colon
  | assign
  | equal
  | or
  | plus
  | minus
  | star
  deriving DecidableEq

def Mark.chars : Mark → List Char
  | leftParen => ['(']
  | rightParen => [')']
  | leftBrace => ['\x7b']
  | rightBrace => ['\x7d']
  | comma => [',']
  | semicolon => [';']
  | question => ['?']
  | colon => [':']
  | assign => ['=']
  | equal => ['=', '=']
  | or => ['|', '|']
  | plus => ['+']
  | minus => ['-']
  | star => ['*']

/-- A word is a name or a keyword; a number has no sign. -/
inductive Token where
  | word (name : String)
  | number (digits : List Char)
  | mark (mark : Mark)
  deriving DecidableEq

def Token.chars : Token → List Char
  | word name => name.toList
  | number digits => digits
  | mark m => m.chars

/-- What a source is written with. -/
inductive Piece where
  | token (t : Token)
  | space
  | newline
  deriving DecidableEq

def Piece.chars : Piece → List Char
  | token t => t.chars
  | space => [' ']
  | newline => ['\n']

namespace Piece

def word (name : String) : Piece := token (.word name)

def mark (m : Mark) : Piece := token (.mark m)

end Piece

def parenthesized (ps : List Piece) : List Piece := .mark .leftParen :: (ps ++ [.mark .rightParen])

/-- A mark between spaces. -/
def spaced (m : Mark) : List Piece := [.space, .mark m, .space]

def line (ps : List Piece) : List Piece := ps ++ [.newline]

def write (ps : List Piece) : String := String.ofList (ps.flatMap Piece.chars)

theorem write_append (ps qs : List Piece) : write (ps ++ qs) = write ps ++ write qs := by
  rw [write, List.flatMap_append, String.ofList_append]
  rfl

end PointSymbol.Glsl
