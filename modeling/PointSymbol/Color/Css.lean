import PointSymbol.Color.Error
import PointSymbol.Color.Keyword
import PointSymbol.Decimal.Reader
import PointSymbol.Text.Blank

/-!
# CSS colors

A color text is a number sign with hex digits, or three or four components in parentheses after
`rgb` or `rgba`, or a keyword. Blanks around the text and the case of its ASCII letters do not
matter. `Rgba.read` speaks about trimmed texts in lower case.
-/

namespace PointSymbol.Color

abbrev HexDigit := Fin 16

/-- The digit that a character stands for, in lower case. -/
def HexDigit.ofChar? (c : Char) : Option HexDigit :=
  (List.finRange 16).find? fun d => Nat.digitChar d = c

def hexByte (high low : HexDigit) : UInt8 :=
  UInt8.ofNatLT (16 * high + low) (show _ < 256 by omega)

/-- Alpha in steps of one 255th. -/
def alphaOfByte (a : UInt8) : Double :=
  .nearest false a.toNat 255

/-- A digit on its own stands for a pair of that digit. -/
def Rgba.readHex (cs : List Char) : Except Fault Rgba :=
  match cs.mapM HexDigit.ofChar? with
  | none => .error .nonHexDigit
  | some [r, g, b] => .ok (.solid (hexByte r r) (hexByte g g) (hexByte b b))
  | some [r, g, b, a] =>
    .ok ⟨hexByte r r, hexByte g g, hexByte b b, alphaOfByte (hexByte a a)⟩
  | some [r, r', g, g', b, b'] => .ok (.solid (hexByte r r') (hexByte g g') (hexByte b b'))
  | some [r, r', g, g', b, b', a, a'] =>
    .ok ⟨hexByte r r', hexByte g g', hexByte b b', alphaOfByte (hexByte a a')⟩
  | some ds => .error (.digitCount ds.length)

/-- The text in parentheses after the function name. The longer name is taken where it fits. -/
def arguments? (cs : List Char) : Option (List Char) := do
  let rest ← ['r', 'g', 'b', 'a'].isPrefixOf? cs <|> ['r', 'g', 'b'].isPrefixOf? cs
  let inner ← ['('].isPrefixOf? (Text.trimStart rest)
  [')'].isSuffixOf? inner

/-- The number nearest to a written decimal, if it is finite. -/
def component? (cs : List Char) : Option Double :=
  ((Decimal.read? cs).map (Decimal.toBinary .double)).filter Binary.isFinite

def readComponent (cs : List Char) : Except Fault Double :=
  match component? cs with
  | some x => .ok x
  | none => .error (.invalidComponent (.ofList cs))

/-- Clamps to a byte; halves go up. -/
def channelByte (x : Double) : UInt8 :=
  UInt8.ofNat (x.clamp 0 255).nearestNat

def Rgba.readComponents (cs : List Char) : Except Fault Rgba :=
  match (cs.splitOn ',').map Text.trim with
  | [r, g, b] => do
    let r ← readComponent r
    let g ← readComponent g
    let b ← readComponent b
    return .solid (channelByte r) (channelByte g) (channelByte b)
  | [r, g, b, a] => do
    let r ← readComponent r
    let g ← readComponent g
    let b ← readComponent b
    let a ← readComponent a
    return ⟨channelByte r, channelByte g, channelByte b, a.clamp 0 1⟩
  | parts => .error (.componentCount parts.length)

def Rgba.read : List Char → Except Fault Rgba
  | [] => .error .empty
  | '#' :: ds => Rgba.readHex ds
  | cs =>
    match arguments? cs with
    | some args => Rgba.readComponents args
    | none =>
      match Keyword.find? (.ofList cs) with
      | some color => .ok color
      | none => .error .unknownName

/-- A text without blanks at its ends and in lower case. -/
def normalForm (text : String) : List Char :=
  (Text.trim text.toList).map Char.toLower

def Rgba.parse (text : String) : Except Error Rgba :=
  (Rgba.read (normalForm text)).mapError fun fault => ⟨fault, text⟩

end PointSymbol.Color
