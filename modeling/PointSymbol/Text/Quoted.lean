import PointSymbol.Text.Hidden

/-!
# Quoted texts

A quoted text stands between double quotes on one line. Inside, a double quote and a backslash
follow a backslash, and a hidden character is replaced by a name or by its code in hexadecimal.
-/

namespace PointSymbol.Text

def escape (c : Char) : List Char :=
  match c with
  | '"' => ['\\', '"']
  | '\\' => ['\\', '\\']
  | '\x00' => ['\\', '0']
  | '\t' => ['\\', 't']
  | '\n' => ['\\', 'n']
  | '\r' => ['\\', 'r']
  | _ =>
    if isHidden c then ['\\', 'u', '\x7b'] ++ Nat.toDigits 16 c.toNat ++ ['\x7d'] else [c]

def quotedChars (cs : List Char) : List Char :=
  '"' :: (cs.flatMap escape ++ ['"'])

def quoted (s : String) : String :=
  String.ofList (quotedChars s.toList)

example : quoted "a\"\\\n\x7f" = "\"a\\\"\\\\\\n\\u\x7b7f\x7d\"" := by decide +kernel

end PointSymbol.Text
