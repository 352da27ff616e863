import Interpose.Text.Hidden

/-!
Texts between double quotes with escapes. A *legible* text names every character that a page does
not show by its code point; a JSON string names only quotes, backslashes and control characters.
-/

set_option autoImplicit false

namespace Interpose.Text

def hex (n : Nat) : List Char := Nat.toDigits 16 n

def paddedHex (width n : Nat) : List Char :=
  List.replicate (width - (hex n).length) '0' ++ hex n

def legibleChar (c : Char) : List Char :=
  if c = '\x00' then ['\\', '0']
  else if c = '\t' then ['\\', 't']
  else if c = '\r' then ['\\', 'r']
  else if c = '\n' then ['\\', 'n']
  else if c = '"' ∨ c = '\\' then ['\\', c]
  else if isHidden c then ['\\', 'u', '\x7b'] ++ hex c.toNat ++ ['\x7d']
  else [c]

/-- The text in quotes, legible character by character. -/
def legible (text : String) : String :=
  .ofList ('"' :: text.toList.flatMap legibleChar ++ ['"'])

def jsonChar (c : Char) : List Char :=
  if c = '"' ∨ c = '\\' then ['\\', c]
  else if c = '\x08' then ['\\', 'b']
  else if c = '\x0c' then ['\\', 'f']
  else if c = '\n' then ['\\', 'n']
  else if c = '\r' then ['\\', 'r']
  else if c = '\t' then ['\\', 't']
  else if c < ' ' then ['\\', 'u'] ++ paddedHex 4 c.toNat
  else [c]

def jsonString (text : String) : String :=
  .ofList ('"' :: text.toList.flatMap jsonChar ++ ['"'])

end Interpose.Text
