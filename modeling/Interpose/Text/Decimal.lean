set_option autoImplicit false

namespace Interpose.Text

def isDigit (c : Char) : Bool := '0' ≤ c && c ≤ '9'

def digitValue (c : Char) : Nat := c.toNat - '0'.toNat

def natOfDigits (digits : List Char) : Nat :=
  digits.foldl (fun n c => 10 * n + digitValue c) 0

def int64? (n : Int) : Option Int64 :=
  if Int64.minValue.toInt ≤ n ∧ n ≤ Int64.maxValue.toInt then some (Int64.ofInt n) else none

/-- Digits behind a sign that may be missing; nothing else, and at least one digit. -/
def parseInt64? (text : String) : Option Int64 :=
  let digits? (cs : List Char) : Option Nat :=
    if cs ≠ [] ∧ cs.all isDigit then some (natOfDigits cs) else none
  match text.toList with
  | '-' :: cs => (digits? cs).bind fun n => int64? (-n)
  | '+' :: cs => (digits? cs).bind fun n => int64? n
  | cs => (digits? cs).bind fun n => int64? n

def showInt64 (n : Int64) : String := toString n.toInt

end Interpose.Text
