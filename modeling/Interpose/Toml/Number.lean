import Interpose.Text.Decimal
import Interpose.Toml.Quoted

set_option autoImplicit false

namespace Interpose.Toml

def groupedDigits? (isDigit : Char → Bool) : List Char → Option (List Char)
  | [] => none
  | [c] => if isDigit c then some [c] else none
  | c :: '_' :: rest => if isDigit c then (groupedDigits? isDigit rest).map (c :: ·) else none
  | c :: rest => if isDigit c then (groupedDigits? isDigit rest).map (c :: ·) else none

def splitSign : List Char → Bool × List Char
  | '-' :: rest => (true, rest)
  | '+' :: rest => (false, rest)
  | cs => (false, cs)

def decimalDigits? (cs : List Char) : Option (List Char) :=
  match groupedDigits? Text.isDigit cs with
  | some ('0' :: _ :: _) => none
  | digits? => digits?

def ofRadix? (radix : Nat) (cs : List Char) : Option Value := do
  let isDigit (c : Char) : Bool := (hexValue? c).any (· < radix)
  let digits ← groupedDigits? isDigit cs
  let n := digits.foldl (fun n c => radix * n + (hexValue? c).getD 0) 0
  (Text.int64? n).map .integer

def integer? : List Char → Option Value
  | '0' :: 'x' :: rest => ofRadix? 16 rest
  | '0' :: 'o' :: rest => ofRadix? 8 rest
  | '0' :: 'b' :: rest => ofRadix? 2 rest
  | cs => do
    let (negative, unsigned) := splitSign cs
    let n : Int := Text.natOfDigits (← decimalDigits? unsigned)
    (Text.int64? (if negative then -n else n)).map .integer

/-- The decimal numbers that are at least this round to infinity: it is half a step above the
largest float. -/
def floatLimit : Nat := Nat.pow 2 1024 - Nat.pow 2 970

/-- Whether a decimal number with these digits, times a power of ten, rounds to infinity. -/
def overflows (digits : List Char) (exponent : Int) : Bool :=
  let n := Text.natOfDigits digits
  if n = 0 then false
  else if exponent < 0 then
    -- A number below `10 ^ 308` does not overflow, whatever its digits are.
    if digits.length ≤ 308 + exponent.natAbs then false
    else floatLimit * Nat.pow 10 exponent.natAbs ≤ n
  else 309 ≤ exponent || floatLimit ≤ n * Nat.pow 10 exponent.toNat

def exponent? (cs : List Char) : Option Int := do
  let (negative, unsigned) := splitSign cs
  let n : Int := Text.natOfDigits (← groupedDigits? Text.isDigit unsigned)
  return if negative then -n else n

def isExponentMark (c : Char) : Bool := c == 'e' || c == 'E'

/-- A number with a fraction or an exponent, or a name of infinity or of no number. -/
def isFloat (cs : List Char) : Bool :=
  let (negative, unsigned) := splitSign cs
  let mantissa := unsigned.takeWhile (! isExponentMark ·)
  let whole := mantissa.takeWhile (· != '.')
  let read : Option Bool := do
    let digits ← decimalDigits? whole
    let fraction ← match mantissa.dropWhile (· != '.') with
      | [] => some []
      | _ :: rest => groupedDigits? Text.isDigit rest
    let exponent ← match unsigned.dropWhile (! isExponentMark ·) with
      | [] => if fraction = [] then none else some 0
      | _ :: rest => exponent? rest
    return negative || ! overflows (digits ++ fraction) (exponent - fraction.length)
  unsigned == ['i', 'n', 'f'] || unsigned == ['n', 'a', 'n'] || read == some true

end Interpose.Toml
