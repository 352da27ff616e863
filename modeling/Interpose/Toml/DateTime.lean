import Interpose.Text.Decimal

set_option autoImplicit false

namespace Interpose.Toml

def fixedNumber? (width : Nat) (cs : List Char) : Option (Nat × List Char) :=
  let digits := cs.take width
  if digits.length = width ∧ digits.all Text.isDigit then
    some (Text.natOfDigits digits, cs.drop width)
  else none

def skip? (c : Char) : List Char → Option (List Char)
  | first :: rest => if first = c then some rest else none
  | [] => none

def isLeapYear (year : Nat) : Bool := year % 4 == 0 && (year % 100 != 0 || year % 400 == 0)

def daysInMonth (year month : Nat) : Nat :=
  if month = 2 then (if isLeapYear year then 29 else 28)
  else if month = 4 ∨ month = 6 ∨ month = 9 ∨ month = 11 then 30
  else 31

def afterDate? (cs : List Char) : Option (List Char) := do
  let (year, cs) ← fixedNumber? 4 cs
  let (month, cs) ← fixedNumber? 2 (← skip? '-' cs)
  let (day, cs) ← fixedNumber? 2 (← skip? '-' cs)
  if 1 ≤ month ∧ month ≤ 12 ∧ 1 ≤ day ∧ day ≤ daysInMonth year month then some cs else none

def afterFraction? : List Char → Option (List Char)
  | '.' :: rest => if rest.head?.any Text.isDigit then some (rest.dropWhile Text.isDigit) else none
  | cs => some cs

/-- What follows a time such as `07:32:00.5`; a minute may have a leap second. -/
def afterTime? (cs : List Char) : Option (List Char) := do
  let (hour, cs) ← fixedNumber? 2 cs
  let (minute, cs) ← fixedNumber? 2 (← skip? ':' cs)
  let (second, cs) ← fixedNumber? 2 (← skip? ':' cs)
  if hour ≤ 23 ∧ minute ≤ 59 ∧ second ≤ 60 then afterFraction? cs else none

/-- Whether nothing follows but a distance from universal time, if there is one. -/
def endsWithOffset : List Char → Bool
  | [] | ['Z'] | ['z'] => true
  | sign :: cs =>
    (sign == '+' || sign == '-') &&
      (do
        let (hour, cs) ← fixedNumber? 2 cs
        let (minute, cs) ← fixedNumber? 2 (← skip? ':' cs)
        return hour ≤ 23 && minute ≤ 59 && cs.isEmpty).getD false

def isZonedTime (cs : List Char) : Bool := (afterTime? cs).any endsWithOffset

def isDate (cs : List Char) : Bool := (afterDate? cs).any List.isEmpty

def isDateTime (cs : List Char) : Bool :=
  match afterDate? cs with
  | some [] => true
  | some (mark :: rest) => (mark == 'T' || mark == 't') && isZonedTime rest
  | none => (afterTime? cs).any List.isEmpty

end Interpose.Toml
