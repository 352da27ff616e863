import Interpose.Toml.Value

set_option autoImplicit false

namespace Interpose.Toml

def hexValue? (c : Char) : Option Nat :=
  if '0' ≤ c && c ≤ '9' then some (c.toNat - '0'.toNat)
  else if 'a' ≤ c && c ≤ 'f' then some (c.toNat - 'a'.toNat + 10)
  else if 'A' ≤ c && c ≤ 'F' then some (c.toNat - 'A'.toNat + 10)
  else none

def hexNumber? (digits : List Char) : Option Nat :=
  digits.foldl (fun n? c => n?.bind fun n => (hexValue? c).map (16 * n + ·)) (some 0)

/-- The character with the code point, which must not be a surrogate or out of range. -/
def scalar? (n : Nat) : Option Char :=
  if n < 0xD800 ∨ (0xE000 ≤ n ∧ n < 0x110000) then some (Char.ofNat n) else none

def simpleEscape? : Char → Option Char
  | 'b' => some '\x08'
  | 't' => some '\t'
  | 'n' => some '\n'
  | 'f' => some '\x0c'
  | 'r' => some '\r'
  | '"' => some '"'
  | '\\' => some '\\'
  | _ => none

def escapeWidth? : Char → Option Nat
  | 'u' => some 4
  | 'U' => some 8
  | _ => none

inductive Within where
  | text
  | escape
  | code (missing : Nat) (digits : List Char)
deriving DecidableEq, Repr

def basicBody : Within → Reader (List Char)
  | _, [] => none
  | .text, c :: rest =>
    if c = '"' then some ([], rest)
    else if c = '\\' then basicBody .escape rest
    else if isPlain c then (basicBody .text rest).map fun (body, rest) => (c :: body, rest)
    else none
  | .escape, c :: rest =>
    match simpleEscape? c, escapeWidth? c with
    | some value, _ => (basicBody .text rest).map fun (body, rest) => (value :: body, rest)
    | none, some width => basicBody (.code width []) rest
    | none, none => none
  | .code missing digits, c :: rest =>
    if missing ≤ 1 then do
      let value ← scalar? (← hexNumber? (digits ++ [c]))
      (basicBody .text rest).map fun (body, rest) => (value :: body, rest)
    else basicBody (.code (missing - 1) (digits ++ [c])) rest

def literalBody : Reader (List Char)
  | [] => none
  | c :: rest =>
    if c = '\'' then some ([], rest)
    else if isPlain c then (literalBody rest).map fun (body, rest) => (c :: body, rest)
    else none

inductive LineWithin where
  | text
  | quotes (count : Nat)
  | escape
  | code (missing : Nat) (digits : List Char)
  /-- Blanks behind a backslash that may turn out to end its line. -/
  | lineEscape
  /-- Blanks and line ends behind a backslash that ended its line. -/
  | skipping
deriving DecidableEq, Repr

def quotesOf (quote : Char) (count : Nat) : List Char := List.replicate count quote

/-- The value of a string of several lines, from behind its opening quotes. Three quotes end it, and
up to two more that stand before them belong to the value. -/
def linesBody (quote : Char) (escapes : Bool) : LineWithin → Reader (List Char)
  | .quotes count, [] => if 3 ≤ count then some (quotesOf quote (count - 3), []) else none
  | _, [] => none
  | .quotes count, c :: rest =>
    if c = quote then
      if count = 5 then some (quotesOf quote 2, c :: rest)
      else linesBody quote escapes (.quotes (count + 1)) rest
    else if 3 ≤ count then some (quotesOf quote (count - 3), c :: rest)
    else
      (if escapes && c == '\\' then linesBody quote escapes .escape rest
       else if c = '\r' then
        if rest.head? = some '\n' then linesBody quote escapes .text rest else none
       else if c = '\n' || isPlain c then
        (linesBody quote escapes .text rest).map fun (body, rest) => (c :: body, rest)
       else none).map fun (body, rest) => (quotesOf quote count ++ body, rest)
  | .text, c :: rest =>
    if c = quote then linesBody quote escapes (.quotes 1) rest
    else if escapes && c == '\\' then linesBody quote escapes .escape rest
    else if c = '\r' then
      if rest.head? = some '\n' then linesBody quote escapes .text rest else none
    else if c = '\n' || isPlain c then
      (linesBody quote escapes .text rest).map fun (body, rest) => (c :: body, rest)
    else none
  | .escape, c :: rest =>
    match simpleEscape? c, escapeWidth? c with
    | some value, _ =>
      (linesBody quote escapes .text rest).map fun (body, rest) => (value :: body, rest)
    | none, some width => linesBody quote escapes (.code width []) rest
    | none, none =>
      if isBlank c then linesBody quote escapes .lineEscape rest
      else if c = '\n' then linesBody quote escapes .skipping rest
      else if c = '\r' && rest.head? == some '\n' then linesBody quote escapes .lineEscape rest
      else none
  | .code missing digits, c :: rest =>
    if missing ≤ 1 then do
      let value ← scalar? (← hexNumber? (digits ++ [c]))
      (linesBody quote escapes .text rest).map fun (body, rest) => (value :: body, rest)
    else linesBody quote escapes (.code (missing - 1) (digits ++ [c])) rest
  | .lineEscape, c :: rest =>
    if isBlank c then linesBody quote escapes .lineEscape rest
    else if c = '\n' then linesBody quote escapes .skipping rest
    else if c = '\r' && rest.head? == some '\n' then linesBody quote escapes .lineEscape rest
    else none
  | .skipping, c :: rest =>
    if isBlank c || c == '\n' then linesBody quote escapes .skipping rest
    else if c = '\r' && rest.head? == some '\n' then linesBody quote escapes .skipping rest
    else if c = quote then linesBody quote escapes (.quotes 1) rest
    else if c = '\\' then linesBody quote escapes .escape rest
    else if isPlain c then
      (linesBody quote escapes .text rest).map fun (body, rest) => (c :: body, rest)
    else none

def lines (quote : Char) (escapes : Bool) (cs : List Char) : Option (List Char × List Char) :=
  linesBody quote escapes .text ((lineEnd? cs).getD cs)

def quoted : Reader String := fun cs =>
  (match cs with
  | '"' :: '"' :: '"' :: rest => lines '"' true rest
  | '\'' :: '\'' :: '\'' :: rest => lines '\'' false rest
  | '"' :: rest => basicBody .text rest
  | '\'' :: rest => literalBody rest
  | _ => none).map fun (body, rest) => (.ofList body, rest)

def quotedKey : Reader String := fun cs =>
  (match cs with
  | '"' :: rest => basicBody .text rest
  | '\'' :: rest => literalBody rest
  | _ => none).map fun (body, rest) => (.ofList body, rest)

end Interpose.Toml
