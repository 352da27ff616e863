import Interpose.Toml.DateTime
import Interpose.Toml.Number

set_option autoImplicit false

namespace Interpose.Toml

/-- How deep values may be nested, and how long a dotted key must stay below. -/
def maxNesting : Nat := 79

def skipLines (inComment : Bool) : List Char → Option (List Char)
  | [] => some []
  | c :: rest =>
    if c = '\n' then skipLines false rest
    else if c = '\r' then if rest.head? = some '\n' then skipLines false rest else none
    else if inComment then if isPlain c then skipLines true rest else none
    else if isBlank c then skipLines false rest
    else if c = '#' then skipLines true rest
    else some (c :: rest)

def isBareKeyChar (c : Char) : Bool :=
  ('a' ≤ c && c ≤ 'z') || ('A' ≤ c && c ≤ 'Z') || ('0' ≤ c && c ≤ '9') || c == '-' || c == '_'

def simpleKey : Reader String := fun cs =>
  match cs with
  | '"' :: _ | '\'' :: _ => quotedKey cs
  | _ =>
    let word := cs.takeWhile isBareKeyChar
    if word = [] then none else some (.ofList word, cs.dropWhile isBareKeyChar)

/-- The parts of a key, at most so many, with dots between them. -/
def keyParts : Nat → Reader (List String)
  | 0, _ => none
  | fuel + 1, cs => do
    let (part, cs) ← simpleKey (skipBlanks cs)
    match skipBlanks cs with
    | '.' :: rest => (keyParts fuel rest).map fun (parts, rest) => (part :: parts, rest)
    | rest => some ([part], rest)

def key : Reader (List String) := keyParts maxNesting

def isDelimiter (c : Char) : Bool :=
  isBlank c || c == '\n' || c == '\r' || c == ',' || c == ']' || c == '\x7d' || c == '#'

def word (cs : List Char) : List Char := cs.takeWhile (! isDelimiter ·)

def scalarOf? (text : List Char) : Option Value :=
  if text = ['t', 'r', 'u', 'e'] then some (.boolean true)
  else if text = ['f', 'a', 'l', 's', 'e'] then some (.boolean false)
  else if isDateTime text then some (.dateTime (.ofList text))
  else if isFloat text then some (.float (.ofList text))
  else integer? text

/-- A number, a date or a truth value. A blank may stand between a day and a time. -/
def scalar : Reader Value := fun cs =>
  let text := word cs
  let rest := cs.drop text.length
  match rest with
  | ' ' :: behind =>
    if isDate text && isZonedTime (word behind) then
      some (.dateTime (.ofList (text ++ ' ' :: word behind)), behind.drop (word behind).length)
    else (scalarOf? text).map (·, rest)
  | _ => (scalarOf? text).map (·, rest)

def arrayItems (item : Reader Value) : Nat → Reader (List Value)
  | 0, _ => none
  | fuel + 1, cs => do
    match ← skipLines false cs with
    | ']' :: rest => some ([], rest)
    | cs =>
      let (first, cs) ← item cs
      match ← skipLines false cs with
      | ',' :: rest => (arrayItems item fuel rest).map fun (items, rest) => (first :: items, rest)
      | ']' :: rest => some ([first], rest)
      | _ => none

def keyValue (value : Reader Value) : Reader (List String × Value) := fun cs => do
  let (path, cs) ← key cs
  match cs with
  | '=' :: rest =>
    let (value, cs) ← value (skipBlanks rest)
    some ((path, value), skipBlanks cs)
  | _ => none

def inlineEntries (value : Reader Value) : Nat → Reader (List (List String × Value))
  | 0, _ => none
  | fuel + 1, cs => do
    let (first, cs) ← keyValue value cs
    match cs with
    | ',' :: rest =>
      (inlineEntries value fuel rest).map fun (entries, rest) => (first :: entries, rest)
    | '\x7d' :: rest => some ([first], rest)
    | _ => none

end Interpose.Toml
