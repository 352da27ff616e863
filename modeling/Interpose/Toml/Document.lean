import Interpose.Toml.Reader
import Interpose.Toml.Table

set_option autoImplicit false

namespace Interpose.Toml

def value : Nat → Reader Value
  | depth, cs =>
    match depth, cs with
    | depth + 1, '[' :: rest =>
      (arrayItems (value depth) (rest.length + 1) rest).map fun (items, rest) =>
        (.array items, rest)
    | depth + 1, '\x7b' :: rest =>
      match skipBlanks rest with
      | '\x7d' :: rest => some (.table [], rest)
      | cs => do
        let (pairs, rest) ← inlineEntries (value depth) (cs.length + 1) cs
        (tableOf pairs).map (·, rest)
    | _, '"' :: _ | _, '\'' :: _ => (quoted cs).map fun (text, rest) => (.string text, rest)
    | _, _ => scalar cs

def restOfLine (inComment : Bool) : List Char → Option (List Char)
  | [] => some []
  | c :: rest =>
    if c = '\n' then some rest
    else if c = '\r' then if rest.head? = some '\n' then some (rest.drop 1) else none
    else if inComment then if isPlain c then restOfLine true rest else none
    else if isBlank c then restOfLine false rest
    else if c = '#' then restOfLine true rest
    else none

/-- A document as far as it is read. -/
structure Draft where
  entries : Entries
  header : List String

def Draft.open (draft : Draft) (header : List String)
    (openLast : String → Entries → Option Entries) : Option Draft := do
  let last ← header.getLast?
  let entries ← Entries.within (openLast last) header.dropLast draft.entries
  return ⟨entries, header⟩

def line (draft : Draft) (cs : List Char) : Option (Draft × List Char) :=
  match skipBlanks cs with
  | [] => some (draft, [])
  | '[' :: '[' :: rest => do
    let (header, rest) ← key rest
    match rest with
    | ']' :: ']' :: rest => return (← draft.open header Entries.openNext, ← restOfLine false rest)
    | _ => none
  | '[' :: rest => do
    let (header, rest) ← key rest
    match rest with
    | ']' :: rest => return (← draft.open header Entries.openTable, ← restOfLine false rest)
    | _ => none
  | c :: rest =>
    if c = '#' ∨ c = '\n' ∨ c = '\r' then (restOfLine false (c :: rest)).map (draft, ·)
    else do
      let ((path, value), rest) ← keyValue (value maxNesting) (c :: rest)
      let entries ← draft.entries.within (Entries.assign path value) draft.header
      return (⟨entries, draft.header⟩, ← restOfLine false rest)

/-- Reads lines up to the end; every line takes at least one character. -/
def linesOf : Nat → Draft → List Char → Option Draft
  | _, draft, [] => some draft
  | 0, _, _ => none
  | fuel + 1, draft, cs => do
    let (draft, rest) ← line draft cs
    linesOf fuel draft rest

/-- The entries of a document; a byte order mark in front of it does not count. -/
def parse (text : String) : Option (List (String × Value)) :=
  let cs := match text.toList with
    | '\uFEFF' :: rest => rest
    | cs => cs
  (linesOf cs.length ⟨[], []⟩ cs).map fun draft => Node.valuesOf draft.entries

end Interpose.Toml
