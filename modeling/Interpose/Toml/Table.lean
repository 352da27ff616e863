import Interpose.Toml.Value

/-!
Tables under construction. A table is opened once: by its own header, on the way to a deeper header,
or by a dotted key; what may be added to it later depends on which it was.
-/

set_option autoImplicit false

namespace Interpose.Toml

inductive Opened where
  | byHeader
  | onTheWay
  | byDottedKey
deriving DecidableEq, Repr

inductive Node where
  | value (value : Value)
  | table (opened : Opened) (entries : List (String × Node))
  /-- Tables under one repeated header, the latest first. -/
  | tables (items : List (List (String × Node)))

abbrev Entries := List (String × Node)

namespace Entries

def set (entries : Entries) (name : String) (node : Node) : Entries :=
  (name, node) :: entries.filter (·.1 != name)

def addNew (entries : Entries) (name : String) (node : Node) : Option Entries :=
  if (entries.lookup name).isSome then none else some ((name, node) :: entries)

def within (change : Entries → Option Entries) : List String → Entries → Option Entries
  | [], entries => change entries
  | name :: names, entries =>
    match entries.lookup name with
    | none => (within change names []).map fun inner => entries.set name (.table .onTheWay inner)
    | some (.table opened inner) =>
      (within change names inner).map fun inner => entries.set name (.table opened inner)
    | some (.tables (latest :: others)) =>
      (within change names latest).map fun latest => entries.set name (.tables (latest :: others))
    | some _ => none

/-- Adds a value below dotted names. The last of the tables passed has to be one that a dotted key
opened; `opened` says how the present one was. -/
def assignBelow (name : String) (value : Value) :
    List String → Opened → Entries → Option Entries
  | [], opened, entries =>
    if opened = .byDottedKey then entries.addNew name (.value value) else none
  | first :: names, _, entries =>
    match entries.lookup first with
    | none =>
      (assignBelow name value names .byDottedKey []).map fun inner =>
        entries.set first (.table .byDottedKey inner)
    | some (.table opened inner) =>
      if opened = .byHeader then none
      else
        (assignBelow name value names opened inner).map fun inner =>
          entries.set first (.table opened inner)
    | some (.tables (latest :: others)) =>
      (assignBelow name value names .byHeader latest).map fun latest =>
        entries.set first (.tables (latest :: others))
    | some _ => none

def assign (key : List String) (value : Value) (entries : Entries) : Option Entries :=
  match key.getLast?, key.dropLast with
  | none, _ => none
  | some name, [] => entries.addNew name (.value value)
  | some name, names => assignBelow name value names .byHeader entries

def openTable (name : String) (entries : Entries) : Option Entries :=
  match entries.lookup name with
  | none => some (entries.set name (.table .byHeader []))
  | some (.table .onTheWay inner) => some (entries.set name (.table .byHeader inner))
  | some _ => none

def openNext (name : String) (entries : Entries) : Option Entries :=
  match entries.lookup name with
  | none => some (entries.set name (.tables [[]]))
  | some (.tables items) => some (entries.set name (.tables ([] :: items)))
  | some _ => none

end Entries

mutual

def Node.toValue : Node → Value
  | .value v => v
  | .table _ entries => .table (Node.valuesOf entries)
  | .tables items => .array (Node.arrayOf items).reverse

def Node.valuesOf : List (String × Node) → List (String × Value)
  | [] => []
  | (name, node) :: rest => (name, node.toValue) :: Node.valuesOf rest

def Node.arrayOf : List (List (String × Node)) → List Value
  | [] => []
  | entries :: rest => .table (Node.valuesOf entries) :: Node.arrayOf rest

end

def tableOf (pairs : List (List String × Value)) : Option Value :=
  (pairs.foldlM (fun entries pair => Entries.assign pair.1 pair.2 entries) []).map fun entries =>
    .table (Node.valuesOf entries)

end Interpose.Toml
