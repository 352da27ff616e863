import Interpose.Text.Decimal
import Interpose.Text.Escape

set_option autoImplicit false

namespace Interpose

inductive Json where
  | null
  | boolean (value : Bool)
  | integer (value : Int64)
  | string (value : String)
  | object (members : List (String × Json))

namespace Json

mutual

def compact : Json → String
  | null => "null"
  | boolean b => if b then "true" else "false"
  | integer n => Text.showInt64 n
  | string s => Text.jsonString s
  | object members => "\x7b" ++ ",".intercalate (compactMembers members) ++ "\x7d"

def compactMembers : List (String × Json) → List String
  | [] => []
  | (name, value) :: rest =>
    (Text.jsonString name ++ ":" ++ compact value) :: compactMembers rest

end

def newLine (level : Nat) : String := .ofList ('\n' :: List.replicate (2 * level) ' ')

mutual

def pretty (level : Nat) : Json → String
  | null => "null"
  | boolean b => if b then "true" else "false"
  | integer n => Text.showInt64 n
  | string s => Text.jsonString s
  | object [] => "\x7b\x7d"
  | object (first :: rest) =>
    let lines := prettyMembers (level + 1) (first :: rest)
    "\x7b" ++ newLine (level + 1) ++ ("," ++ newLine (level + 1)).intercalate lines ++
      newLine level ++ "\x7d"

def prettyMembers (level : Nat) : List (String × Json) → List String
  | [] => []
  | (name, value) :: rest =>
    (Text.jsonString name ++ ": " ++ pretty level value) :: prettyMembers level rest

end

end Json

end Interpose
