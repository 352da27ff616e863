set_option autoImplicit false

namespace Interpose.Toml

inductive Value where
  | string (value : String)
  | integer (value : Int64)
  | float (text : String)
  | boolean (value : Bool)
  | dateTime (text : String)
  | array (items : List Value)
  | table (entries : List (String × Value))

abbrev Reader (α : Type) := List Char → Option (α × List Char)

def isBlank (c : Char) : Bool := c == ' ' || c == '\t'

def skipBlanks (cs : List Char) : List Char := cs.dropWhile isBlank

/-- Characters that may stand in comments and literal strings, beside line ends. -/
def isPlain (c : Char) : Bool := c == '\t' || (' ' ≤ c && c != '\x7f')

/-- What follows a line end, which is a line feed with or without a carriage return. -/
def lineEnd? : List Char → Option (List Char)
  | '\n' :: rest => some rest
  | '\r' :: '\n' :: rest => some rest
  | _ => none

end Interpose.Toml
