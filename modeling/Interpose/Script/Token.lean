import Interpose.Script.Position
import Interpose.Text.Decimal

set_option autoImplicit false

namespace Interpose.Script

inductive TokenKind where
  | integer (value : Int64)
  | string (value : String)
  | boolean (value : Bool)
  | null
  | identifier (name : String)
  | importWord
  | fromWord
  | letWord
  | exportWord
  | equal
  | dot
  | semicolon
  | endOfInput
deriving DecidableEq, Repr

namespace TokenKind

/-- How an error message shows a token; a string stands between quotes as it is. -/
def text : TokenKind → String
  | integer n => Text.showInt64 n
  | string s => "\"" ++ s ++ "\""
  | boolean b => if b then "true" else "false"
  | null => "null"
  | identifier name => name
  | importWord => "import"
  | fromWord => "from"
  | letWord => "let"
  | exportWord => "export"
  | equal => "="
  | dot => "."
  | semicolon => ";"
  | endOfInput => "end of input"

def ofWord (word : String) : TokenKind :=
  if word = "import" then importWord
  else if word = "from" then fromWord
  else if word = "let" then letWord
  else if word = "export" then exportWord
  else if word = "true" then boolean true
  else if word = "false" then boolean false
  else if word = "null" then null
  else identifier word

end TokenKind

structure Token where
  kind : TokenKind
  span : Span
deriving DecidableEq, Repr

namespace Token

def start (t : Token) : Position := t.span.start

def stop (t : Token) : Position := t.span.stop

end Token

inductive LexFault where
  | unexpectedCharacter (c : Char)
  | unknownEscape (c : Char)
  | unterminatedString
  | integerOutOfRange (digits : String)
deriving DecidableEq, Repr

def LexFault.text : LexFault → String
  | unexpectedCharacter c => "Unexpected character '" ++ c.toString ++ "'"
  | unknownEscape c => "Unknown escape sequence '\\" ++ c.toString ++ "'"
  | unterminatedString => "Unterminated string literal"
  | integerOutOfRange digits => "Integer literal '" ++ digits ++ "' out of range"

structure LexError where
  fault : LexFault
  position : Position
deriving DecidableEq, Repr

def Position.text (p : Position) : String :=
  " at line " ++ toString p.line ++ ", column " ++ toString p.column

def LexError.message (e : LexError) : String := e.fault.text ++ e.position.text

end Interpose.Script
