import Interpose.Script.Lexer

set_option autoImplicit false

namespace Interpose.Script

def quoteChar (c : Char) : List Char :=
  if c = '"' ∨ c = '\\' then ['\\', c]
  else if c = '\n' then ['\\', 'n']
  else if c = '\t' then ['\\', 't']
  else [c]

def quote (value : String) : String :=
  .ofList ('"' :: value.toList.flatMap quoteChar ++ ['"'])

end Interpose.Script
