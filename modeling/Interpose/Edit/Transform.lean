import Interpose.Outcome
import Interpose.Edit.Visit
import Interpose.Script.Parser

set_option autoImplicit false

namespace Interpose.Edit
open Script

inductive TransformError where
  | invalidInput (cause : ParseError)
  | invalidOutput (cause : ParseError)
deriving DecidableEq, Repr

def TransformError.message : TransformError → String
  | invalidInput cause => "source could not be parsed for rewriting: " ++ cause.message
  | invalidOutput cause => "rewritten source is not valid: " ++ cause.message

abbrev Transformer := String → Outcome TransformError String

variable {σ : Type}

def checkOutput (source output : String) : Except TransformError String :=
  if output = source then .ok output
  else
    match parseText output with
    | .ok _ => .ok output
    | .error cause => .error (.invalidOutput cause)

def revise (visit : Visitor σ) (state : σ) (source : String) :
    Outcome TransformError String × σ :=
  match parseText source with
  | .error cause => (.error (.error (.invalidInput cause)), state)
  | .ok program =>
    match visitNodes visit program.nodes state (.ofChars source.toList) with
    | .error message => (.error (.panic message), state)
    | .ok (state, chunks) =>
      ((checkOutput source (.ofList chunks.chars)).mapError Halt.error, state)

def transformerOf (visit : Node → Visit Unit) : Transformer := fun source =>
  (revise (fun node _ => visit node) () source).1

end Interpose.Edit
