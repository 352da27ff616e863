import Interpose.Interception.Policy

set_option autoImplicit false

namespace Interpose

inductive ErrorCode where
  | syntaxError
  | moduleResolution
  | evaluation
  | invalidPolicy
  | unsupportedPlatform
  | interceptionBusy
deriving DecidableEq, Repr

def ErrorCode.text : ErrorCode → String
  | syntaxError => "E001"
  | moduleResolution => "E002"
  | evaluation => "E004"
  | invalidPolicy => "E006"
  | unsupportedPlatform => "E007"
  | interceptionBusy => "E008"

structure Diagnostic where
  code : ErrorCode
  message : String
deriving DecidableEq, Repr

namespace Diagnostic

def text (diagnostic : Diagnostic) : String :=
  "[" ++ diagnostic.code.text ++ "] " ++ diagnostic.message

def ofParse (error : Script.ParseError) : Diagnostic := ⟨.syntaxError, error.message⟩

def ofTransform (error : Edit.TransformError) : Diagnostic := ⟨.syntaxError, error.message⟩

/-- A transformer that fails has the code of a text that does not parse. -/
def codeOfModule : ModuleError → ErrorCode
  | .parse .. | .transform .. => .syntaxError
  | .notFound .. | .unreadable .. | .cyclic .. => .moduleResolution
  | .evaluate .. => .evaluation
  | .unsupportedPlatform .. => .unsupportedPlatform

def ofModule (error : ModuleError) : Diagnostic := ⟨codeOfModule error, error.message⟩

def codeOfIntercept : InterceptError → ErrorCode
  | .unknownCode _ | .unknownName _ => .invalidPolicy
  | .busy _ => .interceptionBusy

def ofIntercept (error : InterceptError) : Diagnostic := ⟨codeOfIntercept error, error.message⟩

end Diagnostic

end Interpose
