import Interpose.Script.Tree

set_option autoImplicit false

namespace Interpose.Script

inductive NodeKind where
  | program
  | importDecl
  | letDecl
  | exportDecl
  | identifier
  | literal
  | memberExpr
deriving DecidableEq, Repr

/-- What a visitor learns of a node: a literal's value, a name's text, nothing of other nodes. -/
structure Node where
  kind : NodeKind
  span : Span
  literal : Option Literal
  name : Option String
deriving DecidableEq, Repr

namespace Node

def ofIdent (name : Ident) : Node := ⟨.identifier, name.span, none, some name.name⟩

def ofLiteral (value : Literal) (span : Span) : Node := ⟨.literal, span, some value, none⟩

def ofModuleName (source : ModuleName) : Node := ofLiteral (.string source.value) source.span

def ofParts (kind : NodeKind) (span : Span) : Node := ⟨kind, span, none, none⟩

end Node

def Expr.nodesBefore : Expr → List Node → List Node
  | literal value span, rest => .ofLiteral value span :: rest
  | identifier name, rest => .ofIdent name :: rest
  | member object property span, rest =>
    object.nodesBefore (.ofIdent property :: .ofParts .memberExpr span :: rest)

theorem Expr.nodesBefore_append (value : Expr) (rest more : List Node) :
    value.nodesBefore (rest ++ more) = value.nodesBefore rest ++ more := by
  induction value generalizing rest with
  | literal value span => rfl
  | identifier name => rfl
  | member object property span ih => rw [nodesBefore, nodesBefore, ← ih]; rfl

def Stmt.nodes : Stmt → List Node
  | imports binding source span =>
    [.ofIdent binding, .ofModuleName source, .ofParts .importDecl span]
  | binds name value span => .ofIdent name :: value.nodesBefore [.ofParts .letDecl span]
  | exports name value span => .ofIdent name :: value.nodesBefore [.ofParts .exportDecl span]

/-- Every node of the program, the parts of a node before the node. -/
def Program.nodes (program : Program) : List Node :=
  program.statements.flatMap Stmt.nodes ++ [.ofParts .program program.span]

end Interpose.Script
