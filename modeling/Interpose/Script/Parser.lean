import Interpose.Script.Lexer
import Interpose.Script.Tree

/-!
From tokens to trees. A parser can be called again after an error and goes on behind the tokens it
has taken; each statement takes at least one token (`statement_shorter`), and no call takes an end
mark.
-/

set_option autoImplicit false

namespace Interpose.Script

inductive Expectation where
  | statement
  | identifier
  | fromWord
  | moduleName
  | equal
  | expression
  | semicolon
  | moreInput
deriving DecidableEq, Repr

def Expectation.text : Expectation → String
  | statement => "'import', 'let' or 'export'"
  | identifier => "identifier"
  | fromWord => "'from'"
  | moduleName => "module path string"
  | equal => "'='"
  | expression => "expression"
  | semicolon => "';'"
  | moreInput => "more input"

inductive ParseError where
  | lexical (error : LexError)
  | unexpectedToken (expected : Expectation) (found : TokenKind) (position : Position)
deriving DecidableEq, Repr

namespace ParseError

def position : ParseError → Position
  | lexical error => error.position
  | unexpectedToken _ _ position => position

def message : ParseError → String
  | lexical error => error.message
  | unexpectedToken expected found position =>
    "Unexpected token: expected " ++ expected.text ++ " but found " ++ found.text ++ position.text

end ParseError

/-- A step of the parser: it takes tokens from the front, also when it fails. -/
abbrev Parse (α : Type) := ExceptT ParseError (StateM (List Token)) α

def nextToken : Parse Token := fun tokens =>
  match tokens with
  | [] => (.error (.unexpectedToken .moreInput .endOfInput .nowhere), [])
  | token :: rest =>
    if token.kind = .endOfInput then
      (.error (.unexpectedToken .moreInput .endOfInput token.start), token :: rest)
    else (.ok token, rest)

def refuse {α : Type} (expected : Expectation) (token : Token) : Parse α :=
  throw (.unexpectedToken expected token.kind token.start)

def expect (kind : TokenKind) (expected : Expectation) : Parse Token := do
  let token ← nextToken
  if token.kind = kind then return token else refuse expected token

def identifier : Parse Ident := do
  let token ← nextToken
  match token.kind with
  | .identifier name => return ⟨name, token.span⟩
  | _ => refuse .identifier token

def moduleName : Parse ModuleName := do
  let token ← nextToken
  match token.kind with
  | .string value => return ⟨value, token.span⟩
  | _ => refuse .moduleName token

def members (head : Expr) : List Token → Except ParseError Expr × List Token
  | [] => (.ok head, [])
  | [dot] =>
    if dot.kind = .dot then (.error (.unexpectedToken .moreInput .endOfInput .nowhere), [])
    else (.ok head, [dot])
  | dot :: token :: rest =>
    if dot.kind = .dot then
      match token.kind with
      | .identifier name =>
        members (.member head ⟨name, token.span⟩ ⟨head.span.start, token.stop⟩) rest
      | .endOfInput => (.error (.unexpectedToken .moreInput .endOfInput token.start), token :: rest)
      | found => (.error (.unexpectedToken .identifier found token.start), rest)
    else (.ok head, dot :: token :: rest)

def expression : Parse Expr := do
  let token ← nextToken
  match token.kind with
  | .string value => return .literal (.string value) token.span
  | .integer value => return .literal (.integer value) token.span
  | .boolean value => return .literal (.boolean value) token.span
  | .null => return .literal .null token.span
  | .identifier name => fun tokens => members (.identifier ⟨name, token.span⟩) tokens
  | _ => refuse .expression token

def binding (make : Ident → Expr → Span → Stmt) (first : Token) : Parse Stmt := do
  let name ← identifier
  let _ ← expect .equal .equal
  let value ← expression
  let last ← expect .semicolon .semicolon
  return make name value ⟨first.start, last.stop⟩

def statement : Parse Stmt := do
  let first ← nextToken
  match first.kind with
  | .importWord =>
    let name ← identifier
    let _ ← expect .fromWord .fromWord
    let source ← moduleName
    let last ← expect .semicolon .semicolon
    return .imports name source ⟨first.start, last.stop⟩
  | .letWord => binding .binds first
  | .exportWord => binding .exports first
  | _ => refuse .statement first

/-- A property of steps that passes on from parts of a step to the step. -/
structure Parse.Inherited (P : (α : Type) → Parse α → Prop) : Prop where
  pure : ∀ {α : Type} (value : α), P α (Pure.pure value)
  refuse : ∀ {α : Type} (expected : Expectation) (token : Token), P α (refuse expected token)
  nextToken : P Token nextToken
  members : ∀ head : Expr, P Expr (fun tokens => members head tokens)
  bind : ∀ {α β : Type} {step : Parse α} {next : α → Parse β}, P α step →
    (∀ value, P β (next value)) → P β (step >>= next)

namespace Parse.Inherited

variable {P : (α : Type) → Parse α → Prop} (h : Parse.Inherited P)

include h

theorem expect (kind : TokenKind) (expected : Expectation) : P Token (expect kind expected) := by
  refine h.bind h.nextToken fun token => ?_
  split
  · exact h.pure _
  · exact h.refuse _ _

theorem identifier : P Ident identifier := by
  refine h.bind h.nextToken fun token => ?_
  split
  · exact h.pure _
  · exact h.refuse _ _

theorem moduleName : P ModuleName moduleName := by
  refine h.bind h.nextToken fun token => ?_
  split
  · exact h.pure _
  · exact h.refuse _ _

theorem expression : P Expr expression := by
  refine h.bind h.nextToken fun ⟨kind, _⟩ => ?_
  cases kind with
  | identifier name => exact h.members _
  | string value | integer value | boolean value | null => exact h.pure _
  | _ => exact h.refuse _ _

theorem binding (make : Ident → Expr → Span → Stmt) (first : Token) : P Stmt (binding make first) :=
  h.bind h.identifier fun _ => h.bind (h.expect _ _) fun _ =>
    h.bind h.expression fun _ => h.bind (h.expect _ _) fun _ => h.pure _

theorem behindFirst : ∃ next : Token → Parse Stmt,
    statement = Script.nextToken >>= next ∧ ∀ first, P Stmt (next first) := by
  refine ⟨_, rfl, fun first => ?_⟩
  split
  · exact h.bind h.identifier fun _ => h.bind (h.expect _ _) fun _ =>
      h.bind h.moduleName fun _ => h.bind (h.expect _ _) fun _ => h.pure _
  · exact h.binding _ _
  · exact h.binding _ _
  · exact h.refuse _ _

theorem statement : P Stmt statement := by
  obtain ⟨next, hstatement, hnext⟩ := h.behindFirst
  exact hstatement ▸ h.bind h.nextToken hnext

end Parse.Inherited

def Parse.Shrinks {α : Type} (step : Parse α) : Prop :=
  ∀ tokens : List Token, (step tokens).2.length ≤ tokens.length

theorem Parse.bind_apply {α β : Type} (step : Parse α) (next : α → Parse β) (tokens : List Token) :
    (step >>= next) tokens =
      match step tokens with
      | (.ok value, rest) => next value rest
      | (.error error, rest) => (.error error, rest) := by
  change (match step tokens with | (a, s) => ExceptT.bindCont next a s) = _
  rcases step tokens with ⟨_ | _, rest⟩ <;> rfl

theorem Parse.Shrinks.bind {α β : Type} {step : Parse α} {next : α → Parse β}
    (first : step.Shrinks) (then_ : ∀ value, (next value).Shrinks) : (step >>= next).Shrinks := by
  intro tokens
  have := first tokens
  rw [bind_apply]
  split <;> rename_i read <;> rw [read] at this
  · exact Nat.le_trans (then_ _ _) this
  · exact this

theorem nextToken_shorter (tokens : List Token) :
    match nextToken tokens with
    | (.ok _, rest) => rest.length < tokens.length
    | (.error _, rest) => rest = tokens := by
  cases tokens with
  | nil => rfl
  | cons token rest =>
    by_cases ended : token.kind = .endOfInput
    · simp [nextToken, ended]
    · simp [nextToken, ended]

theorem shrinks_nextToken : nextToken.Shrinks := by
  intro tokens
  have := nextToken_shorter tokens
  split at this <;> rename_i read <;> rw [read]
  · exact Nat.le_of_lt this
  · exact Nat.le_of_eq (congrArg _ this)

theorem members_length_le (head : Expr) (tokens : List Token) :
    (members head tokens).2.length ≤ tokens.length := by
  fun_induction members head tokens <;> simp only [List.length_cons, List.length_nil] <;> omega

theorem inherited_shrinks : Parse.Inherited fun _ step => step.Shrinks where
  pure _ _ := Nat.le_refl _
  refuse _ _ _ := Nat.le_refl _
  nextToken := shrinks_nextToken
  members := members_length_le
  bind := Parse.Shrinks.bind

/-- A statement takes at least one token. -/
theorem statement_shorter {tokens rest : List Token} {stmt : Stmt}
    (h : statement tokens = (.ok stmt, rest)) : rest.length < tokens.length := by
  obtain ⟨more, behind, shrinks⟩ := inherited_shrinks.behindFirst
  have first := nextToken_shorter tokens
  rw [behind, Parse.bind_apply] at h
  split at h
  next token left read =>
    rw [read] at first
    have taken := shrinks token left
    rw [h] at taken
    exact Nat.lt_of_le_of_lt taken first
  next => cases (Prod.mk.inj h).1

/-- Whether the tokens are used up: none is left, or the end mark is next. -/
def atEnd : List Token → Bool
  | [] => true
  | token :: _ => token.kind == .endOfInput

def statements (tokens : List Token) : Except ParseError (List Stmt) × List Token :=
  if atEnd tokens then (.ok [], tokens)
  else
    match _step : statement tokens with
    | (.error error, rest) => (.error error, rest)
    | (.ok stmt, rest) =>
      let (more, last) := statements rest
      (more.map (stmt :: ·), last)
termination_by tokens.length
decreasing_by exact statement_shorter _step

def parseProgram (tokens : List Token) : Except ParseError Program × List Token :=
  let (read, rest) := statements tokens
  let stop := (rest.head?.map Token.stop).getD .start
  (read.map fun stmts => ⟨stmts, ⟨.start, stop⟩⟩, rest)

def parse (tokens : List Token) : Except ParseError Program := (parseProgram tokens).1

def parseText (source : String) : Except ParseError Program :=
  match tokenize source with
  | .ok tokens => parse tokens
  | .error error => .error (.lexical error)

end Interpose.Script
