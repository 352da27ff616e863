import Interpose.Proofs.Language
import Interpose.Proofs.Places

set_option autoImplicit false

namespace Interpose.Script

section Definitions

variable (move : Position → Position)

def Span.moved (span : Span) : Span := ⟨move span.start, move span.stop⟩

def Token.moved (token : Token) : Token := ⟨token.kind, token.span.moved move⟩

def Ident.moved (name : Ident) : Ident := ⟨name.name, name.span.moved move⟩

def ModuleName.moved (source : ModuleName) : ModuleName := ⟨source.value, source.span.moved move⟩

def Expr.moved : Expr → Expr
  | .literal value span => .literal value (span.moved move)
  | .identifier name => .identifier (name.moved move)
  | .member object property span => .member object.moved (property.moved move) (span.moved move)

def Stmt.moved : Stmt → Stmt
  | .imports binding source span => .imports (binding.moved move) (source.moved move) (span.moved move)
  | .binds name value span => .binds (name.moved move) (value.moved move) (span.moved move)
  | .exports name value span => .exports (name.moved move) (value.moved move) (span.moved move)

def LexError.moved (error : LexError) : LexError := ⟨error.fault, move error.position⟩

def ParseError.moved : ParseError → ParseError
  | .lexical error => .lexical (error.moved move)
  | .unexpectedToken expected found position => .unexpectedToken expected found (move position)

/-- The second cursor has the same text ahead, and each place in it is where the first one's is moved
to. -/
structure Cursor.Moved (cursor cursor' : Cursor) : Prop where
  rest : cursor'.rest = cursor.rest
  ahead : ∀ front, cursor'.position.advance front = move (cursor.position.advance front)

def HasEnd (tokens : List Token) : Prop := ∃ token ∈ tokens, token.kind = .endOfInput

/-- Of moved tokens, the second step makes what the first one makes of the tokens, and `carry` says
what becomes of a value. Neither takes an end mark. -/
def Parse.Relocates {α : Type} (carry : α → α) (step step' : Parse α) : Prop :=
  ∀ tokens, HasEnd tokens →
    step' (tokens.map (Token.moved move)) =
      (((step tokens).1.map carry).mapError (ParseError.moved move),
        (step tokens).2.map (Token.moved move)) ∧
    HasEnd (step tokens).2

end Definitions

variable {move : Position → Position}

@[simp] theorem Token.kind_moved (token : Token) : (token.moved move).kind = token.kind := rfl

theorem Expr.span_moved (value : Expr) : (value.moved move).span = value.span.moved move := by
  cases value <;> rfl

section Lexer

variable {cursor cursor' : Cursor}

theorem Cursor.Moved.scan {read : Except LexError (Option Token)} {after : Cursor}
    (h : cursor.Moved move cursor') (hscan : cursor.scan = (read, after)) : ∃ after' : Cursor,
      cursor'.scan =
        ((read.map (Option.map (Token.moved move))).mapError (LexError.moved move), after') ∧
      after.Moved move after' := by
  obtain ⟨cs, p⟩ := cursor
  obtain ⟨cs', p'⟩ := cursor'
  obtain ⟨hrest, hahead⟩ := h
  dsimp only at hrest hahead
  subst hrest
  obtain ⟨gap, text, rest, result, -, hsplit, -⟩ := scan_split cs'
  rw [hsplit, ← Position.advance_append] at hscan
  cases hscan
  refine ⟨⟨rest, p'.advance (gap ++ text)⟩, ?_, rfl, fun front => ?_⟩
  · rw [hsplit, ← Position.advance_append, hahead, hahead]
    rcases result with fault | _ | kind <;> rfl
  · rw [← Position.advance_append, ← Position.advance_append]
    exact hahead _

theorem tokenize_moved (h : cursor.Moved move cursor') : cursor'.tokenize.1 =
    (cursor.tokenize.1.map (List.map (Token.moved move))).mapError (LexError.moved move) := by
  -- by induction on the calls of the first reader
  induction cursor using Cursor.tokenize.induct generalizing cursor' with
  | case1 cursor after hscan =>
    obtain ⟨after', hscan', hafter⟩ := h.scan hscan
    have hstop : after'.position = move after.position := hafter.ahead []
    rw [tokenize_apply, tokenize_apply cursor, hscan, hscan']
    simp only [Except.map, Except.mapError, Option.map, hstop]
    rfl
  | case2 cursor error after hscan =>
    obtain ⟨after', hscan', _⟩ := h.scan hscan
    rw [tokenize_apply, tokenize_apply cursor, hscan, hscan']
    rfl
  | case3 cursor token after hscan _ _ _ ih =>
    obtain ⟨after', hscan', hafter⟩ := h.scan hscan
    rw [tokenize_apply, tokenize_apply cursor, hscan, hscan']
    simp only [Except.map, Except.mapError, Option.map, ih hafter]
    rcases after.tokenize.1 with error | tokens <;> rfl

end Lexer

section Steps

variable {α β : Type} {carry : α → α} {tokens : List Token}

theorem not_hasEnd_nil : ¬ HasEnd [] := fun ⟨_, h, _⟩ => nomatch h

theorem HasEnd.behind {token : Token} (h : HasEnd (token :: tokens)) (hend : token.kind ≠ .endOfInput) :
    HasEnd tokens := by
  obtain ⟨last, hlast, hkind⟩ := h
  rcases List.mem_cons.mp hlast with rfl | hlast
  · exact absurd hkind hend
  · exact ⟨last, hlast, hkind⟩

theorem atEnd_moved (tokens : List Token) : atEnd (tokens.map (Token.moved move)) = atEnd tokens := by
  cases tokens <;> rfl

theorem Parse.Relocates.bind {carry' : β → β} {step step' : Parse α} {next next' : α → Parse β}
    (first : step.Relocates move carry step')
    (then_ : ∀ value, (next value).Relocates move carry' (next' (carry value))) :
    (step >>= next).Relocates move carry' (step' >>= next') := by
  intro tokens htokens
  obtain ⟨hfirst, hrest⟩ := first tokens htokens
  rw [bind_apply, bind_apply, hfirst]
  rcases hstep : step tokens with ⟨error | value, rest⟩ <;> rw [hstep] at hrest
  · exact ⟨rfl, hrest⟩
  · exact then_ value rest hrest

theorem Parse.relocates_pure (value : α) :
    (pure value : Parse α).Relocates move carry (pure (carry value)) :=
  fun _ htokens => ⟨rfl, htokens⟩

theorem relocates_refuse (expected : Expectation) (token : Token) :
    (refuse expected token : Parse α).Relocates move carry (refuse expected (token.moved move)) :=
  fun _ htokens => ⟨rfl, htokens⟩

theorem relocates_nextToken : nextToken.Relocates move (Token.moved move) nextToken := by
  intro tokens htokens
  rcases tokens with _ | ⟨token, tokens⟩
  · exact absurd htokens not_hasEnd_nil
  · by_cases hend : token.kind = .endOfInput
    · have hend' : (token.moved move).kind = .endOfInput := hend
      simp only [List.map_cons, nextToken, if_pos hend, if_pos hend']
      exact ⟨rfl, htokens⟩
    · have hend' : (token.moved move).kind ≠ .endOfInput := hend
      simp only [List.map_cons, nextToken, if_neg hend, if_neg hend']
      exact ⟨rfl, htokens.behind hend⟩

theorem relocates_expect (kind : TokenKind) (expected : Expectation) :
    (expect kind expected).Relocates move (Token.moved move) (expect kind expected) := by
  refine relocates_nextToken.bind fun token => ?_
  rw [Token.kind_moved]
  split
  · exact Parse.relocates_pure token
  · exact relocates_refuse expected token

theorem relocates_identifier : identifier.Relocates move (Ident.moved move) identifier := by
  refine relocates_nextToken.bind fun token => ?_
  rw [Token.kind_moved]
  cases token.kind with
  | identifier name => exact Parse.relocates_pure _
  | _ => exact relocates_refuse _ token

theorem relocates_moduleName : moduleName.Relocates move (ModuleName.moved move) moduleName := by
  refine relocates_nextToken.bind fun token => ?_
  rw [Token.kind_moved]
  cases token.kind with
  | string value => exact Parse.relocates_pure _
  | _ => exact relocates_refuse _ token

theorem relocates_members (head : Expr) :
    Parse.Relocates move (Expr.moved move) (fun tokens => members head tokens)
      (fun tokens => members (head.moved move) tokens) := by
  intro tokens htokens
  dsimp only
  fun_induction members head tokens with
  | case1 => exact absurd htokens not_hasEnd_nil
  | case2 head dot hdot => exact absurd (htokens.behind (by simp [hdot])) not_hasEnd_nil
  | case3 head dot hdot =>
    have hdot' : (dot.moved move).kind ≠ .dot := hdot
    rw [List.map_cons, members_of_ne_dot hdot']
    exact ⟨rfl, htokens⟩
  | case4 head dot token tokens hdot name hname ih =>
    obtain ⟨hmembers, hrest⟩ := ih ((htokens.behind (by simp [hdot])).behind (by simp [hname]))
    refine ⟨?_, hrest⟩
    rw [← hmembers]
    simp only [List.map_cons, members, Token.kind_moved, if_pos hdot, hname, Expr.moved, Expr.span_moved]
    rfl
  | case5 head dot token tokens hdot hend =>
    simp only [List.map_cons, members, Token.kind_moved, if_pos hdot, hend]
    exact ⟨rfl, htokens.behind (by simp [hdot])⟩
  | case6 head dot token tokens hdot hname hend =>
    simp only [List.map_cons, members, Token.kind_moved, if_pos hdot]
    exact ⟨rfl, (htokens.behind (by simp [hdot])).behind hend⟩
  | case7 head dot token tokens hdot =>
    have hdot' : (dot.moved move).kind ≠ .dot := hdot
    rw [List.map_cons, members_of_ne_dot hdot']
    exact ⟨rfl, htokens⟩

theorem relocates_expression : expression.Relocates move (Expr.moved move) expression := by
  refine relocates_nextToken.bind fun token => ?_
  rw [Token.kind_moved]
  cases token.kind with
  | identifier name => exact relocates_members _
  | string | integer | boolean | null => exact Parse.relocates_pure _
  | _ => exact relocates_refuse _ token

theorem relocates_binding {make : Ident → Expr → Span → Stmt}
    (hmake : ∀ name value span, (make name value span).moved move =
      make (name.moved move) (value.moved move) (span.moved move)) (first : Token) :
    (binding make first).Relocates move (Stmt.moved move) (binding make (first.moved move)) := by
  refine relocates_identifier.bind fun name => (relocates_expect _ _).bind fun _ =>
    relocates_expression.bind fun value => (relocates_expect _ _).bind fun last => ?_
  have hplaced := hmake name value ⟨first.start, last.stop⟩
  exact hplaced ▸ Parse.relocates_pure _

theorem relocates_statement : statement.Relocates move (Stmt.moved move) statement := by
  refine relocates_nextToken.bind fun first => ?_
  rw [Token.kind_moved]
  split
  · exact relocates_identifier.bind fun _ => (relocates_expect _ _).bind fun _ =>
      relocates_moduleName.bind fun _ => (relocates_expect _ _).bind fun _ => Parse.relocates_pure _
  · exact relocates_binding (fun _ _ _ => rfl) first
  · exact relocates_binding (fun _ _ _ => rfl) first
  · exact relocates_refuse _ first

theorem relocates_statements : Parse.Relocates move (List.map (Stmt.moved move))
    (fun tokens => statements tokens) (fun tokens => statements tokens) := by
  have hstep : statement.Relocates move (Stmt.moved move) statement := relocates_statement
  intro tokens htokens
  dsimp only
  induction tokens using statements.induct with
  | case1 tokens hend =>
    rw [statements_apply, statements_apply tokens, atEnd_moved, if_pos hend, if_pos hend]
    exact ⟨rfl, htokens⟩
  | case2 tokens hend error rest hstatement =>
    obtain ⟨hmoved, hrest⟩ := hstep tokens htokens
    rw [hstatement] at hmoved hrest
    rw [statements_apply, statements_apply tokens, atEnd_moved, if_neg hend, if_neg hend, hstatement,
      hmoved]
    exact ⟨rfl, hrest⟩
  | case3 tokens hend stmt rest hstatement _ _ _ ih =>
    obtain ⟨hmoved, hrest⟩ := hstep tokens htokens
    rw [hstatement] at hmoved hrest
    obtain ⟨hmore, hlast⟩ := ih hrest
    rw [statements_apply, statements_apply tokens, atEnd_moved, if_neg hend, if_neg hend, hstatement,
      hmoved]
    dsimp only [Except.map, Except.mapError]
    rw [hmore]
    refine ⟨?_, hlast⟩
    rcases (statements rest).1 with error | stmts <;> rfl

end Steps

end Interpose.Script
