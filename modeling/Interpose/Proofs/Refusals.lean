import Interpose.Proofs.Language

set_option autoImplicit false

namespace Interpose.Script

def Accepted (tokens : List Token) : Prop := ∃ program, parse tokens = .ok program

/-- The error is about the next token; about the end of the input where there is none. -/
def ParseError.Names (error : ParseError) (next : Option Token) : Prop :=
  ∃ expected, error = .unexpectedToken expected ((next.map Token.kind).getD .endOfInput)
    ((next.map Token.start).getD .nowhere)

/-- What may stand in the place of tokens that a step has left: no property is read from it, or what
is next is the same. -/
def Replaces (rest' rest : List Token) : Prop := rest'.head? = rest.head? ∨ NoDot rest'

/-- The step refuses the next of the tokens behind, whatever follows it, and could have gone on
without it. -/
structure Parse.Refuses {α : Type} (step : Parse α) (before behind : List Token)
    (error : ParseError) : Prop where
  names : error.Names behind.head?
  always : ∀ behind' : List Token, behind'.head? = behind.head? →
    ∃ rest, step (before ++ behind') = (.error error, rest)
  goes_on : ∃ more value, step.Yields (before ++ more) value []

/-- A step that refuses tokens as soon as it cannot take them, and takes no more of them than it
needs. -/
structure Parse.Viable {α : Type} (step : Parse α) : Prop where
  steady : ∀ {tokens value rest}, step.Yields tokens value rest → ∃ taken, tokens = taken ++ rest ∧
    ∀ rest', Replaces rest' rest → step.Yields (taken ++ rest') value rest'
  finishes : ∃ tokens value, NoDot tokens ∧ step.Yields tokens value []
  prompt : ∀ {tokens error rest}, step tokens = (.error error, rest) →
    ∃ before behind, tokens = before ++ behind ∧ step.Refuses before behind error

section Replaces

variable {rest rest' : List Token}

theorem noDot_nil : NoDot [] := fun _ h => nomatch h

theorem NoDot.append (front : List Token) (hfront : NoDot front) (h : NoDot rest) :
    NoDot (front ++ rest) := by
  cases front with
  | nil => exact h
  | cons token front => exact hfront

theorem head?_append_congr (front : List Token) (h : rest'.head? = rest.head?) :
    (front ++ rest').head? = (front ++ rest).head? := by
  rw [List.head?_append, List.head?_append, h]

theorem Replaces.append (front : List Token) (h : Replaces rest' rest) :
    Replaces (front ++ rest') (front ++ rest) := by
  cases front with
  | nil => exact h
  | cons token front => exact .inl rfl

theorem atEnd_congr (h : rest'.head? = rest.head?) : atEnd rest' = atEnd rest := by
  rcases rest with _ | ⟨token, rest⟩ <;> rcases rest' with _ | ⟨token', rest'⟩ <;> cases h
  · rfl
  · rfl

end Replaces

section Steps

variable {α β : Type} {step : Parse α} {next : α → Parse β} {before behind : List Token}
  {error : ParseError}

theorem Parse.Viable.yields_append (h : step.Viable) {tokens : List Token} {value : α}
    (hyields : step.Yields tokens value []) {rest : List Token} (hrest : NoDot rest) :
    step.Yields (tokens ++ rest) value rest := by
  obtain ⟨taken, htokens, htaken⟩ := h.steady hyields
  obtain rfl : tokens = taken := htokens.trans (List.append_nil taken)
  exact htaken rest (.inr hrest)

theorem Parse.refuses_first (hnames : error.Names behind.head?)
    (halways : ∀ behind' : List Token, behind'.head? = behind.head? →
      ∃ rest, step behind' = (.error error, rest))
    (hfinishes : ∃ tokens value, NoDot tokens ∧ step.Yields tokens value []) :
    step.Refuses [] behind error := by
  obtain ⟨tokens, value, _, hyields⟩ := hfinishes
  exact ⟨hnames, halways, tokens, value, hyields⟩

/-- A step that goes on as another one behind some tokens refuses what that one does. -/
theorem Parse.Refuses.after {other : Parse α} (h : other.Refuses before behind error)
    (front : List Token) (hstep : ∀ tokens, step (front ++ tokens) = other tokens) :
    step.Refuses (front ++ before) behind error := by
  refine ⟨h.names, fun behind' hbehind' => ?_, ?_⟩
  · rw [List.append_assoc, hstep]
    exact h.always behind' hbehind'
  · obtain ⟨more, value, hmore⟩ := h.goes_on
    refine ⟨more, value, ?_⟩
    rw [Yields, List.append_assoc, hstep]
    exact hmore

theorem Parse.Refuses.then_ (h : step.Refuses before behind error) (first : step.Viable)
    (hnext : ∀ middle, ∃ tokens value, NoDot tokens ∧ (next middle).Yields tokens value []) :
    (step >>= next).Refuses before behind error := by
  refine ⟨h.names, fun behind' hbehind' => ?_, ?_⟩
  · obtain ⟨rest, hstep⟩ := h.always behind' hbehind'
    exact ⟨rest, by rw [bind_apply, hstep]⟩
  · obtain ⟨more, middle, hmore⟩ := h.goes_on
    obtain ⟨tokens, value, hdot, hnext⟩ := hnext middle
    refine ⟨more ++ tokens, value, ?_⟩
    rw [← List.append_assoc]
    exact bind_yields.mpr ⟨middle, tokens, first.yields_append hmore hdot, hnext⟩

theorem Parse.Refuses.bind {taken : List Token} {middle : α}
    (h : (next middle).Refuses before behind error) (hviable : (next middle).Viable)
    (hfirst : ∀ rest, Replaces rest (before ++ behind) → step.Yields (taken ++ rest) middle rest) :
    (step >>= next).Refuses (taken ++ before) behind error := by
  refine ⟨h.names, fun behind' hbehind' => ?_, ?_⟩
  · obtain ⟨rest, hnext⟩ := h.always behind' hbehind'
    have hstep := hfirst (before ++ behind') (.inl (head?_append_congr before hbehind'))
    refine ⟨rest, ?_⟩
    rw [List.append_assoc, bind_apply, hstep]
    exact hnext
  · cases before with
    | nil =>
      -- what may follow is then up to the second step
      obtain ⟨tokens, value, hdot, hnext⟩ := hviable.finishes
      refine ⟨tokens, value, ?_⟩
      rw [List.append_nil]
      exact bind_yields.mpr ⟨middle, tokens, hfirst _ (.inr hdot), hnext⟩
    | cons token before =>
      obtain ⟨more, value, hnext⟩ := h.goes_on
      refine ⟨more, value, ?_⟩
      rw [List.append_assoc]
      exact bind_yields.mpr ⟨middle, _, hfirst _ (.inl rfl), hnext⟩

theorem Parse.Viable.bind (first : step.Viable) (then_ : ∀ value, (next value).Viable) :
    (step >>= next).Viable := by
  refine ⟨?_, ?_, ?_⟩
  · intro tokens value rest h
    obtain ⟨middle, _, hfirst, hnext⟩ := bind_yields.mp h
    obtain ⟨taken, rfl, htaken⟩ := first.steady hfirst
    obtain ⟨taken', rfl, htaken'⟩ := (then_ middle).steady hnext
    refine ⟨taken ++ taken', (List.append_assoc ..).symm, fun rest' hrest' => ?_⟩
    rw [List.append_assoc]
    exact bind_yields.mpr ⟨middle, _, htaken _ (hrest'.append taken'), htaken' rest' hrest'⟩
  · obtain ⟨tokens, middle, hdot, hfirst⟩ := first.finishes
    obtain ⟨tokens', value, hdot', hnext⟩ := (then_ middle).finishes
    exact ⟨tokens ++ tokens', value, hdot.append tokens hdot',
      bind_yields.mpr ⟨middle, tokens', first.yields_append hfirst hdot', hnext⟩⟩
  · intro tokens error rest h
    rw [bind_apply] at h
    rcases hfirst : step tokens with ⟨cause | middle, behind⟩ <;> rw [hfirst] at h
    · cases h
      obtain ⟨before, behind, rfl, hrefuses⟩ := first.prompt hfirst
      exact ⟨before, behind, rfl, hrefuses.then_ first fun middle => (then_ middle).finishes⟩
    · obtain ⟨taken, rfl, htaken⟩ := first.steady hfirst
      obtain ⟨before, behind, rfl, hrefuses⟩ := (then_ middle).prompt h
      exact ⟨taken ++ before, behind, (List.append_assoc ..).symm,
        hrefuses.bind (then_ middle) htaken⟩

theorem Parse.viable_pure (value : α) : (pure value : Parse α).Viable := by
  refine ⟨?_, ⟨[], value, noDot_nil, rfl⟩, ?_⟩
  · intro tokens value rest h
    obtain ⟨rfl, rfl⟩ := pure_yields.mp h
    exact ⟨[], rfl, fun rest' _ => rfl⟩
  · rintro tokens error rest ⟨⟩

theorem viable_nextToken {next : Token → Parse β}
    (hnext : ∀ token, (next token).Viable ∨ ∃ expected, next token = refuse expected token)
    (hsome : ∃ token : Token, token.kind ≠ .endOfInput ∧ token.kind ≠ .dot ∧ (next token).Viable) :
    (nextToken >>= next).Viable := by
  have hfinishes : ∃ tokens value, NoDot tokens ∧ (nextToken >>= next).Yields tokens value [] := by
    obtain ⟨token, hend, hdot, hviable⟩ := hsome
    obtain ⟨tokens, value, _, hyields⟩ := hviable.finishes
    refine ⟨token :: tokens, value, ?_,
      Parse.bind_yields.mpr ⟨token, tokens, nextToken_of_kind hend, hyields⟩⟩
    rintro _ ⟨⟩
    exact hdot
  have htoken : ∀ {token : Token}, token.kind ≠ .endOfInput → ∀ behind,
      (nextToken >>= next) (token :: behind) = next token behind := by
    intro token hend behind
    rw [Parse.bind_apply, nextToken_of_kind hend]
  refine ⟨?_, hfinishes, ?_⟩
  · intro tokens value rest h
    obtain ⟨token, middle, hfirst, hyields⟩ := Parse.bind_yields.mp h
    obtain ⟨hend, rfl⟩ := nextToken_yields.mp hfirst
    rcases hnext token with hviable | ⟨expected, hrefuse⟩
    · obtain ⟨taken, rfl, htaken⟩ := hviable.steady hyields
      exact ⟨token :: taken, rfl, fun rest' hrest' => (htoken hend _).trans (htaken rest' hrest')⟩
    · rw [hrefuse] at hyields
      exact absurd hyields refuse_yields
  · intro tokens error rest h
    rcases tokens with _ | ⟨token, tokens⟩
    · cases h
      refine ⟨[], [], rfl, Parse.refuses_first ⟨.moreInput, rfl⟩ (fun behind hbehind => ?_) hfinishes⟩
      rw [List.head?_eq_none_iff.mp hbehind]
      exact ⟨[], rfl⟩
    by_cases hend : token.kind = .endOfInput
    · have hmark : ∀ behind, (nextToken >>= next) (token :: behind) =
          (.error (.unexpectedToken .moreInput .endOfInput token.start), token :: behind) := by
        intro behind
        simp only [Parse.bind_apply, nextToken, if_pos hend]
      rw [hmark] at h
      cases h
      refine ⟨[], token :: tokens, rfl,
        Parse.refuses_first ⟨.moreInput, by simp [hend]⟩ (fun behind hbehind => ?_) hfinishes⟩
      obtain ⟨behind, rfl⟩ := List.head?_eq_some_iff.mp hbehind
      exact ⟨_, hmark behind⟩
    rw [htoken hend] at h
    rcases hnext token with hviable | ⟨expected, hrefuse⟩
    · obtain ⟨before, behind, rfl, hrefuses⟩ := hviable.prompt h
      exact ⟨token :: before, behind, rfl, hrefuses.after [token] (htoken hend)⟩
    · rw [hrefuse] at h
      cases h
      refine ⟨[], _, rfl, Parse.refuses_first ⟨expected, rfl⟩ (fun behind hbehind => ?_) hfinishes⟩
      obtain ⟨behind, rfl⟩ := List.head?_eq_some_iff.mp hbehind
      refine ⟨behind, ?_⟩
      rw [htoken hend, hrefuse]
      rfl

end Steps

section Grammar

/-- A token of a kind, for rows of tokens that no text has. -/
def TokenKind.token (kind : TokenKind) : Token := ⟨kind, ⟨.start, .start⟩⟩

theorem viable_expect {kind : TokenKind} (hend : kind ≠ .endOfInput) (hdot : kind ≠ .dot)
    (expected : Expectation) : (expect kind expected).Viable := by
  refine viable_nextToken (fun token => ?_) ⟨kind.token, hend, hdot, ?_⟩
  · split
    · exact .inl (Parse.viable_pure _)
    · exact .inr ⟨_, rfl⟩
  · rw [if_pos (show kind.token.kind = kind from rfl)]
    exact Parse.viable_pure _

theorem viable_identifier : identifier.Viable := by
  refine viable_nextToken (fun token => ?_)
    ⟨(TokenKind.identifier "").token, nofun, nofun, Parse.viable_pure _⟩
  split
  · exact .inl (Parse.viable_pure _)
  · exact .inr ⟨_, rfl⟩

theorem viable_moduleName : moduleName.Viable := by
  refine viable_nextToken (fun token => ?_)
    ⟨(TokenKind.string "").token, nofun, nofun, Parse.viable_pure _⟩
  split
  · exact .inl (Parse.viable_pure _)
  · exact .inr ⟨_, rfl⟩

theorem members_noDot {head value : Expr} {tokens rest : List Token}
    (h : members head tokens = (.ok value, rest)) : NoDot rest := by
  fun_induction members head tokens with
  | case1 =>
    cases h
    exact noDot_nil
  | case2 => cases h
  | case3 head dot hdot =>
    cases h
    rintro _ ⟨⟩
    exact hdot
  | case4 head dot token behind hdot name hname ih => exact ih h
  | case5 => cases h
  | case6 => cases h
  | case7 head dot token behind hdot =>
    cases h
    rintro _ ⟨⟩
    exact hdot

def membersBehind (head : Expr) (name : Ident) : Parse Expr := fun tokens =>
  members (.member head name ⟨head.span.start, name.span.stop⟩) tokens

theorem members_dot (head : Expr) {dot : Token} (hdot : dot.kind = .dot) (tokens : List Token) :
    members head (dot :: tokens) = (identifier >>= membersBehind head) tokens := by
  rw [Parse.bind_apply, identifier, Parse.bind_apply]
  rcases tokens with _ | ⟨token, tokens⟩
  · simp only [members, if_pos hdot, nextToken]
  · obtain ⟨kind, span⟩ := token
    simp only [members, if_pos hdot]
    cases kind <;> rfl

theorem members_refuse (head : Expr) {dot : Token} (hdot : dot.kind = .dot) {tokens rest : List Token}
    {error : ParseError} (h : identifier tokens = (.error error, rest)) :
    ∃ before behind, dot :: tokens = before ++ behind ∧
      Parse.Refuses (fun tokens => members head tokens : Parse Expr) before behind error := by
  obtain ⟨before, behind, rfl, hrefuses⟩ := viable_identifier.prompt h
  have hproperty : (identifier >>= membersBehind head).Refuses before behind error :=
    hrefuses.then_ viable_identifier fun name => ⟨[], _, noDot_nil, rfl⟩
  exact ⟨dot :: before, behind, rfl, hproperty.after [dot] (members_dot head hdot)⟩

theorem members_prompt {head : Expr} {tokens rest : List Token} {error : ParseError}
    (h : members head tokens = (.error error, rest)) : ∃ before behind, tokens = before ++ behind ∧
      Parse.Refuses (fun tokens => members head tokens : Parse Expr) before behind error := by
  fun_induction members head tokens with
  | case1 => cases h
  | case2 head dot hdot =>
    have hname : identifier [] = (.error (.unexpectedToken .moreInput .endOfInput .nowhere), []) := rfl
    cases h
    exact members_refuse head hdot hname
  | case3 => cases h
  | case4 head dot token tokens hdot name hname ih =>
    obtain ⟨before, behind, rfl, hrefuses⟩ := ih h
    refine ⟨dot :: token :: before, behind, rfl, hrefuses.after [dot, token] fun tokens => ?_⟩
    simp only [List.cons_append, List.nil_append, members, if_pos hdot, hname]
  | case5 head dot token tokens hdot hend =>
    have hname : identifier (token :: tokens) =
        (.error (.unexpectedToken .moreInput .endOfInput token.start), token :: tokens) := by
      rw [identifier, Parse.bind_apply]
      simp only [nextToken, if_pos hend]
    cases h
    exact members_refuse head hdot hname
  | case6 head dot token tokens hdot hother hend =>
    have hname : identifier (token :: tokens) =
        (.error (.unexpectedToken .identifier token.kind token.start), tokens) := by
      rw [identifier, Parse.bind_apply, nextToken_of_kind hend]
      obtain ⟨kind, span⟩ := token
      cases kind with
      | identifier name => exact absurd rfl (hother name)
      | _ => rfl
    cases h
    exact members_refuse head hdot hname
  | case7 => cases h

theorem viable_members (head : Expr) :
    Parse.Viable (fun tokens => members head tokens : Parse Expr) := by
  refine ⟨?_, ⟨[], head, noDot_nil, rfl⟩, members_prompt⟩
  intro tokens value rest h
  obtain ⟨taken, htaken, rfl⟩ := members_sound h
  refine ⟨taken, rfl, fun rest' hrest' => members_complete htaken ?_⟩
  rcases hrest' with hhead | hdot
  · unfold NoDot
    rw [hhead]
    exact members_noDot h
  · exact hdot

theorem viable_expression : expression.Viable := by
  refine viable_nextToken (fun token => ?_) ⟨TokenKind.null.token, nofun, nofun, Parse.viable_pure _⟩
  cases token.kind with
  | identifier name => exact .inl (viable_members _)
  | string | integer | boolean | null => exact .inl (Parse.viable_pure _)
  | _ => exact .inr ⟨_, rfl⟩

theorem viable_binding (make : Ident → Expr → Span → Stmt) (first : Token) :
    (binding make first).Viable :=
  viable_identifier.bind fun _ => (viable_expect (by simp) (by simp) _).bind fun _ =>
    viable_expression.bind fun _ => (viable_expect (by simp) (by simp) _).bind fun _ => Parse.viable_pure _

theorem viable_statement : statement.Viable := by
  refine viable_nextToken (fun first => ?_) ⟨TokenKind.letWord.token, nofun, nofun, viable_binding _ _⟩
  split
  · exact .inl <| viable_identifier.bind fun _ => (viable_expect (by simp) (by simp) _).bind fun _ =>
      viable_moduleName.bind fun _ => (viable_expect (by simp) (by simp) _).bind fun _ => Parse.viable_pure _
  · exact .inl (viable_binding _ _)
  · exact .inl (viable_binding _ _)
  · exact .inr ⟨_, rfl⟩

end Grammar

section Programs

theorem statements_refuse {tokens rest : List Token} {error : ParseError}
    (h : statements tokens = (.error error, rest)) : ∃ before behind, tokens = before ++ behind ∧
      Parse.Refuses (fun tokens => statements tokens : Parse (List Stmt)) before behind error := by
  induction tokens using statements.induct generalizing rest with
  | case1 tokens hend =>
    rw [statements_apply, if_pos hend] at h
    cases h
  | case2 tokens hend cause behind hstatement =>
    rw [statements_apply, if_neg hend, hstatement] at h
    cases h
    obtain ⟨before, behind, rfl, hrefuses⟩ := viable_statement.prompt hstatement
    refine ⟨before, behind, rfl, hrefuses.names, fun behind' hbehind' => ?_, ?_⟩
    · obtain ⟨rest, hstep⟩ := hrefuses.always behind' hbehind'
      refine ⟨rest, ?_⟩
      rw [statements_apply, atEnd_congr (head?_append_congr before hbehind'), if_neg hend, hstep]
    · obtain ⟨more, stmt, hmore⟩ := hrefuses.goes_on
      obtain ⟨taken, htaken, hall⟩ := statement_yields.mp hmore
      obtain rfl : before ++ more = taken := hall.trans (List.append_nil taken)
      refine ⟨more, [stmt], statements_iff.mpr ⟨_, .next htaken .done, ?_, rfl⟩⟩
      rw [List.append_nil, List.append_nil]
  | case3 tokens hend stmt behind hstatement _ _ _ ih =>
    rw [statements_apply, if_neg hend, hstatement] at h
    obtain ⟨taken, htaken, rfl⟩ := statement_yields.mp hstatement
    dsimp only at h
    rcases hbehind : statements behind with ⟨cause | stmts, last⟩ <;> rw [hbehind] at h <;> cases h
    obtain ⟨before, behind, rfl, hrefuses⟩ := ih hbehind
    refine ⟨taken ++ before, behind, (List.append_assoc ..).symm, hrefuses.names,
      fun behind' hbehind' => ?_, ?_⟩
    · obtain ⟨rest, hstep⟩ := hrefuses.always behind' hbehind'
      refine ⟨rest, ?_⟩
      rw [List.append_assoc, htaken.statements_append, hstep]
      rfl
    · obtain ⟨more, stmts, hmore⟩ := hrefuses.goes_on
      have hmore : statements (before ++ more) = (.ok stmts, []) := hmore
      refine ⟨more, stmt :: stmts, ?_⟩
      rw [Parse.Yields, List.append_assoc, htaken.statements_append, hmore]
      rfl

theorem parse_error_iff {tokens : List Token} {error : ParseError} :
    parse tokens = .error error ↔ ∃ rest, statements tokens = (.error error, rest) := by
  unfold parse parseProgram
  rcases statements tokens with ⟨cause | stmts, rest⟩
  · constructor
    · rintro ⟨⟩
      exact ⟨rest, rfl⟩
    · rintro ⟨_, ⟨⟩⟩
      rfl
  · constructor
    · rintro ⟨⟩
    · rintro ⟨_, ⟨⟩⟩

theorem accepted_endOfInput {before : List Token} {last : Token} (hlast : last.kind = .endOfInput)
    (h : Accepted before) : Accepted (before ++ [last]) := by
  obtain ⟨program, hprogram⟩ := h
  obtain ⟨hstatements, _⟩ := parse_beforeEnd_iff.mp hprogram
  have hbefore : beforeEnd (before ++ [last]) = beforeEnd before := by
    unfold beforeEnd
    rw [List.takeWhile_append]
    split
    next hall =>
      rw [(List.takeWhile_prefix _).eq_of_length hall]
      simp [hlast]
    next => rfl
  exact ⟨⟨program.statements, _⟩, parse_beforeEnd_iff.mpr ⟨hbefore ▸ hstatements, rfl⟩⟩

/-- An error is about the first token that no accepted row of tokens has at its place: the tokens
before it are the beginning of one. Where it is about the end of the input, these are not accepted
as they stand. -/
theorem refused_at_first {tokens : List Token} {error : ParseError} (h : parse tokens = .error error) :
    ∃ before behind, tokens = before ++ behind ∧ error.Names behind.head? ∧
      (∃ more, Accepted (before ++ more)) ∧
      (∀ token ∈ behind.head?, ∀ more, ¬ Accepted (before ++ token :: more)) ∧
      ((∀ token ∈ behind.head?, token.kind = .endOfInput) → ¬ Accepted before) := by
  obtain ⟨rest, hstatements⟩ := parse_error_iff.mp h
  obtain ⟨before, behind, rfl, hrefuses⟩ := statements_refuse hstatements
  have hnever : ∀ behind', behind'.head? = behind.head? → ¬ Accepted (before ++ behind') := by
    rintro behind' hbehind' ⟨program, hprogram⟩
    rw [parse_error_iff.mpr (hrefuses.always behind' hbehind')] at hprogram
    cases hprogram
  refine ⟨before, behind, rfl, hrefuses.names, ?_, ?_, ?_⟩
  · obtain ⟨more, stmts, hmore⟩ := hrefuses.goes_on
    obtain ⟨taken, htaken, hall, hend⟩ := statements_iff.mp hmore
    exact ⟨more, ⟨stmts, _⟩, parse_iff.mpr ⟨taken, [], htaken, hall, hend, rfl⟩⟩
  · intro token htoken more
    exact hnever (token :: more) htoken.symm
  · intro hend haccepted
    rcases behind with _ | ⟨last, behind⟩
    · exact hnever [] rfl (by rwa [List.append_nil])
    · exact hnever [last] rfl (accepted_endOfInput (hend last rfl) haccepted)

def dottedNumber : List Token :=
  [⟨.letWord, ⟨⟨1, 1, 0⟩, ⟨1, 4, 3⟩⟩⟩, ⟨.identifier "a", ⟨⟨1, 5, 4⟩, ⟨1, 6, 5⟩⟩⟩,
    ⟨.equal, ⟨⟨1, 7, 6⟩, ⟨1, 8, 7⟩⟩⟩, ⟨.integer 1, ⟨⟨1, 9, 8⟩, ⟨1, 10, 9⟩⟩⟩,
    ⟨.semicolon, ⟨⟨1, 10, 9⟩, ⟨1, 11, 10⟩⟩⟩, ⟨.letWord, ⟨⟨1, 12, 11⟩, ⟨1, 15, 14⟩⟩⟩,
    ⟨.identifier "b", ⟨⟨1, 16, 15⟩, ⟨1, 17, 16⟩⟩⟩, ⟨.equal, ⟨⟨1, 18, 17⟩, ⟨1, 19, 18⟩⟩⟩,
    ⟨.identifier "a", ⟨⟨1, 20, 19⟩, ⟨1, 21, 20⟩⟩⟩, ⟨.dot, ⟨⟨1, 21, 20⟩, ⟨1, 22, 21⟩⟩⟩,
    ⟨.integer 5, ⟨⟨1, 22, 21⟩, ⟨1, 23, 22⟩⟩⟩, ⟨.semicolon, ⟨⟨1, 23, 22⟩, ⟨1, 24, 23⟩⟩⟩,
    ⟨.endOfInput, ⟨⟨1, 24, 23⟩, ⟨1, 24, 23⟩⟩⟩]

theorem refused_at_first_dottedNumber :
    parse dottedNumber = .error (.unexpectedToken .identifier (.integer 5) ⟨1, 22, 21⟩) ∧
      (∃ more, Accepted (dottedNumber.take 10 ++ more)) ∧
      ∀ more, ¬ Accepted (dottedNumber.take 10 ++ dottedNumber[10] :: more) := by
  have hstmt : Stmt.ReadFrom (dottedNumber.take 5) _ :=
    .binding .binds rfl rfl (.literal rfl) rfl
  have hbehind : statements (dottedNumber.drop 5) =
      (.error (.unexpectedToken .identifier (.integer 5) ⟨1, 22, 21⟩), dottedNumber.drop 11) := by
    rw [statements_apply]
    rfl
  have herror : parse dottedNumber =
      .error (.unexpectedToken .identifier (.integer 5) ⟨1, 22, 21⟩) := by
    refine parse_error_iff.mpr ⟨dottedNumber.drop 11, ?_⟩
    have hread := hstmt.statements_append (dottedNumber.drop 5)
    rwa [hbehind] at hread
  obtain ⟨before, behind, hall, ⟨expected, hnames⟩, hviable, hnever, _⟩ := refused_at_first herror
  -- the place in the error is that of one token only
  have honly : ∀ n ≤ dottedNumber.length,
      ((dottedNumber.drop n).head?.map Token.start).getD .nowhere = ⟨1, 22, 21⟩ → n = 10 := by decide
  have hlength : before.length ≤ dottedNumber.length := by simp [hall]
  have hplace : before.length = 10 := by
    refine honly before.length hlength ?_
    rw [hall, List.drop_left]
    exact (congrArg ParseError.position hnames).symm
  have hbefore : dottedNumber.take 10 = before := by rw [hall, ← hplace, List.take_left]
  have hbehind : dottedNumber.drop 10 = behind := by rw [hall, ← hplace, List.drop_left]
  rw [← hbefore] at hviable hnever
  rw [← hbehind] at hnever
  exact ⟨herror, hviable, hnever dottedNumber[10] rfl⟩

end Programs

end Interpose.Script
