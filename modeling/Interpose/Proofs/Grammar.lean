import Interpose.Script.Parser
import Interpose.Proofs.Lexemes

set_option autoImplicit false

namespace Interpose.Script

def TokenKind.ofLiteral : Literal → TokenKind
  | .string value => string value
  | .integer value => integer value
  | .boolean value => boolean value
  | .null => null

def TokenKind.literal? : TokenKind → Option Literal
  | string value => some (.string value)
  | integer value => some (.integer value)
  | boolean value => some (.boolean value)
  | null => some .null
  | _ => none

/-- Tokens behind an expression that read properties of it. -/
inductive Expr.Continues : Expr → List Token → Expr → Prop where
  | stop {head : Expr} : Continues head [] head
  | property {head value : Expr} {dot token : Token} {behind : List Token} {name : String}
      (hdot : dot.kind = .dot) (hname : token.kind = .identifier name)
      (hbehind : Continues (.member head ⟨name, token.span⟩ ⟨head.span.start, token.stop⟩) behind
        value) :
      Continues head (dot :: token :: behind) value

inductive Expr.ReadFrom : List Token → Expr → Prop where
  | literal {token : Token} {value : Literal} (hvalue : token.kind.literal? = some value) :
      ReadFrom [token] (.literal value token.span)
  | chain {token : Token} {behind : List Token} {name : String} {value : Expr}
      (hname : token.kind = .identifier name)
      (hbehind : Continues (.identifier ⟨name, token.span⟩) behind value) :
      ReadFrom (token :: behind) value

inductive BindingWord : TokenKind → (Ident → Expr → Span → Stmt) → Prop where
  | binds : BindingWord .letWord .binds
  | exports : BindingWord .exportWord .exports

inductive Stmt.ReadFrom : List Token → Stmt → Prop where
  | imports {first name between source last : Token} {text value : String}
      (hfirst : first.kind = .importWord) (hname : name.kind = .identifier text)
      (hbetween : between.kind = .fromWord) (hsource : source.kind = .string value)
      (hlast : last.kind = .semicolon) :
      ReadFrom [first, name, between, source, last]
        (.imports ⟨text, name.span⟩ ⟨value, source.span⟩ ⟨first.start, last.stop⟩)
  | binding {first name between last : Token} {make : Ident → Expr → Span → Stmt} {text : String}
      {tokens : List Token} {value : Expr} (hfirst : BindingWord first.kind make)
      (hname : name.kind = .identifier text) (hbetween : between.kind = .equal)
      (hvalue : Expr.ReadFrom tokens value) (hlast : last.kind = .semicolon) :
      ReadFrom (first :: name :: between :: (tokens ++ [last]))
        (make ⟨text, name.span⟩ value ⟨first.start, last.stop⟩)

inductive StatementsFrom : List Token → List Stmt → Prop where
  | done : StatementsFrom [] []
  | next {tokens behind : List Token} {stmt : Stmt} {stmts : List Stmt}
      (first : Stmt.ReadFrom tokens stmt) (then_ : StatementsFrom behind stmts) :
      StatementsFrom (tokens ++ behind) (stmt :: stmts)

def Parse.Yields {α : Type} (step : Parse α) (tokens : List Token) (value : α)
    (rest : List Token) : Prop :=
  step tokens = (.ok value, rest)

section NoEnd

variable {tokens : List Token}

theorem Expr.Continues.ne_end {head value : Expr} (h : head.Continues tokens value) :
    ∀ token ∈ tokens, token.kind ≠ .endOfInput := by
  induction h with
  | stop => simp
  | property hdot hname _ ih => simpa [hdot, hname] using ih

theorem Expr.ReadFrom.ne_end {value : Expr} (h : Expr.ReadFrom tokens value) :
    ∀ token ∈ tokens, token.kind ≠ .endOfInput := by
  cases h with
  | literal hvalue =>
    rintro token htoken hend
    rw [List.mem_singleton] at htoken
    subst htoken
    rw [hend] at hvalue
    cases hvalue
  | chain hname hbehind => simpa [hname] using hbehind.ne_end

theorem Stmt.ReadFrom.ne_end {stmt : Stmt} (h : Stmt.ReadFrom tokens stmt) :
    ∀ token ∈ tokens, token.kind ≠ .endOfInput := by
  cases h with
  | imports hfirst hname hbetween hsource hlast =>
    simp [hfirst, hname, hbetween, hsource, hlast]
  | @binding first name between last make text behind value hfirst hname hbetween hvalue hlast =>
    have hword : first.kind ≠ .endOfInput := by
      intro hend
      rw [hend] at hfirst
      cases hfirst
    intro token htoken
    simp only [List.mem_cons, List.mem_append, List.not_mem_nil, or_false] at htoken
    rcases htoken with rfl | rfl | rfl | htoken | rfl
    · exact hword
    · simp [hname]
    · simp [hbetween]
    · exact hvalue.ne_end token htoken
    · simp [hlast]

theorem StatementsFrom.ne_end {stmts : List Stmt} (h : StatementsFrom tokens stmts) :
    ∀ token ∈ tokens, token.kind ≠ .endOfInput := by
  induction h with
  | done => simp
  | next first then_ ih =>
    intro token htoken
    rcases List.mem_append.mp htoken with htoken | htoken
    · exact first.ne_end token htoken
    · exact ih token htoken

end NoEnd

section Steps

variable {α β : Type} {tokens rest : List Token}

theorem Parse.bind_yields {step : Parse α} {next : α → Parse β} {value : β} :
    (step >>= next).Yields tokens value rest ↔
      ∃ first middle, step.Yields tokens first middle ∧ (next first).Yields middle value rest := by
  unfold Yields
  rw [bind_apply]
  constructor
  · intro h
    rcases hstep : step tokens with ⟨error | first, middle⟩
    all_goals rw [hstep] at h
    · cases h
    · exact ⟨first, middle, rfl, h⟩
  · rintro ⟨first, middle, hstep, h⟩
    rw [hstep]
    exact h

theorem Parse.pure_yields {given value : α} :
    (pure given : Parse α).Yields tokens value rest ↔ given = value ∧ tokens = rest := by
  constructor
  · rintro ⟨⟩
    exact ⟨rfl, rfl⟩
  · rintro ⟨rfl, rfl⟩
    rfl

theorem refuse_yields {expected : Expectation} {token : Token} {value : α} :
    ¬ (refuse expected token : Parse α).Yields tokens value rest :=
  fun h => nomatch congrArg Prod.fst h

theorem nextToken_yields {token : Token} : nextToken.Yields tokens token rest ↔
    token.kind ≠ .endOfInput ∧ tokens = token :: rest := by
  unfold Parse.Yields
  constructor
  · intro h
    rcases tokens with _ | ⟨first, behind⟩
    · cases h
    · unfold nextToken at h
      dsimp only at h
      split at h
      next => cases h
      next hend =>
        cases h
        exact ⟨hend, rfl⟩
  · rintro ⟨hend, rfl⟩
    unfold nextToken
    dsimp only
    rw [if_neg hend]

theorem nextToken_of_kind {token : Token} (hend : token.kind ≠ .endOfInput) :
    nextToken (token :: rest) = (.ok token, rest) :=
  nextToken_yields.mpr ⟨hend, rfl⟩

theorem expect_yields (kind : TokenKind) (hkind : kind ≠ .endOfInput) {expected : Expectation}
    {token : Token} : (expect kind expected).Yields tokens token rest ↔
      token.kind = kind ∧ tokens = token :: rest := by
  unfold expect
  rw [Parse.bind_yields]
  constructor
  · rintro ⟨first, middle, hnext, h⟩
    obtain ⟨_, rfl⟩ := nextToken_yields.mp hnext
    split at h
    next hfirst =>
      obtain ⟨rfl, rfl⟩ := Parse.pure_yields.mp h
      exact ⟨hfirst, rfl⟩
    next => exact absurd h refuse_yields
  · rintro ⟨rfl, rfl⟩
    refine ⟨token, rest, nextToken_yields.mpr ⟨hkind, rfl⟩, ?_⟩
    rw [if_pos rfl]
    rfl

theorem identifier_yields {name : Ident} : identifier.Yields tokens name rest ↔
    ∃ token text, token.kind = .identifier text ∧ name = ⟨text, token.span⟩ ∧
      tokens = token :: rest := by
  unfold identifier
  rw [Parse.bind_yields]
  constructor
  · rintro ⟨token, middle, hnext, h⟩
    obtain ⟨_, rfl⟩ := nextToken_yields.mp hnext
    split at h
    next text htoken =>
      obtain ⟨rfl, rfl⟩ := Parse.pure_yields.mp h
      exact ⟨token, text, htoken, rfl, rfl⟩
    next => exact absurd h refuse_yields
  · rintro ⟨token, text, htoken, rfl, rfl⟩
    refine ⟨token, rest, nextToken_yields.mpr ⟨by simp [htoken], rfl⟩, ?_⟩
    rw [htoken]
    rfl

theorem moduleName_yields {source : ModuleName} : moduleName.Yields tokens source rest ↔
    ∃ token value, token.kind = .string value ∧ source = ⟨value, token.span⟩ ∧
      tokens = token :: rest := by
  unfold moduleName
  rw [Parse.bind_yields]
  constructor
  · rintro ⟨token, middle, hnext, h⟩
    obtain ⟨_, rfl⟩ := nextToken_yields.mp hnext
    split at h
    next value htoken =>
      obtain ⟨rfl, rfl⟩ := Parse.pure_yields.mp h
      exact ⟨token, value, htoken, rfl, rfl⟩
    next => exact absurd h refuse_yields
  · rintro ⟨token, value, htoken, rfl, rfl⟩
    refine ⟨token, rest, nextToken_yields.mpr ⟨by simp [htoken], rfl⟩, ?_⟩
    rw [htoken]
    rfl

end Steps

section Expressions

variable {tokens rest : List Token} {value : Expr}

def NoDot (rest : List Token) : Prop := ∀ token ∈ rest.head?, token.kind ≠ .dot

theorem members_sound {head : Expr} (h : members head tokens = (.ok value, rest)) :
    ∃ taken, Expr.Continues head taken value ∧ tokens = taken ++ rest := by
  fun_induction members head tokens with
  | case1 head =>
    cases h
    exact ⟨[], .stop, rfl⟩
  | case2 => cases h
  | case3 head dot =>
    cases h
    exact ⟨[], .stop, rfl⟩
  | case4 head dot token behind hdot name hname ih =>
    obtain ⟨taken, htaken, rfl⟩ := ih h
    exact ⟨dot :: token :: taken, .property hdot hname htaken, rfl⟩
  | case5 => cases h
  | case6 => cases h
  | case7 head dot token behind =>
    cases h
    exact ⟨[], .stop, rfl⟩

theorem members_complete {head : Expr} (h : Expr.Continues head tokens value) (hrest : NoDot rest) :
    members head (tokens ++ rest) = (.ok value, rest) := by
  induction h with
  | @stop head =>
    rcases rest with _ | ⟨dot, _ | ⟨token, behind⟩⟩
    · rfl
    · have hdot : dot.kind ≠ .dot := hrest dot rfl
      simp only [List.nil_append, members, if_neg hdot]
    · have hdot : dot.kind ≠ .dot := hrest dot rfl
      simp only [List.nil_append, members, if_neg hdot]
  | property hdot hname _ ih => simp only [List.cons_append, members, if_pos hdot, hname, ih]

theorem expression_sound (h : expression.Yields tokens value rest) :
    ∃ taken, Expr.ReadFrom taken value ∧ tokens = taken ++ rest := by
  unfold expression at h
  rw [Parse.bind_yields] at h
  obtain ⟨token, middle, hnext, hvalue⟩ := h
  obtain ⟨_, rfl⟩ := nextToken_yields.mp hnext
  cases hkind : token.kind with
  | string _ | integer _ | boolean _ | null =>
    rw [hkind] at hvalue
    obtain ⟨rfl, rfl⟩ := Parse.pure_yields.mp hvalue
    exact ⟨[token], .literal (by rw [hkind]; rfl), rfl⟩
  | identifier name =>
    rw [hkind] at hvalue
    obtain ⟨taken, htaken, rfl⟩ := members_sound hvalue
    exact ⟨token :: taken, .chain hkind htaken, rfl⟩
  | _ =>
    rw [hkind] at hvalue
    exact absurd hvalue refuse_yields

theorem expression_complete (h : Expr.ReadFrom tokens value) (hrest : NoDot rest) :
    expression.Yields (tokens ++ rest) value rest := by
  refine Parse.bind_yields.mpr ?_
  cases h with
  | @literal token value hvalue =>
    obtain ⟨kind, span⟩ := token
    cases kind <;> cases hvalue
    all_goals exact ⟨_, rest, nextToken_yields.mpr ⟨by simp, rfl⟩, rfl⟩
  | @chain token behind name value hname hbehind =>
    refine ⟨token, behind ++ rest, nextToken_yields.mpr ⟨by simp [hname], rfl⟩, ?_⟩
    rw [hname]
    exact members_complete hbehind hrest

end Expressions

section Statements

variable {tokens rest : List Token}

theorem noDot_of_semicolon {last : Token} (h : last.kind = .semicolon) : NoDot (last :: rest) := by
  intro token htoken
  cases htoken
  simp [h]

theorem binding_yields {make : Ident → Expr → Span → Stmt} {first : Token} {stmt : Stmt} :
    (binding make first).Yields tokens stmt rest ↔
      ∃ name between last text behind value, name.kind = .identifier text ∧
        between.kind = .equal ∧ Expr.ReadFrom behind value ∧ last.kind = .semicolon ∧
        stmt = make ⟨text, name.span⟩ value ⟨first.start, last.stop⟩ ∧
        tokens = name :: between :: (behind ++ last :: rest) := by
  unfold binding
  simp only [Parse.bind_yields, Parse.pure_yields, expect_yields .equal (by simp),
    expect_yields .semicolon (by simp), identifier_yields]
  constructor
  · rintro ⟨_, _, ⟨name, text, hname, rfl, rfl⟩, between, _, ⟨hbetween, rfl⟩, value, _, hvalue, last,
      _, ⟨hlast, rfl⟩, rfl, rfl⟩
    obtain ⟨behind, hbehind, rfl⟩ := expression_sound hvalue
    exact ⟨name, between, last, text, behind, value, hname, hbetween, hbehind, hlast, rfl, rfl⟩
  · rintro ⟨name, between, last, text, behind, value, hname, hbetween, hbehind, hlast, rfl, rfl⟩
    exact ⟨_, _, ⟨name, text, hname, rfl, rfl⟩, between, _, ⟨hbetween, rfl⟩, value, _,
      expression_complete hbehind (noDot_of_semicolon hlast), last, _, ⟨hlast, rfl⟩, rfl, rfl⟩

theorem statement_yields {stmt : Stmt} : statement.Yields tokens stmt rest ↔
    ∃ taken, Stmt.ReadFrom taken stmt ∧ tokens = taken ++ rest := by
  unfold statement
  rw [Parse.bind_yields]
  constructor
  · rintro ⟨first, middle, hnext, h⟩
    obtain ⟨_, rfl⟩ := nextToken_yields.mp hnext
    have hbinding : ∀ {make}, BindingWord first.kind make →
        (binding make first).Yields middle stmt rest →
        ∃ taken, Stmt.ReadFrom taken stmt ∧ first :: middle = taken ++ rest := by
      intro make hfirst h
      obtain ⟨name, between, last, text, behind, value, hname, hbetween, hbehind, hlast, rfl, rfl⟩ :=
        binding_yields.mp h
      exact ⟨_, .binding hfirst hname hbetween hbehind hlast, by simp⟩
    split at h
    next hfirst =>
      simp only [Parse.bind_yields, Parse.pure_yields, expect_yields .fromWord (by simp),
        expect_yields .semicolon (by simp), identifier_yields, moduleName_yields] at h
      obtain ⟨_, _, ⟨name, text, hname, rfl, rfl⟩, between, _, ⟨hbetween, rfl⟩, _, _,
        ⟨source, value, hsource, rfl, rfl⟩, last, _, ⟨hlast, rfl⟩, rfl, rfl⟩ := h
      exact ⟨_, .imports hfirst hname hbetween hsource hlast, rfl⟩
    next hfirst => exact hbinding (hfirst ▸ .binds) h
    next hfirst => exact hbinding (hfirst ▸ .exports) h
    next => exact absurd h refuse_yields
  · rintro ⟨taken, htaken, rfl⟩
    cases htaken with
    | @imports first name between source last text value hfirst hname hbetween hsource hlast =>
      refine ⟨first, _, nextToken_yields.mpr ⟨by simp [hfirst], rfl⟩, ?_⟩
      simp only [hfirst, Parse.bind_yields, Parse.pure_yields, expect_yields .fromWord (by simp),
        expect_yields .semicolon (by simp), identifier_yields, moduleName_yields]
      exact ⟨_, _, ⟨name, text, hname, rfl, rfl⟩, between, _, ⟨hbetween, rfl⟩, _, _,
        ⟨source, value, hsource, rfl, rfl⟩, last, _, ⟨hlast, rfl⟩, rfl, rfl⟩
    | @binding first name between last make text behind value hfirst hname hbetween hvalue hlast =>
      have hbinding : (binding make first).Yields (name :: between :: (behind ++ last :: rest))
          (make ⟨text, name.span⟩ value ⟨first.start, last.stop⟩) rest :=
        binding_yields.mpr ⟨_, _, _, _, _, _, hname, hbetween, hvalue, hlast, rfl, rfl⟩
      generalize hkind : first.kind = kind at hfirst
      cases hfirst
      all_goals
        refine ⟨first, name :: between :: (behind ++ last :: rest),
          nextToken_yields.mpr ⟨by simp [hkind], by simp⟩, ?_⟩
        rw [hkind]
        exact hbinding

/-- A statement is read from at least one token, and none of them is an end mark. -/
theorem Stmt.ReadFrom.atEnd {taken : List Token} {stmt : Stmt} (h : Stmt.ReadFrom taken stmt) :
    atEnd (taken ++ rest) = false := by
  cases h with
  | imports hfirst hname hbetween hsource hlast => simp [Script.atEnd, hfirst]
  | @binding first name between last make text behind value hfirst hname hbetween hvalue hlast =>
    generalize hkind : first.kind = kind at hfirst
    cases hfirst
    all_goals simp [Script.atEnd, hkind]

theorem statements_apply (tokens : List Token) : statements tokens =
    if atEnd tokens then (.ok [], tokens)
    else
      match statement tokens with
      | (.error error, rest) => (.error error, rest)
      | (.ok stmt, rest) => ((statements rest).1.map (stmt :: ·), (statements rest).2) := by
  rw [statements]
  split
  next => rfl
  next => split <;> rename_i hstatement <;> rw [hstatement]

theorem Stmt.ReadFrom.statements_append {taken : List Token} {stmt : Stmt} (h : Stmt.ReadFrom taken stmt)
    (rest : List Token) : statements (taken ++ rest) =
      ((statements rest).1.map (stmt :: ·), (statements rest).2) := by
  have hstep : statement (taken ++ rest) = (.ok stmt, rest) := statement_yields.mpr ⟨taken, h, rfl⟩
  rw [statements_apply, h.atEnd, hstep]
  rfl

theorem StatementsFrom.statements_append {taken : List Token} {stmts : List Stmt}
    (h : StatementsFrom taken stmts) (rest : List Token) : statements (taken ++ rest) =
      ((statements rest).1.map (stmts ++ ·), (statements rest).2) := by
  induction h with
  | done => rcases hrest : statements rest with ⟨error | more, last⟩ <;> simp [hrest, Except.map]
  | @next taken behind stmt stmts first then_ ih =>
    rw [List.append_assoc, first.statements_append, ih]
    rcases statements rest with ⟨error | more, last⟩ <;> rfl

theorem statements_iff {stmts : List Stmt} : statements tokens = (.ok stmts, rest) ↔
    ∃ taken, StatementsFrom taken stmts ∧ tokens = taken ++ rest ∧ atEnd rest = true := by
  constructor
  · intro h
    induction tokens using statements.induct generalizing stmts with
    | case1 tokens hend =>
      rw [statements, if_pos hend] at h
      cases h
      exact ⟨[], .done, rfl, hend⟩
    | case2 tokens hend error behind hstatement =>
      rw [statements_apply, if_neg hend, hstatement] at h
      cases h
    | case3 tokens hend stmt behind hstatement _ _ _ ih =>
      rw [statements_apply, if_neg hend, hstatement] at h
      dsimp only at h
      obtain ⟨taken, hstmt, rfl⟩ := statement_yields.mp hstatement
      rcases hbehind : statements behind with ⟨error | stmts', last⟩
      all_goals
        rw [hbehind] at h
        cases h
      obtain ⟨more, hmore, rfl, hrest⟩ := ih hbehind
      exact ⟨taken ++ more, .next hstmt hmore, (List.append_assoc ..).symm, hrest⟩
  · rintro ⟨taken, htaken, rfl, hrest⟩
    induction htaken with
    | done => rw [List.nil_append, statements, if_pos hrest]
    | @next taken behind stmt stmts first then_ ih =>
      have hstatement : statement.Yields (taken ++ (behind ++ rest)) stmt (behind ++ rest) :=
        statement_yields.mpr ⟨taken, first, rfl⟩
      unfold Parse.Yields at hstatement
      rw [List.append_assoc, statements_apply, if_neg (by simp [first.atEnd]), hstatement]
      dsimp only
      rw [ih]
      rfl

/-- A program is read from its tokens where these are a row of statements up to the end. -/
theorem parse_iff {program : Program} : parse tokens = .ok program ↔
    ∃ taken rest, StatementsFrom taken program.statements ∧ tokens = taken ++ rest ∧
      atEnd rest = true ∧ program.span = ⟨.start, (rest.head?.map Token.stop).getD .start⟩ := by
  unfold parse parseProgram
  constructor
  · intro h
    rcases hread : statements tokens with ⟨error | stmts, rest⟩
    all_goals
      rw [hread] at h
      cases h
    obtain ⟨taken, htaken, htokens, hrest⟩ := statements_iff.mp hread
    exact ⟨taken, rest, htaken, htokens, hrest, rfl⟩
  · rintro ⟨taken, rest, htaken, htokens, hrest, hspan⟩
    rw [statements_iff.mpr ⟨taken, htaken, htokens, hrest⟩]
    dsimp only
    rw [← hspan]
    rfl

theorem parse_endMark_iff {before : List Token} (hbefore : ∀ token ∈ before, token.kind ≠ .endOfInput)
    {p : Position} {program : Program} : parse (before ++ [endMark p]) = .ok program ↔
      StatementsFrom before program.statements ∧ program.span = ⟨.start, p⟩ := by
  rw [parse_iff]
  constructor
  · rintro ⟨taken, rest, htaken, htokens, hrest, hspan⟩
    rcases List.append_eq_append_iff.mp htokens with ⟨more, rfl, hmore⟩ | ⟨more, rfl, rfl⟩
    · -- what is taken has no end mark in it
      rcases more with _ | ⟨first, more⟩
      · rw [List.nil_append] at hmore
        subst hmore
        exact ⟨by rwa [List.append_nil] at htaken, hspan⟩
      · obtain ⟨rfl, _⟩ := List.cons.inj hmore
        exact absurd rfl (htaken.ne_end (endMark p) (by simp))
    · -- what is before the end mark has no other in it
      rcases more with _ | ⟨first, more⟩
      · rw [List.append_nil] at hbefore ⊢
        exact ⟨htaken, hspan⟩
      · have hfirst : first.kind = .endOfInput := by simpa [atEnd] using hrest
        exact absurd hfirst (hbefore first (by simp))
  · rintro ⟨hstatements, hspan⟩
    exact ⟨before, [endMark p], hstatements, rfl, rfl, hspan⟩

theorem parseText_iff {source : String} {program : Program} : parseText source = .ok program ↔
    ∃ lexemes last, Fit lexemes last ∧ source.toList = spell lexemes last ∧
      StatementsFrom (tokensOf .start lexemes) program.statements ∧
      program.span = ⟨.start, Position.start.advance source.toList⟩ := by
  unfold parseText
  constructor
  · intro h
    cases htokens : tokenize source with
    | error error =>
      rw [htokens] at h
      cases h
    | ok tokens =>
      rw [htokens] at h
      obtain ⟨lexemes, last, hfit, hspell, rfl⟩ := tokenize_iff.mp htokens
      obtain ⟨hstatements, hspan⟩ := (parse_endMark_iff (hfit.ne_end .start)).mp h
      exact ⟨lexemes, last, hfit, hspell, hstatements, hspan⟩
  · rintro ⟨lexemes, last, hfit, hspell, hstatements, hspan⟩
    rw [tokenize_iff.mpr ⟨lexemes, last, hfit, hspell, rfl⟩]
    exact (parse_endMark_iff (hfit.ne_end .start)).mpr ⟨hstatements, hspan⟩

end Statements

end Interpose.Script
