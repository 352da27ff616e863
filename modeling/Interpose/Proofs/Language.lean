import Mathlib.Computability.Language
import Interpose.Proofs.Likeness

/-!
The script language as a set of words over kinds of tokens, and the parser as what decides it. Main
statement: the tokens before the first end mark are parsed where their kinds are a word of the
grammar, and only there; the tree is the one that the word has, each part of it placed where its
tokens are, and nothing behind the end mark matters (`parse_decides_grammar`).
-/

set_option autoImplicit false

open scoped Computability

namespace Interpose.Script

abbrev kinds (tokens : List Token) : List TokenKind := tokens.map Token.kind

namespace Grammar

def token (kind : TokenKind) : Language TokenKind := {[kind]}

def carrying {α : Type} (make : α → TokenKind) : Language TokenKind := Set.range fun value => [make value]

def name : Language TokenKind := carrying .identifier

def expression : Language TokenKind :=
  carrying .string + carrying .integer + carrying .boolean + token .null +
    name * (token .dot * name)∗

def imports : Language TokenKind :=
  token .importWord * name * token .fromWord * carrying .string * token .semicolon

def binding (word : TokenKind) : Language TokenKind :=
  token word * name * token .equal * expression * token .semicolon

def statement : Language TokenKind := imports + binding .letWord + binding .exportWord

def program : Language TokenKind := statement∗

end Grammar

section Words

variable {tokens : List Token} {first second : Language TokenKind}

theorem kinds_mem_mul : kinds tokens ∈ first * second ↔
    ∃ front back, tokens = front ++ back ∧ kinds front ∈ first ∧ kinds back ∈ second := by
  rw [Language.mem_mul]
  constructor
  · rintro ⟨front, hfront, back, hback, hall⟩
    obtain ⟨front', back', rfl, rfl, rfl⟩ := List.map_eq_append_iff.mp hall.symm
    exact ⟨front', back', rfl, hfront, hback⟩
  · rintro ⟨front, back, rfl, hfront, hback⟩
    exact ⟨kinds front, hfront, kinds back, hback, List.map_append.symm⟩

theorem kinds_mem_kstar : kinds tokens ∈ first∗ ↔
    ∃ parts : List (List Token), tokens = parts.flatten ∧ ∀ part ∈ parts, kinds part ∈ first := by
  rw [Language.mem_kstar]
  constructor
  · rintro ⟨words, hwords, hall⟩
    induction words generalizing tokens with
    | nil => exact ⟨[], List.map_eq_nil_iff.mp hwords, by simp⟩
    | cons word words ih =>
      obtain ⟨front, back, rfl, rfl, hback⟩ := List.map_eq_append_iff.mp hwords
      obtain ⟨parts, rfl, hparts⟩ := ih hback fun word h => hall word (List.mem_cons_of_mem _ h)
      exact ⟨front :: parts, rfl, List.forall_mem_cons.mpr ⟨hall _ List.mem_cons_self, hparts⟩⟩
  · rintro ⟨parts, rfl, hparts⟩
    refine ⟨parts.map kinds, List.map_flatten, ?_⟩
    intro word hword
    obtain ⟨part, hpart, rfl⟩ := List.mem_map.mp hword
    exact hparts part hpart

theorem kinds_mem_token {kind : TokenKind} :
    kinds tokens ∈ Grammar.token kind ↔ ∃ token, tokens = [token] ∧ token.kind = kind :=
  List.map_eq_singleton_iff

theorem kinds_mem_carrying {α : Type} {make : α → TokenKind} :
    kinds tokens ∈ Grammar.carrying make ↔ ∃ token value, tokens = [token] ∧ token.kind = make value := by
  constructor
  · rintro ⟨value, hvalue⟩
    obtain ⟨token, rfl, hkind⟩ := List.map_eq_singleton_iff.mp hvalue.symm
    exact ⟨token, value, rfl, hkind⟩
  · rintro ⟨token, value, rfl, hkind⟩
    exact ⟨value, by simp [hkind]⟩

theorem kinds_mem_token_mul {kind : TokenKind} : kinds tokens ∈ Grammar.token kind * second ↔
    ∃ token rest, tokens = token :: rest ∧ token.kind = kind ∧ kinds rest ∈ second := by
  rw [kinds_mem_mul]
  constructor
  · rintro ⟨_, rest, rfl, hfront, hrest⟩
    obtain ⟨token, rfl, hkind⟩ := kinds_mem_token.mp hfront
    exact ⟨token, rest, rfl, hkind, hrest⟩
  · rintro ⟨token, rest, rfl, hkind, hrest⟩
    exact ⟨[token], rest, rfl, kinds_mem_token.mpr ⟨token, rfl, hkind⟩, hrest⟩

theorem kinds_mem_carrying_mul {α : Type} {make : α → TokenKind} :
    kinds tokens ∈ Grammar.carrying make * second ↔
      ∃ token value rest, tokens = token :: rest ∧ token.kind = make value ∧ kinds rest ∈ second := by
  rw [kinds_mem_mul]
  constructor
  · rintro ⟨_, rest, rfl, hfront, hrest⟩
    obtain ⟨token, value, rfl, hkind⟩ := kinds_mem_carrying.mp hfront
    exact ⟨token, value, rest, rfl, hkind, hrest⟩
  · rintro ⟨token, value, rest, rfl, hkind, hrest⟩
    exact ⟨[token], rest, rfl, kinds_mem_carrying.mpr ⟨token, value, rfl, hkind⟩, hrest⟩

end Words

section Derivations

variable {tokens : List Token}

theorem exists_continues_iff (head : Expr) : (∃ value, head.Continues tokens value) ↔
    kinds tokens ∈ (Grammar.token .dot * Grammar.name)∗ := by
  rw [kinds_mem_kstar]
  constructor
  · rintro ⟨value, hvalue⟩
    induction hvalue with
    | stop => exact ⟨[], rfl, by simp⟩
    | @property head value dot token behind text hdot hname _ ih =>
      obtain ⟨parts, rfl, hparts⟩ := ih
      refine ⟨[dot, token] :: parts, rfl, ?_⟩
      refine List.forall_mem_cons.mpr ⟨?_, hparts⟩
      exact kinds_mem_token_mul.mpr ⟨dot, [token], rfl, hdot,
        kinds_mem_carrying.mpr ⟨token, text, rfl, hname⟩⟩
  · rintro ⟨parts, rfl, hparts⟩
    induction parts generalizing head with
    | nil => exact ⟨head, .stop⟩
    | cons part parts ih =>
      obtain ⟨hpart, hrest⟩ := List.forall_mem_cons.mp hparts
      obtain ⟨dot, _, rfl, hdot, hback⟩ := kinds_mem_token_mul.mp hpart
      obtain ⟨token, text, rfl, hname⟩ := kinds_mem_carrying.mp hback
      obtain ⟨value, hvalue⟩ :=
        ih (.member head ⟨text, token.span⟩ ⟨head.span.start, token.stop⟩) hrest
      exact ⟨value, .property hdot hname hvalue⟩

theorem exists_expression_iff :
    (∃ value, Expr.ReadFrom tokens value) ↔ kinds tokens ∈ Grammar.expression := by
  simp only [Grammar.expression, Language.mem_add, kinds_mem_carrying, kinds_mem_token,
    kinds_mem_carrying_mul, Grammar.name, or_assoc]
  constructor
  · rintro ⟨value, hvalue⟩
    cases hvalue with
    | @literal token value hvalue =>
      obtain ⟨kind, span⟩ := token
      cases kind <;> cases hvalue
      · exact .inr (.inl ⟨_, _, rfl, rfl⟩)
      · exact .inl ⟨_, _, rfl, rfl⟩
      · exact .inr (.inr (.inl ⟨_, _, rfl, rfl⟩))
      · exact .inr (.inr (.inr (.inl ⟨_, rfl, rfl⟩)))
    | @chain token behind text value hname hbehind =>
      exact .inr (.inr (.inr (.inr ⟨token, text, behind, rfl, hname,
        (exists_continues_iff _).mp ⟨value, hbehind⟩⟩)))
  · have hliteral : ∀ {token : Token} {kind : TokenKind} {value : Literal}, token.kind = kind →
        kind.literal? = some value → ∃ value, Expr.ReadFrom [token] value :=
      fun hkind hvalue => ⟨_, .literal (hkind ▸ hvalue)⟩
    rintro (⟨_, _, rfl, hkind⟩ | ⟨_, _, rfl, hkind⟩ | ⟨_, _, rfl, hkind⟩ | ⟨_, rfl, hkind⟩ |
      ⟨token, text, behind, rfl, hname, hbehind⟩)
    · exact hliteral hkind rfl
    · exact hliteral hkind rfl
    · exact hliteral hkind rfl
    · exact hliteral hkind rfl
    · obtain ⟨value, hvalue⟩ := (exists_continues_iff (.identifier ⟨text, token.span⟩)).mpr hbehind
      exact ⟨value, .chain hname hvalue⟩

theorem imports_iff : kinds tokens ∈ Grammar.imports ↔
    ∃ first name between source last text value, tokens = [first, name, between, source, last] ∧
      first.kind = .importWord ∧ name.kind = .identifier text ∧ between.kind = .fromWord ∧
      source.kind = .string value ∧ last.kind = .semicolon := by
  simp only [Grammar.imports, Grammar.name, mul_assoc, kinds_mem_token_mul, kinds_mem_carrying_mul,
    kinds_mem_token]
  constructor
  · rintro ⟨first, _, rfl, hfirst, name, text, _, rfl, hname, between, _, rfl, hbetween, source, value,
      _, rfl, hsource, last, rfl, hlast⟩
    exact ⟨first, name, between, source, last, text, value, rfl, hfirst, hname, hbetween, hsource,
      hlast⟩
  · rintro ⟨first, name, between, source, last, text, value, rfl, hfirst, hname, hbetween, hsource,
      hlast⟩
    exact ⟨first, _, rfl, hfirst, name, text, _, rfl, hname, between, _, rfl, hbetween, source, value,
      _, rfl, hsource, last, rfl, hlast⟩

theorem binding_iff {word : TokenKind} : kinds tokens ∈ Grammar.binding word ↔
    ∃ first name between behind last text value,
      tokens = first :: name :: between :: (behind ++ [last]) ∧ first.kind = word ∧
      name.kind = .identifier text ∧ between.kind = .equal ∧ Expr.ReadFrom behind value ∧
      last.kind = .semicolon := by
  simp only [Grammar.binding, Grammar.name, mul_assoc, kinds_mem_token_mul, kinds_mem_carrying_mul]
  simp only [kinds_mem_mul, kinds_mem_token, ← exists_expression_iff]
  constructor
  · rintro ⟨first, _, rfl, hfirst, name, text, _, rfl, hname, between, _, rfl, hbetween, behind, _,
      rfl, ⟨value, hvalue⟩, last, rfl, hlast⟩
    exact ⟨first, name, between, behind, last, text, value, rfl, hfirst, hname, hbetween, hvalue,
      hlast⟩
  · rintro ⟨first, name, between, behind, last, text, value, rfl, hfirst, hname, hbetween, hvalue,
      hlast⟩
    exact ⟨first, _, rfl, hfirst, name, text, _, rfl, hname, between, _, rfl, hbetween, behind, _,
      rfl, ⟨value, hvalue⟩, last, rfl, hlast⟩

theorem exists_statement_iff :
    (∃ stmt, Stmt.ReadFrom tokens stmt) ↔ kinds tokens ∈ Grammar.statement := by
  simp only [Grammar.statement, Language.mem_add, imports_iff, binding_iff, or_assoc]
  constructor
  · rintro ⟨stmt, hstmt⟩
    cases hstmt with
    | imports hfirst hname hbetween hsource hlast =>
      exact .inl ⟨_, _, _, _, _, _, _, rfl, hfirst, hname, hbetween, hsource, hlast⟩
    | @binding first name between last make text behind value hfirst hname hbetween hvalue hlast =>
      generalize hword : first.kind = word at hfirst
      cases hfirst
      · exact .inr (.inl ⟨_, _, _, _, _, _, _, rfl, hword, hname, hbetween, hvalue, hlast⟩)
      · exact .inr (.inr ⟨_, _, _, _, _, _, _, rfl, hword, hname, hbetween, hvalue, hlast⟩)
  · rintro (⟨first, name, between, source, last, text, value, rfl, hfirst, hname, hbetween, hsource,
      hlast⟩ | ⟨first, name, between, behind, last, text, value, rfl, hword, hname, hbetween, hvalue,
      hlast⟩ | ⟨first, name, between, behind, last, text, value, rfl, hword, hname, hbetween, hvalue,
      hlast⟩)
    · exact ⟨_, .imports hfirst hname hbetween hsource hlast⟩
    · have hfirst : BindingWord first.kind .binds := hword ▸ .binds
      exact ⟨_, .binding hfirst hname hbetween hvalue hlast⟩
    · have hfirst : BindingWord first.kind .exports := hword ▸ .exports
      exact ⟨_, .binding hfirst hname hbetween hvalue hlast⟩

theorem statementsFrom_iff {stmts : List Stmt} : StatementsFrom tokens stmts ↔
    ∃ parts : List (List Token), tokens = parts.flatten ∧ List.Forall₂ Stmt.ReadFrom parts stmts := by
  constructor
  · intro h
    induction h with
    | done => exact ⟨[], rfl, .nil⟩
    | @next part behind stmt stmts first then_ ih =>
      obtain ⟨parts, rfl, hparts⟩ := ih
      exact ⟨part :: parts, rfl, .cons first hparts⟩
  · rintro ⟨parts, rfl, hparts⟩
    induction hparts with
    | nil => exact .done
    | cons first _ ih => exact .next first ih

theorem exists_statements_iff :
    (∃ stmts, StatementsFrom tokens stmts) ↔ kinds tokens ∈ Grammar.program := by
  simp only [Grammar.program, kinds_mem_kstar, ← exists_statement_iff, statementsFrom_iff]
  constructor
  · rintro ⟨stmts, parts, rfl, hparts⟩
    refine ⟨parts, rfl, ?_⟩
    induction hparts with
    | nil => simp
    | cons first _ ih => exact List.forall_mem_cons.mpr ⟨⟨_, first⟩, ih⟩
  · rintro ⟨parts, rfl, hparts⟩
    have hstmts : ∃ stmts, List.Forall₂ Stmt.ReadFrom parts stmts := by
      induction parts with
      | nil => exact ⟨[], .nil⟩
      | cons part parts ih =>
        obtain ⟨⟨stmt, hstmt⟩, hparts⟩ := List.forall_mem_cons.mp hparts
        obtain ⟨stmts, hstmts⟩ := ih hparts
        exact ⟨stmt :: stmts, .cons hstmt hstmts⟩
    obtain ⟨stmts, hstmts⟩ := hstmts
    exact ⟨stmts, parts, rfl, hstmts⟩

end Derivations

section Ends

variable {tokens : List Token}

/-- The tokens before the first end mark, all of them where there is none. -/
def beforeEnd (tokens : List Token) : List Token :=
  tokens.takeWhile fun token => decide (token.kind ≠ .endOfInput)

def endOf (tokens : List Token) : Position :=
  ((tokens.find? fun token => decide (token.kind = .endOfInput)).map Token.stop).getD .start

theorem split_end (tokens : List Token) : ∃ rest, tokens = beforeEnd tokens ++ rest ∧
    atEnd rest = true ∧ endOf tokens = (rest.head?.map Token.stop).getD .start := by
  unfold beforeEnd endOf
  induction tokens with
  | nil => exact ⟨[], rfl, rfl, rfl⟩
  | cons token tokens ih =>
    by_cases hend : token.kind = .endOfInput
    · refine ⟨token :: tokens, ?_, ?_, ?_⟩ <;> simp [hend, atEnd]
    · obtain ⟨rest, htokens, hrest⟩ := ih
      refine ⟨rest, ?_, ?_⟩
      · simpa [hend] using htokens
      · simpa [hend] using hrest

theorem beforeEnd_behind {front : List Token} (hfront : ∀ token ∈ front, token.kind ≠ .endOfInput)
    (rest : List Token) : beforeEnd (front ++ rest) = front ++ beforeEnd rest :=
  List.takeWhile_append_of_pos fun token htoken => decide_eq_true (hfront token htoken)

theorem endOf_behind {front : List Token} (hfront : ∀ token ∈ front, token.kind ≠ .endOfInput)
    (rest : List Token) : endOf (front ++ rest) = endOf rest := by
  have hnone : front.find? (fun token => decide (token.kind = .endOfInput)) = none :=
    List.find?_eq_none.mpr fun token htoken => by simpa using hfront token htoken
  rw [endOf, List.find?_append, hnone, Option.none_or]
  rfl

theorem beforeEnd_atEnd {rest : List Token} (h : atEnd rest = true) : beforeEnd rest = [] := by
  rcases rest with _ | ⟨token, rest⟩
  · rfl
  · have hend : token.kind = .endOfInput := by simpa [atEnd] using h
    simp [beforeEnd, hend]

theorem beforeEnd_append {front rest : List Token} (hfront : ∀ token ∈ front, token.kind ≠ .endOfInput)
    (hrest : atEnd rest = true) : beforeEnd (front ++ rest) = front := by
  rw [beforeEnd_behind hfront, beforeEnd_atEnd hrest, List.append_nil]

theorem parse_beforeEnd_iff {program : Program} : parse tokens = .ok program ↔
    StatementsFrom (beforeEnd tokens) program.statements ∧ program.span = ⟨.start, endOf tokens⟩ := by
  obtain ⟨rest, htokens, hrest, hend⟩ := split_end tokens
  rw [parse_iff]
  constructor
  · rintro ⟨taken, rest', htaken, htokens', hrest', hspan⟩
    have hbefore : beforeEnd tokens = taken := by
      rw [htokens', beforeEnd_append htaken.ne_end hrest']
    rw [hbefore] at htokens ⊢
    obtain rfl : rest' = rest := List.append_cancel_left (htokens'.symm.trans htokens)
    exact ⟨htaken, hspan.trans (by rw [hend])⟩
  · rintro ⟨hstatements, hspan⟩
    exact ⟨beforeEnd tokens, rest, hstatements, htokens, hrest, hspan.trans (by rw [hend])⟩

end Ends

/-- Tokens that are the same up to an end mark. -/
inductive SameToEnd : List Token → List Token → Prop where
  | last {last : Token} {rest rest' : List Token} (hlast : last.kind = .endOfInput) :
      SameToEnd (last :: rest) (last :: rest')
  | token {token : Token} {rest rest' : List Token} (hrest : SameToEnd rest rest') :
      SameToEnd (token :: rest) (token :: rest')

/-- A step that does not see what is behind an end mark. -/
def Parse.StopsAtEnd {α : Type} (step : Parse α) : Prop :=
  ∀ tokens tokens', SameToEnd tokens tokens' →
    (step tokens).1 = (step tokens').1 ∧ SameToEnd (step tokens).2 (step tokens').2

section SameToEnd

variable {α β : Type} {tokens tokens' : List Token}

theorem sameToEnd_append {last : Token} (hlast : last.kind = .endOfInput) (front rest rest' : List Token) :
    SameToEnd (front ++ last :: rest) (front ++ last :: rest') := by
  induction front with
  | nil => exact .last hlast
  | cons token front ih => exact .token ih

theorem SameToEnd.atEnd (h : SameToEnd tokens tokens') : atEnd tokens = atEnd tokens' := by
  cases h with
  | last hlast => rfl
  | token hrest => rfl

theorem SameToEnd.head? (h : SameToEnd tokens tokens') : tokens.head? = tokens'.head? := by
  cases h with
  | last hlast => rfl
  | token hrest => rfl

theorem SameToEnd.cons {token : Token} {rest : List Token} (h : SameToEnd (token :: rest) tokens') :
    ∃ rest', tokens' = token :: rest' := by
  cases h with
  | last hlast => exact ⟨_, rfl⟩
  | token hrest => exact ⟨_, rfl⟩

theorem SameToEnd.behind {token : Token} {rest : List Token} (h : SameToEnd (token :: rest) tokens')
    (hend : token.kind ≠ .endOfInput) : ∃ rest', tokens' = token :: rest' ∧ SameToEnd rest rest' := by
  cases h with
  | last hlast => exact absurd hlast hend
  | token hrest => exact ⟨_, rfl, hrest⟩

theorem Parse.StopsAtEnd.bind {step : Parse α} {next : α → Parse β} (first : step.StopsAtEnd)
    (then_ : ∀ value, (next value).StopsAtEnd) : (step >>= next).StopsAtEnd := by
  intro tokens tokens' htokens
  obtain ⟨hresult, hrest⟩ := first tokens tokens' htokens
  rw [bind_apply, bind_apply]
  rcases hstep : step tokens with ⟨result, rest⟩
  rcases hstep' : step tokens' with ⟨result', rest'⟩
  rw [hstep, hstep'] at hresult hrest
  dsimp only at hresult hrest
  subst hresult
  cases result with
  | error error => exact ⟨rfl, hrest⟩
  | ok value => exact then_ value rest rest' hrest

theorem stopsAtEnd_nextToken : nextToken.StopsAtEnd := by
  intro tokens tokens' h
  cases h with
  | @last last rest rest' hlast =>
    simp only [nextToken, if_pos hlast]
    exact ⟨trivial, .last hlast⟩
  | @token token rest rest' hrest =>
    by_cases hend : token.kind = .endOfInput
    · simp only [nextToken, if_pos hend]
      exact ⟨trivial, .token hrest⟩
    · simp only [nextToken, if_neg hend]
      exact ⟨trivial, hrest⟩

theorem members_of_ne_dot {head : Expr} {token : Token} {rest : List Token} (h : token.kind ≠ .dot) :
    members head (token :: rest) = (.ok head, token :: rest) := by
  cases rest <;> simp only [members, if_neg h]

theorem stopsAtEnd_members (head : Expr) :
    Parse.StopsAtEnd (fun tokens => members head tokens : Parse Expr) := by
  intro tokens tokens' h
  dsimp only
  have hdotted : ∀ {dot : Token}, dot.kind = .dot → dot.kind ≠ .endOfInput := by
    intro dot hdot
    simp [hdot]
  fun_induction members head tokens generalizing tokens' with
  | case1 => cases h
  | case2 head dot hdot =>
    obtain ⟨rest', rfl, hrest⟩ := h.behind (hdotted hdot)
    cases hrest
  | case3 head dot hdot =>
    obtain ⟨rest', rfl⟩ := h.cons
    rw [members_of_ne_dot hdot]
    exact ⟨rfl, h⟩
  | case4 head dot token behind hdot name hname ih =>
    obtain ⟨rest', rfl, hrest⟩ := h.behind (hdotted hdot)
    obtain ⟨behind', rfl, hbehind⟩ := hrest.behind (by simp [hname])
    simp only [members, if_pos hdot, hname]
    exact ih _ hbehind
  | case5 head dot token behind hdot hend =>
    obtain ⟨rest', rfl, hrest⟩ := h.behind (hdotted hdot)
    obtain ⟨behind', rfl⟩ := hrest.cons
    simp only [members, if_pos hdot, hend]
    exact ⟨trivial, hrest⟩
  | case6 head dot token behind hdot hname hend =>
    obtain ⟨rest', rfl, hrest⟩ := h.behind (hdotted hdot)
    obtain ⟨behind', rfl, hbehind⟩ := hrest.behind hend
    simp only [members, if_pos hdot]
    exact ⟨trivial, hbehind⟩
  | case7 head dot token behind hdot =>
    obtain ⟨rest', rfl⟩ := h.cons
    rw [members_of_ne_dot hdot]
    exact ⟨rfl, h⟩

theorem inherited_stopsAtEnd : Parse.Inherited fun _ step => step.StopsAtEnd where
  pure _ _ _ h := ⟨rfl, h⟩
  refuse _ _ _ _ h := ⟨rfl, h⟩
  nextToken := stopsAtEnd_nextToken
  members := stopsAtEnd_members
  bind := Parse.StopsAtEnd.bind

theorem stopsAtEnd_statements : Parse.StopsAtEnd (fun tokens => statements tokens : Parse (List Stmt)) := by
  intro tokens tokens' h
  dsimp only
  induction tokens using statements.induct generalizing tokens' with
  | case1 tokens hend =>
    have hend' : Script.atEnd tokens' = true := h.atEnd ▸ hend
    rw [statements_apply, statements_apply, if_pos hend, if_pos hend']
    exact ⟨rfl, h⟩
  | case2 tokens hend error rest hstatement =>
    obtain ⟨hresult, hrest⟩ := inherited_stopsAtEnd.statement tokens tokens' h
    rcases hstatement' : statement tokens' with ⟨result', rest'⟩
    rw [hstatement, hstatement'] at hresult hrest
    dsimp only at hresult hrest
    subst hresult
    rw [statements_apply, statements_apply, ← h.atEnd, if_neg hend, if_neg hend, hstatement,
      hstatement']
    exact ⟨rfl, hrest⟩
  | case3 tokens hend stmt rest hstatement _ _ _ ih =>
    obtain ⟨hresult, hrest⟩ := inherited_stopsAtEnd.statement tokens tokens' h
    rcases hstatement' : statement tokens' with ⟨result', rest'⟩
    rw [hstatement, hstatement'] at hresult hrest
    dsimp only at hresult hrest
    subst hresult
    obtain ⟨hmore, hlast⟩ := ih rest' hrest
    rw [statements_apply, statements_apply, ← h.atEnd, if_neg hend, if_neg hend, hstatement,
      hstatement']
    dsimp only
    rw [hmore]
    exact ⟨rfl, hlast⟩

theorem SameToEnd.parse_eq (h : SameToEnd tokens tokens') : parse tokens = parse tokens' := by
  obtain ⟨hresult, hrest⟩ := stopsAtEnd_statements tokens tokens' h
  dsimp only at hresult hrest
  unfold parse parseProgram
  dsimp only
  rw [hresult, hrest.head?]

end SameToEnd

section Places

/-- The stretch from the first token to the last. -/
def Covers (tokens : List Token) (span : Span) : Prop :=
  ∃ first ∈ tokens.head?, ∃ last ∈ tokens.getLast?, span = ⟨first.start, last.stop⟩

/-- Each part of the expression is where its tokens are; a property is behind the whole of what it is
a property of. -/
def Expr.Placed : List Token → Expr → Prop
  | tokens, .literal _ span => tokens.length = 1 ∧ Covers tokens span
  | tokens, .identifier name => tokens.length = 1 ∧ Covers tokens name.span
  | tokens, .member object property span => ∃ front dot token, tokens = front ++ [dot, token] ∧
      object.Placed front ∧ property.span = token.span ∧ Covers tokens span

def Stmt.value? : Stmt → Option Expr
  | .imports .. => none
  | .binds _ value _ | .exports _ value _ => some value

/-- A statement read from a row of tokens, with its places. -/
structure Stmt.Derived (tokens : List Token) (stmt : Stmt) : Prop where
  read : Stmt.ReadFrom tokens stmt
  covers : Covers tokens stmt.span
  value : ∀ value ∈ stmt.value?, ∃ part, part <:+: tokens ∧ Expr.ReadFrom part value ∧
    value.Placed part

theorem Expr.Placed.covers {tokens : List Token} {value : Expr} (h : value.Placed tokens) :
    Covers tokens value.span := by
  cases value with
  | literal => exact h.2
  | identifier => exact h.2
  | member =>
    obtain ⟨front, dot, token, _, _, _, hcovers⟩ := h
    exact hcovers

theorem covers_singleton (token : Token) : Covers [token] token.span := ⟨token, rfl, token, rfl, rfl⟩

theorem Expr.Continues.placed {head value : Expr} {front tokens : List Token}
    (h : head.Continues tokens value) (hhead : head.Placed front) : value.Placed (front ++ tokens) := by
  induction h generalizing front with
  | stop => rwa [List.append_nil]
  | @property head value dot token behind text hdot hname _ ih =>
    obtain ⟨first, hfirst, last, hlast, hspan⟩ := hhead.covers
    have hmember : Expr.Placed (front ++ [dot, token])
        (.member head ⟨text, token.span⟩ ⟨head.span.start, token.stop⟩) := by
      refine ⟨front, dot, token, rfl, hhead, rfl, first, ?_, token, ?_, ?_⟩
      · exact List.mem_head?_append_of_mem_head? hfirst
      · simp
      · rw [hspan]
    simpa using ih hmember

theorem Expr.ReadFrom.placed {tokens : List Token} {value : Expr} (h : Expr.ReadFrom tokens value) :
    value.Placed tokens := by
  cases h with
  | literal hvalue => exact ⟨rfl, covers_singleton _⟩
  | @chain token behind text value hname hbehind =>
    have hfirst : Expr.Placed [token] (.identifier ⟨text, token.span⟩) := ⟨rfl, covers_singleton _⟩
    exact hbehind.placed hfirst

theorem Stmt.ReadFrom.derived {tokens : List Token} {stmt : Stmt} (h : Stmt.ReadFrom tokens stmt) :
    stmt.Derived tokens := by
  have hread := h
  cases h with
  | @imports first name between source last text value hfirst hname hbetween hsource hlast =>
    exact ⟨hread, ⟨first, rfl, last, rfl, rfl⟩, by simp [Stmt.value?]⟩
  | @binding first name between last make text part value hfirst hname hbetween hvalue hlast =>
    have hcovers : Covers (first :: name :: between :: (part ++ [last])) ⟨first.start, last.stop⟩ :=
      ⟨first, rfl, last, by simp [List.getLast?_cons], rfl⟩
    have hpart : part <:+: first :: name :: between :: (part ++ [last]) :=
      ⟨[first, name, between], [last], by simp⟩
    generalize first.kind = word at hfirst
    cases hfirst
    all_goals
      refine ⟨hread, hcovers, ?_⟩
      rintro _ ⟨⟩
      exact ⟨part, hpart, hvalue, hvalue.placed⟩

end Places

section Parse

theorem likeTokens_id {tokens tokens' : List Token} (h : kinds tokens' = kinds tokens) :
    LikeTokens id tokens tokens' := by
  induction tokens generalizing tokens' with
  | nil =>
    obtain rfl := List.map_eq_nil_iff.mp h
    exact .nil
  | cons token tokens ih =>
    obtain ⟨token', rest', rfl, htoken, hrest⟩ := List.map_eq_cons_iff.mp h
    refine .cons ?_ (ih hrest)
    rw [htoken, TokenKind.changed]
    split
    next value hvalue => exact (ofLiteral_of_literal? hvalue).symm
    next => rfl

/-- Tokens are read as one row of statements only. -/
theorem StatementsFrom.unique {tokens : List Token} {stmts stmts' : List Stmt}
    (h : StatementsFrom tokens stmts) (h' : StatementsFrom tokens stmts') : stmts = stmts' := by
  have hread : statements tokens = (.ok stmts, []) :=
    statements_iff.mpr ⟨tokens, h, (List.append_nil _).symm, rfl⟩
  have hread' : statements tokens = (.ok stmts', []) :=
    statements_iff.mpr ⟨tokens, h', (List.append_nil _).symm, rfl⟩
  rw [hread] at hread'
  cases hread'
  rfl

/-- Tokens of the same kinds are read as the same statements, but for their places. -/
theorem StatementsFrom.alike {tokens tokens' : List Token} {stmts stmts' : List Stmt}
    (h : StatementsFrom tokens stmts) (h' : StatementsFrom tokens' stmts')
    (hkinds : kinds tokens = kinds tokens') : List.Forall₂ (Stmt.Like id) stmts stmts' := by
  have hsources : ∀ name ∈ stmts.filterMap Stmt.imported?,
      ∃ name', id (Literal.string name) = .string name' := fun name _ => ⟨name, rfl⟩
  obtain ⟨stmts'', hread, hlike⟩ := h.like hsources (likeTokens_id hkinds.symm)
  rwa [hread.unique h'] at hlike

/-- The parser accepts the words of the grammar, no others, and gives the statements that the word is
read as. -/
theorem parse_decides_grammar (tokens : List Token) :
    ((∃ program, parse tokens = .ok program) ↔ kinds (beforeEnd tokens) ∈ Grammar.program) ∧
    (∀ program, parse tokens = .ok program →
      (∃ parts : List (List Token), parts.flatten = beforeEnd tokens ∧
        List.Forall₂ Stmt.Derived parts program.statements) ∧
      (∀ others stmts, kinds others = kinds (beforeEnd tokens) → StatementsFrom others stmts →
        List.Forall₂ (Stmt.Like id) stmts program.statements) ∧
      program.span = ⟨.start, endOf tokens⟩) ∧
    (∀ before last behind behind', last.kind = .endOfInput →
      tokens = before ++ last :: behind → parse tokens = parse (before ++ last :: behind')) := by
  refine ⟨?_, ?_, ?_⟩
  · rw [← exists_statements_iff]
    constructor
    · rintro ⟨program, hprogram⟩
      exact ⟨program.statements, (parse_beforeEnd_iff.mp hprogram).1⟩
    · rintro ⟨stmts, hstmts⟩
      exact ⟨⟨stmts, ⟨.start, endOf tokens⟩⟩, parse_beforeEnd_iff.mpr ⟨hstmts, rfl⟩⟩
  · intro program hprogram
    obtain ⟨hread, hspan⟩ := parse_beforeEnd_iff.mp hprogram
    obtain ⟨parts, hparts, hderived⟩ := statementsFrom_iff.mp hread
    exact ⟨⟨parts, hparts.symm, hderived.imp fun _ _ hstmt => hstmt.derived⟩,
      fun others stmts hkinds hstmts => hstmts.alike hread hkinds, hspan⟩
  · rintro before last behind behind' hlast rfl
    exact (sameToEnd_append hlast before behind behind').parse_eq

def endedMidway : List Token :=
  [⟨.letWord, ⟨⟨1, 1, 0⟩, ⟨1, 4, 3⟩⟩⟩, ⟨.identifier "a", ⟨⟨1, 5, 4⟩, ⟨1, 6, 5⟩⟩⟩,
    ⟨.equal, ⟨⟨1, 7, 6⟩, ⟨1, 8, 7⟩⟩⟩, ⟨.identifier "b", ⟨⟨1, 9, 8⟩, ⟨1, 10, 9⟩⟩⟩,
    ⟨.dot, ⟨⟨1, 10, 9⟩, ⟨1, 11, 10⟩⟩⟩, ⟨.identifier "c", ⟨⟨1, 11, 10⟩, ⟨1, 12, 11⟩⟩⟩,
    ⟨.semicolon, ⟨⟨1, 12, 11⟩, ⟨1, 13, 12⟩⟩⟩, ⟨.endOfInput, ⟨⟨1, 13, 12⟩, ⟨1, 13, 12⟩⟩⟩,
    ⟨.fromWord, ⟨⟨1, 13, 12⟩, ⟨1, 17, 16⟩⟩⟩]

theorem parse_decides_grammar_endedMidway :
    ∃ program, parse endedMidway = .ok program ∧ kinds (beforeEnd endedMidway) ∈ Grammar.program ∧
      (∃ parts : List (List Token), parts.flatten = endedMidway.take 7 ∧
        List.Forall₂ Stmt.Derived parts program.statements) ∧
      endedMidway = endedMidway.take 7 ++ endedMidway[7] :: endedMidway.drop 8 ∧
      parse endedMidway = parse (endedMidway.take 7 ++ [endedMidway[7]]) := by
  obtain ⟨haccepts, hderived, hignores⟩ := parse_decides_grammar endedMidway
  have hstmt : Stmt.ReadFrom (endedMidway.take 7) _ :=
    .binding .binds rfl rfl (.chain rfl (.property rfl rfl .stop)) rfl
  have hprogram : parse endedMidway = .ok ⟨[_], ⟨.start, ⟨1, 13, 12⟩⟩⟩ :=
    parse_beforeEnd_iff.mpr ⟨.next hstmt .done, rfl⟩
  exact ⟨_, hprogram, haccepts.mp ⟨_, hprogram⟩, (hderived _ hprogram).1, rfl,
    hignores (endedMidway.take 7) endedMidway[7] (endedMidway.drop 8) [] rfl rfl⟩

end Parse

end Interpose.Script
