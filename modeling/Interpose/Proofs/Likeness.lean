import Mathlib.Data.List.Forall2
import Interpose.Proofs.Grammar

set_option autoImplicit false

namespace Interpose.Script

variable {change : Literal → Literal}

def TokenKind.changed (change : Literal → Literal) (kind : TokenKind) : TokenKind :=
  match kind.literal? with
  | some value => .ofLiteral (change value)
  | none => kind

inductive Expr.Like (change : Literal → Literal) : Expr → Expr → Prop where
  | literal {value : Literal} {span span' : Span} :
      Like change (.literal value span) (.literal (change value) span')
  | identifier {name : String} {span span' : Span} :
      Like change (.identifier ⟨name, span⟩) (.identifier ⟨name, span'⟩)
  | member {object object' : Expr} {name : String} {span span' all all' : Span}
      (hobject : Like change object object') :
      Like change (.member object ⟨name, span⟩ all) (.member object' ⟨name, span'⟩ all')

inductive Stmt.Like (change : Literal → Literal) : Stmt → Stmt → Prop where
  | imports {name source source' : String} {span span' place place' all all' : Span}
      (hsource : change (.string source) = .string source') :
      Like change (.imports ⟨name, span⟩ ⟨source, place⟩ all)
        (.imports ⟨name, span'⟩ ⟨source', place'⟩ all')
  | binds {name : String} {value value' : Expr} {span span' all all' : Span}
      (hvalue : Expr.Like change value value') :
      Like change (.binds ⟨name, span⟩ value all) (.binds ⟨name, span'⟩ value' all')
  | exports {name : String} {value value' : Expr} {span span' all all' : Span}
      (hvalue : Expr.Like change value value') :
      Like change (.exports ⟨name, span⟩ value all) (.exports ⟨name, span'⟩ value' all')

theorem TokenKind.changed_of_none {kind : TokenKind} (h : kind.literal? = none) :
    kind.changed change = kind := by
  rw [TokenKind.changed, h]

/-- Tokens one for one, of the same kinds but for changed literals. -/
abbrev LikeTokens (change : Literal → Literal) : List Token → List Token → Prop :=
  List.Forall₂ fun token token' => token'.kind = token.kind.changed change

theorem split_likeTokens {front back tokens' : List Token} (h : LikeTokens change (front ++ back) tokens') :
    ∃ front' back', tokens' = front' ++ back' ∧ LikeTokens change front front' ∧
      LikeTokens change back back' := by
  induction front generalizing tokens' with
  | nil => exact ⟨[], tokens', rfl, .nil, h⟩
  | cons token front ih =>
    obtain _ | ⟨htoken, hrest⟩ := h
    obtain ⟨front', back', rfl, hfront, hback⟩ := ih hrest
    exact ⟨_ :: front', back', rfl, .cons htoken hfront, hback⟩

theorem kind_unchanged {token token' : Token} {kind : TokenKind}
    (h : token'.kind = token.kind.changed change) (hkind : token.kind = kind)
    (hliteral : kind.literal? = none) : token'.kind = kind := by
  rw [h, hkind, TokenKind.changed_of_none hliteral]

theorem literal?_ofLiteral (value : Literal) : (TokenKind.ofLiteral value).literal? = some value := by
  cases value <;> rfl

theorem ofLiteral_of_literal? {kind : TokenKind} {value : Literal}
    (h : kind.literal? = some value) : TokenKind.ofLiteral value = kind := by
  cases kind <;> cases h
  all_goals rfl

section Read

variable {tokens tokens' : List Token}

theorem Expr.Continues.like {head head' value : Expr} (h : head.Continues tokens value)
    (hhead : Expr.Like change head head') (htokens : LikeTokens change tokens tokens') :
    ∃ value', head'.Continues tokens' value' ∧ Expr.Like change value value' := by
  induction h generalizing head' tokens' with
  | stop =>
    cases htokens
    exact ⟨head', .stop, hhead⟩
  | property hdot hname _ ih =>
    obtain _ | ⟨hdot', _ | ⟨hname', hbehind⟩⟩ := htokens
    obtain ⟨value', hvalue', hlike⟩ := ih (.member hhead) hbehind
    exact ⟨value', .property (kind_unchanged hdot' hdot rfl) (kind_unchanged hname' hname rfl)
      hvalue', hlike⟩

theorem Expr.ReadFrom.like {value : Expr} (h : Expr.ReadFrom tokens value)
    (htokens : LikeTokens change tokens tokens') :
    ∃ value', Expr.ReadFrom tokens' value' ∧ Expr.Like change value value' := by
  cases h with
  | @literal token value hvalue =>
    obtain _ | ⟨htoken, _ | _⟩ := htokens
    refine ⟨_, .literal ?_, .literal⟩
    rw [htoken, TokenKind.changed, hvalue]
    exact literal?_ofLiteral _
  | chain hname hbehind =>
    obtain _ | ⟨hname', htokens⟩ := htokens
    obtain ⟨value', hvalue', hlike⟩ := hbehind.like .identifier htokens
    exact ⟨value', .chain (kind_unchanged hname' hname rfl) hvalue', hlike⟩

def Stmt.imported? : Stmt → Option String
  | .imports _ source _ => some source.value
  | _ => none

theorem Stmt.ReadFrom.like {stmt : Stmt} (h : Stmt.ReadFrom tokens stmt)
    (hsource : ∀ name, stmt.imported? = some name →
      ∃ name', change (.string name) = .string name')
    (htokens : LikeTokens change tokens tokens') :
    ∃ stmt', Stmt.ReadFrom tokens' stmt' ∧ Stmt.Like change stmt stmt' := by
  cases h with
  | @imports first name between source last text value hfirst hname hbetween hvalue hlast =>
    obtain _ | ⟨hfirst', _ | ⟨hname', _ | ⟨hbetween', _ | ⟨hstring, _ | ⟨hlast', _ | _⟩⟩⟩⟩⟩ := htokens
    obtain ⟨value', hvalue'⟩ := hsource value rfl
    rw [hvalue] at hstring
    change _ = TokenKind.ofLiteral (change (.string value)) at hstring
    rw [hvalue'] at hstring
    exact ⟨_, .imports (kind_unchanged hfirst' hfirst rfl) (kind_unchanged hname' hname rfl)
      (kind_unchanged hbetween' hbetween rfl) hstring (kind_unchanged hlast' hlast rfl),
      .imports hvalue'⟩
  | @binding first name between last make text taken value hfirst hname hbetween hvalue hlast =>
    obtain _ | ⟨hfirst', _ | ⟨hname', _ | ⟨hbetween', hrest⟩⟩⟩ := htokens
    obtain ⟨taken', back', rfl, htaken, hback⟩ := split_likeTokens hrest
    obtain _ | ⟨hlast', _ | _⟩ := hback
    obtain ⟨value', hvalue', hlike⟩ := hvalue.like htaken
    have hword : first.kind.literal? = none := by
      generalize first.kind = kind at hfirst
      cases hfirst <;> rfl
    rw [TokenKind.changed_of_none hword] at hfirst'
    refine ⟨_, .binding (hfirst' ▸ hfirst) (kind_unchanged hname' hname rfl)
      (kind_unchanged hbetween' hbetween rfl) hvalue' (kind_unchanged hlast' hlast rfl), ?_⟩
    generalize first.kind = kind at hfirst
    cases hfirst
    · exact .binds hlike
    · exact .exports hlike

theorem StatementsFrom.like {stmts : List Stmt} (h : StatementsFrom tokens stmts)
    (hsources : ∀ name ∈ stmts.filterMap Stmt.imported?,
      ∃ name', change (.string name) = .string name')
    (htokens : LikeTokens change tokens tokens') :
    ∃ stmts', StatementsFrom tokens' stmts' ∧ List.Forall₂ (Stmt.Like change) stmts stmts' := by
  induction h generalizing tokens' with
  | done =>
    cases htokens
    exact ⟨[], .done, .nil⟩
  | @next front back stmt stmts first then_ ih =>
    obtain ⟨front', back', rfl, hfront, hback⟩ := split_likeTokens htokens
    have hfirst : ∀ name, stmt.imported? = some name →
        ∃ name', change (.string name) = .string name' :=
      fun name hname => hsources name (List.mem_filterMap.mpr ⟨stmt, List.mem_cons_self, hname⟩)
    have hrest : ∀ name ∈ stmts.filterMap Stmt.imported?,
        ∃ name', change (.string name) = .string name' := by
      intro name hname
      obtain ⟨other, hother, himported⟩ := List.mem_filterMap.mp hname
      exact hsources name (List.mem_filterMap.mpr ⟨other, List.mem_cons_of_mem _ hother, himported⟩)
    obtain ⟨stmt', hstmt', hlike⟩ := first.like hfirst hfront
    obtain ⟨stmts', hstmts', hlikes⟩ := ih hrest hback
    exact ⟨stmt' :: stmts', .next hstmt' hstmts', .cons hlike hlikes⟩

end Read

end Interpose.Script
