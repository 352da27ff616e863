import Mathlib.Data.List.Chain
import Interpose.Proofs.Writing

set_option autoImplicit false

namespace Interpose.Script

variable {names : List String} {kind behind : TokenKind} {value : Literal} {tokens : List Token}

/-- The kinds that stand side by side in a module whose imports ask for some of the names. -/
inductive Beside (names : List String) : TokenKind → TokenKind → Prop where
  | word {word : TokenKind} (hword : word ∈ [TokenKind.importWord, .letWord, .exportWord]) :
      Beside names .semicolon word
  | named {word : TokenKind} {name : String}
      (hword : word ∈ [TokenKind.importWord, .letWord, .exportWord]) :
      Beside names word (.identifier name)
  | fromWord {name : String} : Beside names (.identifier name) .fromWord
  | source {name : String} (hname : name ∈ names) : Beside names .fromWord (.string name)
  | equal {name : String} : Beside names (.identifier name) .equal
  | literal {kind : TokenKind} {value : Literal} (hvalue : kind.literal? = some value) :
      Beside names .equal kind
  | first {name : String} : Beside names .equal (.identifier name)
  | dot {name : String} : Beside names (.identifier name) .dot
  | property {name : String} : Beside names .dot (.identifier name)
  | behindName {name : String} : Beside names (.identifier name) .semicolon
  | behindLiteral {kind : TokenKind} {value : Literal} (hvalue : kind.literal? = some value) :
      Beside names kind .semicolon

namespace Beside

theorem behind_literal (h : Beside names kind behind) (hvalue : kind.literal? = some value) :
    behind = .semicolon := by
  cases h with
  | named hword =>
    simp only [List.mem_cons, List.not_mem_nil, or_false] at hword
    rcases hword with rfl | rfl | rfl <;> cases hvalue
  | behindLiteral => rfl
  | _ => cases hvalue

theorem before_literal (h : Beside names kind behind) (hvalue : behind.literal? = some value) :
    kind = .equal ∨ kind = .fromWord ∧ ∃ name ∈ names, value = .string name := by
  cases h with
  | word hword =>
    simp only [List.mem_cons, List.not_mem_nil, or_false] at hword
    rcases hword with rfl | rfl | rfl <;> cases hvalue
  | source hname => exact .inr ⟨rfl, _, hname, (Option.some.inj hvalue).symm⟩
  | literal => exact .inl rfl
  | _ => cases hvalue

theorem before_fromWord (h : Beside names kind .fromWord) : ∃ name, kind = .identifier name := by
  cases h with
  | word hword => simp at hword
  | fromWord => exact ⟨_, rfl⟩
  | literal hvalue => cases hvalue

theorem not_two_names (name other : String) :
    ¬ Beside names (.identifier name) (.identifier other) := by
  intro h
  cases h with
  | named hword => simp at hword

end Beside

/-- Each token fits beside the one before it, the first one beside the end of a statement. -/
def Row (names : List String) (kinds : List TokenKind) : Prop :=
  List.IsChain (Beside names) (.semicolon :: kinds)

theorem isChain_continues {head value : Expr} (h : head.Continues tokens value) (name : String) :
    List.IsChain (Beside names) (.identifier name :: (kinds tokens ++ [.semicolon])) := by
  induction h generalizing name with
  | stop => exact List.isChain_pair.mpr .behindName
  | property hdot hname _ ih =>
    simp only [kinds, List.map_cons, hdot, hname, List.cons_append]
    exact .cons_cons .dot (.cons_cons .property (ih _))

theorem isChain_expr {value : Expr} (h : Expr.ReadFrom tokens value) :
    List.IsChain (Beside names) (.equal :: (kinds tokens ++ [.semicolon])) := by
  cases h with
  | literal hvalue => exact .cons_cons (.literal hvalue) (List.isChain_pair.mpr (.behindLiteral hvalue))
  | chain hname hbehind =>
    simp only [kinds, List.map_cons, hname, List.cons_append]
    exact .cons_cons .first (isChain_continues hbehind _)

theorem row_stmt {stmt : Stmt} (h : Stmt.ReadFrom tokens stmt)
    (hnames : ∀ name ∈ stmt.imported?, name ∈ names) :
    ∃ front, kinds tokens = front ++ [.semicolon] ∧ Row names (front ++ [.semicolon]) := by
  cases h with
  | @imports first name between source last text value hfirst hname hbetween hsource hlast =>
    refine ⟨[.importWord, .identifier text, .fromWord, .string value], ?_, ?_⟩
    · simp [kinds, hfirst, hname, hbetween, hsource, hlast]
    · exact .cons_cons (.word (by simp)) (.cons_cons (.named (by simp)) (.cons_cons .fromWord
        (.cons_cons (.source (hnames value rfl)) (List.isChain_pair.mpr (.behindLiteral rfl)))))
  | @binding first name between last make text taken value hfirst hname hbetween hvalue hlast =>
    have hword : first.kind ∈ [TokenKind.importWord, .letWord, .exportWord] := by
      generalize first.kind = kind at hfirst
      cases hfirst <;> simp
    refine ⟨first.kind :: .identifier text :: .equal :: kinds taken, ?_, ?_⟩
    · simp [kinds, hname, hbetween, hlast]
    · exact .cons_cons (.word hword) (.cons_cons (.named hword) (.cons_cons .equal
        (isChain_expr hvalue)))

theorem row_of_statements {stmts : List Stmt} (h : StatementsFrom tokens stmts)
    (hnames : ∀ name ∈ stmts.filterMap Stmt.imported?, name ∈ names) : Row names (kinds tokens) := by
  induction h with
  | done => exact .singleton _
  | @next front back stmt stmts first then_ ih =>
    have hfirst : ∀ name ∈ stmt.imported?, name ∈ names := fun name hname =>
      hnames name (List.mem_filterMap.mpr ⟨stmt, List.mem_cons_self, hname⟩)
    have hbehind : ∀ name ∈ stmts.filterMap Stmt.imported?, name ∈ names := by
      intro name hname
      obtain ⟨other, hother, himported⟩ := List.mem_filterMap.mp hname
      exact hnames name (List.mem_filterMap.mpr ⟨other, List.mem_cons_of_mem _ hother, himported⟩)
    obtain ⟨kinds', hkinds, hrow⟩ := row_stmt first hfirst
    have hall : List.IsChain (Beside names) ((.semicolon :: kinds') ++ .semicolon :: kinds back) :=
      List.isChain_split.mpr ⟨hrow, ih hbehind⟩
    rw [kinds, List.map_append, show front.map Token.kind = kinds' ++ [.semicolon] from hkinds,
      List.append_assoc]
    exact hall

theorem source_infix {stmts : List Stmt} (h : StatementsFrom tokens stmts) {name : String}
    (hname : name ∈ stmts.filterMap Stmt.imported?) :
    [.fromWord, .string name] <:+: kinds tokens := by
  induction h with
  | done => cases hname
  | @next front back stmt stmts first then_ ih =>
    rw [kinds, List.map_append]
    obtain ⟨other, hother, himported⟩ := List.mem_filterMap.mp hname
    rcases List.mem_cons.mp hother with rfl | hother
    · refine List.IsInfix.trans ?_ (List.prefix_append _ _).isInfix
      cases first with
      | @imports first name' between source last text value hfirst hname' hbetween hsource hlast =>
        cases himported
        exact ⟨[first.kind, name'.kind], [last.kind], by simp [hbetween, hsource]⟩
      | binding hfirst =>
        generalize (Token.kind _) = kind at hfirst
        cases hfirst <;> cases himported
    · exact (ih (List.mem_filterMap.mpr ⟨other, hother, himported⟩)).trans
        (List.suffix_append _ _).isInfix

section Texts

variable {text rest gap last : List Char}

theorem ofWord_text (word : String) : (TokenKind.ofWord word).text = word := by
  unfold TokenKind.ofWord
  repeat' split
  all_goals
    subst_vars
    rfl

theorem Reads.text_eq (h : Reads kind text rest) (hkind : kind.literal? = none) :
    text = kind.text.toList := by
  cases h with
  | equal | dot | semicolon => rfl
  | string => cases hkind
  | integer hfirst hdigits hstop hinteger =>
    obtain ⟨n, rfl⟩ := eq_integer_of_integerKind hinteger
    cases hkind
  | word => rw [ofWord_text, String.toList_ofList]

theorem IsGap.separates (h : IsGap gap rest) (hgap : gap ≠ []) (more : List Char) :
    Separates (gap ++ more) := by
  obtain ⟨first, gap, rfl⟩ := List.exists_cons_of_ne_nil hgap
  rintro c ⟨⟩
  by_contra hneither
  obtain ⟨hblank, hslash⟩ := not_or.mp hneither
  have hskip := congrArg Cursor.rest (h .start)
  rw [List.cons_append, skipTrivia, if_neg Bool.false_ne_true, if_neg hblank,
    if_neg fun hboth => hslash hboth.1] at hskip
  have hlength := congrArg List.length hskip
  simp only [List.length_cons, List.length_append] at hlength
  omega

/-- Nothing that a number or a word could go on with stands before a semicolon. -/
theorem stopsAt_spell {lexemes : List Lexeme} (h : Fit lexemes last)
    (hnext : ∀ lexeme ∈ lexemes.head?, lexeme.kind = .semicolon) :
    StopsAt isWordPart (spell lexemes last) := by
  cases h with
  | done hgap =>
    by_cases hlast : last = []
    · simp [spell, hlast, StopsAt]
    · have hstop := (hgap.separates hlast []).stopsAt.1
      rwa [List.append_nil] at hstop
  | @token lexeme behind last hgap hspells hbehind =>
    by_cases hnone : lexeme.gap = []
    · have hreads := reads_of_spells hspells
      rw [hnext lexeme rfl] at hreads
      rw [spell, hnone, hreads.text_eq rfl]
      rintro c ⟨⟩
      decide +kernel
    · exact (hgap.separates hnone _).stopsAt.1

end Texts

end Interpose.Script
