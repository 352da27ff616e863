import Interpose.Proofs.Lossless

set_option autoImplicit false

namespace Interpose.Script
open Edit SyntaxTree

section Nested

/-- The earlier node ends before the later one begins, or it stands inside it. -/
def Node.ApartOrInside (earlier later : Node) : Prop :=
  earlier.span.stop.offset ≤ later.span.start.offset ∨
    later.span.start.offset ≤ earlier.span.start.offset ∧
      earlier.span.stop.offset ≤ later.span.stop.offset

def Node.IsBetween (first stop : Nat) (node : Node) : Prop :=
  first ≤ node.span.start.offset ∧ node.span.start.offset < node.span.stop.offset ∧
    node.span.stop.offset ≤ stop

mutual

theorem nested_postOrder : ∀ (tree : SyntaxTree), tree.Laid →
    tree.postOrder.Pairwise Node.ApartOrInside ∧
      ∀ node ∈ tree.postOrder, node.IsBetween tree.first tree.stop
  | .branch node parts, h => by
    rw [Laid] at h
    obtain ⟨hlong, hparts⟩ := h
    obtain ⟨hnested, hbetween⟩ := nested_postOrders parts hparts
    have hself : node.IsBetween node.span.start.offset node.span.stop.offset :=
      ⟨Nat.le_refl _, hlong, Nat.le_refl _⟩
    rw [postOrder]
    refine ⟨List.pairwise_append.mpr ⟨hnested, List.pairwise_singleton _ _, ?_⟩,
      List.forall_mem_append.mpr ⟨hbetween, List.forall_mem_singleton.mpr hself⟩⟩
    intro part hpart
    obtain ⟨hfirst, _, hstop⟩ := hbetween part hpart
    exact List.forall_mem_singleton.mpr (.inr ⟨hfirst, hstop⟩)

theorem nested_postOrders : ∀ (parts : List SyntaxTree) {first stop : Nat}, LaidIn first stop parts →
    (postOrders parts).Pairwise Node.ApartOrInside ∧
      ∀ node ∈ postOrders parts, node.IsBetween first stop
  | [], _, _, _ => ⟨.nil, fun _ h => nomatch h⟩
  | part :: rest, first, stop, h => by
    rw [LaidIn] at h
    obtain ⟨hfirst, hpart, hrest⟩ := h
    have hlong := hpart.first_lt_stop
    have hstop := hrest.le
    obtain ⟨hnested, hbetween⟩ := nested_postOrder part hpart
    obtain ⟨hnested', hbetween'⟩ := nested_postOrders rest hrest
    rw [postOrders]
    refine ⟨List.pairwise_append.mpr ⟨hnested, hnested', ?_⟩, List.forall_mem_append.mpr ⟨?_, ?_⟩⟩
    · intro earlier hearlier later hlater
      have hend := (hbetween earlier hearlier).2.2
      have hbegin := (hbetween' later hlater).1
      exact .inl (Nat.le_trans hend hbegin)
    · intro node hnode
      obtain ⟨hbegin, htext, hend⟩ := hbetween node hnode
      exact ⟨by omega, htext, by omega⟩
    · intro node hnode
      obtain ⟨hbegin, htext, hend⟩ := hbetween' node hnode
      exact ⟨by omega, htext, hend⟩

end

end Nested

section Tokens

variable {tokens more : List Token}

/-- The node begins and ends with tokens; a name or a literal is one of them. -/
structure Node.StandsOn (tokens : List Token) (node : Node) : Prop where
  span : ∃ first ∈ tokens, ∃ last ∈ tokens, node.span = ⟨first.start, last.stop⟩
  name : node.kind = .identifier → ∃ token ∈ tokens, ∃ name, token.kind = .identifier name ∧
    node = .ofIdent ⟨name, token.span⟩
  literal : node.kind = .literal → ∃ token ∈ tokens, ∃ value, token.kind.literal? = some value ∧
    node = .ofLiteral value token.span

namespace Node.StandsOn

theorem mono {node : Node} (h : node.StandsOn tokens) (hmore : tokens ⊆ more) :
    node.StandsOn more := by
  refine ⟨?_, fun hkind => ?_, fun hkind => ?_⟩
  · obtain ⟨first, hfirst, last, hlast, hspan⟩ := h.span
    exact ⟨first, hmore hfirst, last, hmore hlast, hspan⟩
  · obtain ⟨token, htoken, hname⟩ := h.name hkind
    exact ⟨token, hmore htoken, hname⟩
  · obtain ⟨token, htoken, hvalue⟩ := h.literal hkind
    exact ⟨token, hmore htoken, hvalue⟩

theorem ofIdent {token : Token} {name : String} (htoken : token ∈ tokens)
    (hname : token.kind = .identifier name) : (Node.ofIdent ⟨name, token.span⟩).StandsOn tokens :=
  ⟨⟨token, htoken, token, htoken, rfl⟩, fun _ => ⟨token, htoken, name, hname, rfl⟩, nofun⟩

theorem ofLiteral {token : Token} {value : Literal} (htoken : token ∈ tokens)
    (hvalue : token.kind.literal? = some value) : (Node.ofLiteral value token.span).StandsOn tokens :=
  ⟨⟨token, htoken, token, htoken, rfl⟩, nofun, fun _ => ⟨token, htoken, value, hvalue, rfl⟩⟩

theorem ofParts {kind : NodeKind} {first last : Token} (hkind : kind ≠ .identifier ∧ kind ≠ .literal)
    (hfirst : first ∈ tokens) (hlast : last ∈ tokens) :
    (Node.ofParts kind ⟨first.start, last.stop⟩).StandsOn tokens :=
  ⟨⟨first, hfirst, last, hlast, rfl⟩, fun h => absurd h hkind.1, fun h => absurd h hkind.2⟩

end Node.StandsOn

theorem Node.StandsOn.text {node : Node} (h : node.StandsOn tokens) {source : String}
    (hreads : ∀ token ∈ tokens, ∃ rest, Reads token.kind (token.span.textIn source).toList rest) :
    (node.kind = .identifier → node.name = some (node.span.textIn source)) ∧
      (node.kind = .literal → ∃ value, node.literal = some value ∧
        IsTextOf (node.span.textIn source) value) := by
  refine ⟨fun hkind => ?_, fun hkind => ?_⟩
  · obtain ⟨token, htoken, name, hname, rfl⟩ := h.name hkind
    obtain ⟨rest, hread⟩ := hreads token htoken
    rw [hname] at hread
    have htext : (token.span.textIn source).toList = name.toList := hread.text_eq rfl
    exact congrArg some (String.toList_injective htext).symm
  · obtain ⟨token, htoken, value, hvalue, rfl⟩ := h.literal hkind
    obtain ⟨rest, hread⟩ := hreads token htoken
    have halone := hread.isToken
    rw [String.ofList_toList, ← ofLiteral_of_literal? hvalue] at halone
    exact ⟨value, rfl, halone⟩

theorem Expr.mem_nodesBefore {value : Expr} {node : Node} {rest : List Node} :
    node ∈ value.nodesBefore rest ↔ node ∈ value.nodesBefore [] ∨ node ∈ rest := by
  rw [← List.nil_append rest, nodesBefore_append, List.mem_append, List.nil_append]

theorem Expr.Continues.standsOn {head value : Expr} {front : List Token}
    (h : head.Continues tokens value) (hnodes : ∀ node ∈ head.nodesBefore [], node.StandsOn front)
    (hhead : ∃ first ∈ front, head.span.start = first.start) :
    ∀ node ∈ value.nodesBefore [], node.StandsOn (front ++ tokens) := by
  induction h generalizing front with
  | stop => rwa [List.append_nil]
  | @property head value dot token behind name hdot hname _ ih =>
    obtain ⟨first, hfirst, hstart⟩ := hhead
    rw [show front ++ dot :: token :: behind = (front ++ [dot, token]) ++ behind by simp]
    have hlast : token ∈ front ++ [dot, token] := by simp
    have hstarts : first ∈ front ++ [dot, token] := List.mem_append_left _ hfirst
    refine ih ?_ ⟨first, hstarts, hstart⟩
    intro node hnode
    rw [nodesBefore, mem_nodesBefore, List.mem_cons, List.mem_singleton] at hnode
    rcases hnode with hnode | rfl | rfl
    · exact (hnodes node hnode).mono (List.subset_append_left _ _)
    · exact .ofIdent hlast hname
    · rw [hstart]
      exact .ofParts (by decide) hstarts hlast

theorem Expr.ReadFrom.standsOn {value : Expr} (h : Expr.ReadFrom tokens value) :
    ∀ node ∈ value.nodesBefore [], node.StandsOn tokens := by
  cases h with
  | literal hvalue => exact List.forall_mem_singleton.mpr (.ofLiteral List.mem_cons_self hvalue)
  | @chain token behind name value hname hbehind =>
    have hnode : (Node.ofIdent ⟨name, token.span⟩).StandsOn [token] := .ofIdent List.mem_cons_self hname
    have hfirst : ∃ first ∈ [token], (Expr.identifier ⟨name, token.span⟩).span.start = first.start :=
      ⟨token, List.mem_cons_self, rfl⟩
    exact hbehind.standsOn (List.forall_mem_singleton.mpr hnode) hfirst

theorem Stmt.ReadFrom.standsOn {stmt : Stmt} (h : Stmt.ReadFrom tokens stmt) :
    ∀ node ∈ stmt.nodes, node.StandsOn tokens := by
  cases h with
  | @imports first name between source last text value hfirst hname hbetween hsource hlast =>
    have hvalue : source.kind.literal? = some (.string value) := by
      rw [hsource]
      rfl
    refine List.forall_mem_cons.mpr ⟨.ofIdent (by simp) hname, List.forall_mem_cons.mpr
      ⟨.ofLiteral (by simp) hvalue, List.forall_mem_singleton.mpr ?_⟩⟩
    exact .ofParts (by decide) (by simp) (by simp)
  | @binding first name between last make text taken value hfirst hname hbetween hvalue hlast =>
    have hnodes : ∀ kind, kind ≠ .identifier ∧ kind ≠ .literal →
        ∀ node ∈ Node.ofIdent ⟨text, name.span⟩ ::
          value.nodesBefore [.ofParts kind ⟨first.start, last.stop⟩],
          node.StandsOn (first :: name :: between :: (taken ++ [last])) := by
      intro kind hkind
      refine List.forall_mem_cons.mpr ⟨.ofIdent (by simp) hname, fun node hnode => ?_⟩
      rw [Expr.mem_nodesBefore, List.mem_singleton] at hnode
      rcases hnode with hnode | rfl
      · refine (hvalue.standsOn node hnode).mono fun token htoken => ?_
        simp [htoken]
      · exact .ofParts hkind (by simp) (by simp)
    generalize first.kind = word at hfirst
    cases hfirst
    · exact hnodes .letDecl (by decide)
    · exact hnodes .exportDecl (by decide)

theorem StatementsFrom.standsOn {stmts : List Stmt} (h : StatementsFrom tokens stmts) :
    ∀ node ∈ stmts.flatMap Stmt.nodes, node.StandsOn tokens := by
  induction h with
  | done => exact fun _ h => nomatch h
  | next first then_ ih =>
    rw [List.flatMap_cons]
    exact List.forall_mem_append.mpr
      ⟨fun node hnode => (first.standsOn node hnode).mono (List.subset_append_left _ _),
        fun node hnode => (ih node hnode).mono (List.subset_append_right _ _)⟩

end Tokens

section Members

def Expr.head : Expr → Expr
  | .member object _ _ => object.head
  | value => value

/-- The expression, behind what it is a property of. -/
def Expr.chain : Expr → List Expr
  | .member object property span => object.chain ++ [.member object property span]
  | value => [value]

def Program.expressions (program : Program) : List Expr :=
  (program.statements.filterMap Stmt.value?).flatMap Expr.chain

theorem Expr.exists_member {value : Expr} {node : Node} (hnode : node ∈ value.nodesBefore [])
    (hkind : node.kind = .memberExpr) :
    ∃ object property, .member object property node.span ∈ value.chain := by
  induction value with
  | literal value span =>
    obtain rfl := List.mem_singleton.mp hnode
    cases hkind
  | identifier name =>
    obtain rfl := List.mem_singleton.mp hnode
    cases hkind
  | member object property span ih =>
    rw [nodesBefore, mem_nodesBefore, List.mem_cons, List.mem_singleton] at hnode
    rcases hnode with hnode | rfl | rfl
    · obtain ⟨object', property', hmember⟩ := ih hnode
      exact ⟨object', property', List.mem_append_left _ hmember⟩
    · cases hkind
    · exact ⟨object, property, List.mem_append_right _ (List.mem_singleton_self _)⟩

theorem Stmt.exists_member {stmt : Stmt} {node : Node} (hnode : node ∈ stmt.nodes)
    (hkind : node.kind = .memberExpr) :
    ∃ value ∈ stmt.value?, ∃ object property, .member object property node.span ∈ value.chain := by
  have hbinding : ∀ {name : Ident} {value : Expr} {kind : NodeKind} {span : Span},
      kind ≠ .memberExpr → node ∈ Node.ofIdent name :: value.nodesBefore [.ofParts kind span] →
      ∃ object property, .member object property node.span ∈ value.chain := by
    intro name value kind span hother hnode
    rw [List.mem_cons, Expr.mem_nodesBefore, List.mem_singleton] at hnode
    rcases hnode with rfl | hnode | rfl
    · cases hkind
    · exact Expr.exists_member hnode hkind
    · exact absurd hkind hother
  cases stmt with
  | imports binding source span =>
    simp only [nodes, List.mem_cons, List.not_mem_nil, or_false] at hnode
    rcases hnode with rfl | rfl | rfl <;> cases hkind
  | binds name value span => exact ⟨value, rfl, hbinding (by decide) hnode⟩
  | exports name value span => exact ⟨value, rfl, hbinding (by decide) hnode⟩

/-- A chain begins where its head begins. -/
theorem Expr.Placed.start_head {value : Expr} {tokens : List Token} (h : value.Placed tokens) :
    value.span.start = value.head.span.start := by
  induction value generalizing tokens with
  | literal | identifier => rfl
  | member object property span ih =>
    obtain ⟨front, dot, token, rfl, hobject, hproperty, first, hfirst, last, hlast, rfl⟩ := h
    obtain ⟨first', hfirst', last', hlast', hspan⟩ := hobject.covers
    obtain rfl := Option.mem_unique hfirst (List.mem_head?_append_of_mem_head? hfirst')
    rw [head, ← ih hobject, hspan]
    rfl

theorem Expr.Placed.member {value : Expr} {tokens : List Token} (h : value.Placed tokens)
    {object : Expr} {property : Ident} {span : Span}
    (hmember : .member object property span ∈ value.chain) :
    span.start = object.head.span.start ∧ span.stop = property.span.stop := by
  induction value generalizing tokens with
  | literal | identifier => simp [chain] at hmember
  | member object' property' span' ih =>
    have hstart := h.start_head
    obtain ⟨front, dot, token, rfl, hobject, hproperty, first, hfirst, last, hlast, hspan⟩ := h
    rcases List.mem_append.mp hmember with hmember | hmember
    · exact ih hobject hmember
    · cases List.mem_singleton.mp hmember
      refine ⟨hstart, ?_⟩
      rw [hproperty, hspan]
      simp only [List.getLast?_append, List.getLast?_cons_cons, List.getLast?_singleton,
        Option.some_or, Option.mem_some] at hlast
      rw [← hlast]
      rfl

theorem StatementsFrom.exists_readFrom {tokens : List Token} {stmts : List Stmt}
    (h : StatementsFrom tokens stmts) {stmt : Stmt} (hstmt : stmt ∈ stmts) :
    ∃ part, Stmt.ReadFrom part stmt := by
  induction h with
  | done => cases hstmt
  | next first then_ ih =>
    rcases List.mem_cons.mp hstmt with rfl | hstmt
    · exact ⟨_, first⟩
    · exact ih hstmt

theorem exists_member {program : Program} {tokens : List Token}
    (h : StatementsFrom tokens program.statements) {node : Node}
    (hnode : node ∈ program.statements.flatMap Stmt.nodes) (hkind : node.kind = .memberExpr) :
    ∃ object property, Expr.member object property node.span ∈ program.expressions ∧
      node.span.start = object.head.span.start ∧ node.span.stop = property.span.stop := by
  obtain ⟨stmt, hstmt, hnode⟩ := List.mem_flatMap.mp hnode
  obtain ⟨value, hvalue, object, property, hmember⟩ := Stmt.exists_member hnode hkind
  have hexpressions : Expr.member object property node.span ∈ program.expressions :=
    List.mem_flatMap.mpr ⟨value, List.mem_filterMap.mpr ⟨stmt, hstmt, hvalue⟩, hmember⟩
  obtain ⟨part, hread⟩ := h.exists_readFrom hstmt
  obtain ⟨_, _, _, hplaced⟩ := hread.derived.value value hvalue
  exact ⟨object, property, hexpressions, hplaced.member hmember⟩

end Members

/-- The last node is the program, over the whole source; all others have text. Of two nodes the
earlier one ends before the later one begins or stands inside it, and no node ends inside a character.
The text of a name is the name, that of a literal is read as the literal and nothing else, and an
expression with a property goes from the head of its chain to the end of the property. -/
theorem spans_nested {source : String} {program : Program} (h : parseText source = .ok program) :
    (∃ parts, program.nodes = parts ++ [.ofParts .program program.span] ∧
      program.span.start.offset = 0 ∧ program.span.stop.offset = source.utf8ByteSize ∧
      ∀ node ∈ parts, node.span.start.offset < node.span.stop.offset) ∧
    program.nodes.Pairwise Node.ApartOrInside ∧
    ∀ node ∈ program.nodes,
      String.Pos.Raw.IsValid source ⟨node.span.start.offset⟩ ∧
      String.Pos.Raw.IsValid source ⟨node.span.stop.offset⟩ ∧
      (node.kind = .identifier → node.name = some (node.span.textIn source)) ∧
      (node.kind = .literal → ∃ value, node.literal = some value ∧
        IsTextOf (node.span.textIn source) value) ∧
      (node.kind = .memberExpr → ∃ object property,
        Expr.member object property node.span ∈ program.expressions ∧
        node.span.start = object.head.span.start ∧ node.span.stop = property.span.stop) := by
  obtain ⟨lexemes, last, hfit, hspell, hstatements, hspan⟩ := parseText_iff.mp h
  have horder := hfit.inOrder .start
  rw [← hspell, Position.offset_advance_toList] at horder
  obtain ⟨hnested, hbetween⟩ := nested_postOrders _ (hstatements.laid horder)
  rw [postOrders_map] at hnested hbetween
  have hstart : program.span.start.offset = 0 := by rw [hspan]; rfl
  have hstop : program.span.stop.offset = source.utf8ByteSize := by
    rw [hspan, Position.offset_advance_toList]
  refine ⟨⟨_, rfl, hstart, hstop, fun node hnode => (hbetween node hnode).2.1⟩, ?_, ?_⟩
  · refine List.pairwise_append.mpr ⟨hnested, List.pairwise_singleton _ _, fun node hnode => ?_⟩
    obtain ⟨_, _, hend⟩ := hbetween node hnode
    exact List.forall_mem_singleton.mpr (.inr ⟨hstart ▸ Nat.zero_le _, hstop ▸ hend⟩)
  · have hsource : source.toList = [] ++ spell lexemes last := hspell
    obtain ⟨_, hreads⟩ := hfit.tiles hsource
    have hplaces := isIn_of_tokenize (tokenize_iff.mpr ⟨lexemes, last, hfit, hspell, rfl⟩)
    refine List.forall_mem_append.mpr ⟨fun node hnode => ?_, List.forall_mem_singleton.mpr ?_⟩
    · have hstands := hstatements.standsOn node hnode
      obtain ⟨hname, hliteral⟩ := hstands.text hreads
      obtain ⟨first, hfirst, last, hlast, hnodeSpan⟩ := hstands.span
      refine ⟨?_, ?_, hname, hliteral, exists_member hstatements hnode⟩
      · rw [hnodeSpan]
        exact (hplaces first (List.mem_append_left _ hfirst)).1.isValid
      · rw [hnodeSpan]
        exact (hplaces last (List.mem_append_left _ hlast)).2.isValid
    · have hbegin : Position.start.IsIn source :=
        Position.isIn_advance (show source.toList = [] ++ source.toList from rfl)
      have hend : (Position.start.advance source.toList).IsIn source :=
        Position.isIn_advance (List.append_nil _).symm
      refine ⟨?_, ?_, nofun, nofun, nofun⟩
      · rw [show (Node.ofParts .program program.span).span = program.span from rfl, hspan]
        exact hbegin.isValid
      · rw [show (Node.ofParts .program program.span).span = program.span from rfl, hspan]
        exact hend.isValid

def chainedSource : String := "import é from\"ü\";let x=é.b.c;//"

theorem spans_nested_chained : ∃ program, parseText chainedSource = .ok program ∧
    (program.nodes.map fun node => (node.kind, node.span.textIn chainedSource)) =
      [(.identifier, "é"), (.literal, "\"ü\""), (.importDecl, "import é from\"ü\";"),
        (.identifier, "x"), (.identifier, "é"), (.identifier, "b"), (.memberExpr, "é.b"),
        (.identifier, "c"), (.memberExpr, "é.b.c"), (.letDecl, "let x=é.b.c;"),
        (.program, chainedSource)] ∧
    program.nodes.Pairwise Node.ApartOrInside ∧
    ∀ node ∈ program.nodes, String.Pos.Raw.IsValid chainedSource ⟨node.span.stop.offset⟩ := by
  have htexts : (parseText chainedSource).toOption.map
      (fun program => program.nodes.map fun node => (node.kind, node.span.textIn chainedSource)) =
      some [(.identifier, "é"), (.literal, "\"ü\""), (.importDecl, "import é from\"ü\";"),
        (.identifier, "x"), (.identifier, "é"), (.identifier, "b"), (.memberExpr, "é.b"),
        (.identifier, "c"), (.memberExpr, "é.b.c"), (.letDecl, "let x=é.b.c;"),
        (.program, chainedSource)] := by decide +kernel
  rcases hparse : parseText chainedSource with cause | program
  all_goals rw [hparse] at htexts
  · cases htexts
  obtain ⟨_, hnested, hnodes⟩ := spans_nested hparse
  exact ⟨program, rfl, Option.some.inj htexts, hnested, fun node hnode => (hnodes node hnode).2.1⟩

end Interpose.Script
