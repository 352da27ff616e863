import Interpose.Proofs.Grammar
import Interpose.Script.Node

set_option autoImplicit false

namespace Interpose.Script

/-- A node, and the trees of its parts in the order of the text. -/
inductive SyntaxTree where
  | branch (node : Node) (parts : List SyntaxTree)

namespace SyntaxTree

def leaf (node : Node) : SyntaxTree := .branch node []

def root : SyntaxTree → Node
  | .branch node _ => node

def first (tree : SyntaxTree) : Nat := tree.root.span.start.offset

def stop (tree : SyntaxTree) : Nat := tree.root.span.stop.offset

mutual

def postOrder : SyntaxTree → List Node
  | .branch node parts => postOrders parts ++ [node]

def postOrders : List SyntaxTree → List Node
  | [] => []
  | part :: rest => part.postOrder ++ postOrders rest

end

mutual

/-- A node has text of its own, and its parts stand inside it. -/
def Laid : SyntaxTree → Prop
  | .branch node parts =>
    node.span.start.offset < node.span.stop.offset ∧
      LaidIn node.span.start.offset node.span.stop.offset parts

/-- Trees that stand one behind the other between two places. -/
def LaidIn : Nat → Nat → List SyntaxTree → Prop
  | first, stop, [] => first ≤ stop
  | first, stop, part :: rest => first ≤ part.first ∧ part.Laid ∧ LaidIn part.stop stop rest

end

end SyntaxTree

open SyntaxTree

def Expr.tree : Expr → SyntaxTree
  | literal value span => .leaf (.ofLiteral value span)
  | identifier name => .leaf (.ofIdent name)
  | member object property span =>
    .branch (.ofParts .memberExpr span) [object.tree, .leaf (.ofIdent property)]

def Stmt.tree : Stmt → SyntaxTree
  | imports binding source span =>
    .branch (.ofParts .importDecl span) [.leaf (.ofIdent binding), .leaf (.ofModuleName source)]
  | binds name value span =>
    .branch (.ofParts .letDecl span) [.leaf (.ofIdent name), value.tree]
  | exports name value span =>
    .branch (.ofParts .exportDecl span) [.leaf (.ofIdent name), value.tree]

def Program.tree (program : Program) : SyntaxTree :=
  .branch (.ofParts .program program.span) (program.statements.map Stmt.tree)

section PostOrder

@[simp] theorem SyntaxTree.postOrder_leaf (node : Node) : (leaf node).postOrder = [node] := rfl

theorem Expr.postOrder_tree (value : Expr) : value.tree.postOrder = value.nodesBefore [] := by
  induction value with
  | literal value span => rfl
  | identifier name => rfl
  | member object property span ih =>
    simp only [tree, postOrder, postOrders, postOrder_leaf, ih, nodesBefore, List.append_nil,
      List.append_assoc, List.cons_append, List.nil_append]
    rw [← nodesBefore_append, List.nil_append]

theorem Stmt.postOrder_tree (stmt : Stmt) : stmt.tree.postOrder = stmt.nodes := by
  cases stmt with
  | imports binding source span => rfl
  | binds name value span =>
    simp only [tree, postOrder, postOrders, postOrder_leaf, Expr.postOrder_tree, nodes,
      List.append_nil, List.cons_append, List.nil_append]
    rw [← Expr.nodesBefore_append, List.nil_append]
  | exports name value span =>
    simp only [tree, postOrder, postOrders, postOrder_leaf, Expr.postOrder_tree, nodes,
      List.append_nil, List.cons_append, List.nil_append]
    rw [← Expr.nodesBefore_append, List.nil_append]

theorem SyntaxTree.postOrders_map (stmts : List Stmt) :
    postOrders (stmts.map Stmt.tree) = stmts.flatMap Stmt.nodes := by
  induction stmts with
  | nil => rfl
  | cons stmt rest ih => rw [List.map_cons, postOrders, Stmt.postOrder_tree, ih, List.flatMap_cons]

theorem Program.postOrder_tree (program : Program) : program.tree.postOrder = program.nodes := by
  rw [tree, postOrder, postOrders_map, nodes]

end PostOrder

def InOrder : Nat → List Token → Nat → Prop
  | first, [], stop => first ≤ stop
  | first, token :: rest, stop =>
    first ≤ token.start.offset ∧ token.start.offset < token.stop.offset ∧
      InOrder token.stop.offset rest stop

namespace InOrder

variable {first stop : Nat} {tokens : List Token}

theorem le (h : InOrder first tokens stop) : first ≤ stop := by
  induction tokens generalizing first with
  | nil => exact h
  | cons token rest ih =>
    obtain ⟨hstart, hlong, hrest⟩ := h
    have hstop := ih hrest
    omega

theorem split {front back : List Token} (h : InOrder first (front ++ back) stop) :
    ∃ middle, InOrder first front middle ∧ InOrder middle back stop := by
  induction front generalizing first with
  | nil => exact ⟨first, Nat.le_refl first, h⟩
  | cons token front ih =>
    obtain ⟨hstart, hlong, hrest⟩ := h
    obtain ⟨middle, hfront, hback⟩ := ih hrest
    exact ⟨middle, ⟨hstart, hlong, hfront⟩, hback⟩

end InOrder

theorem Position.offset_advance (p : Position) (cs : List Char) :
    (p.advance cs).offset = p.offset + (String.ofList cs).utf8ByteSize := by
  induction cs generalizing p with
  | nil => rfl
  | cons c cs ih =>
    rw [advance_cons, ih, next_offset, String.ofList_cons, String.utf8ByteSize_append,
      String.utf8ByteSize_singleton, Nat.add_assoc]

theorem Position.offset_advance_toList (source : String) :
    (start.advance source.toList).offset = source.utf8ByteSize := by
  rw [offset_advance, String.ofList_toList]
  exact Nat.zero_add _

theorem Position.offset_le_advance (p : Position) (cs : List Char) :
    p.offset ≤ (p.advance cs).offset := by
  rw [offset_advance]
  exact Nat.le_add_right ..

theorem Position.offset_lt_advance (p : Position) {cs : List Char} (h : 0 < cs.length) :
    p.offset < (p.advance cs).offset := by
  cases cs with
  | nil => cases h
  | cons c cs => exact Nat.lt_of_lt_of_le (p.offset_lt_next c) ((p.next c).offset_le_advance cs)

theorem Fit.inOrder {lexemes : List Lexeme} {last : List Char} (h : Fit lexemes last)
    (p : Position) :
    InOrder p.offset (tokensOf p lexemes) (p.advance (spell lexemes last)).offset := by
  induction h generalizing p with
  | done _ => exact p.offset_le_advance _
  | token _ spells _ ih =>
    rw [spell, Position.advance_append, Position.advance_append]
    exact ⟨p.offset_le_advance _, Position.offset_lt_advance _ spells.length_pos, ih _⟩

section Laid

variable {first stop : Nat} {tokens : List Token}

theorem SyntaxTree.Laid.first_lt_stop {tree : SyntaxTree} (h : tree.Laid) :
    tree.first < tree.stop := by
  cases tree with
  | branch node parts => exact h.1

theorem SyntaxTree.laid_leaf {node : Node} :
    (leaf node).Laid ↔ node.span.start.offset < node.span.stop.offset := by
  unfold leaf Laid LaidIn
  exact ⟨fun h => h.1, fun h => ⟨h, Nat.le_of_lt h⟩⟩

theorem SyntaxTree.laidIn_one {tree : SyntaxTree} :
    LaidIn first stop [tree] ↔ first ≤ tree.first ∧ tree.Laid ∧ tree.stop ≤ stop := by
  unfold LaidIn LaidIn
  rfl

theorem SyntaxTree.LaidIn.le {parts : List SyntaxTree} (h : LaidIn first stop parts) :
    first ≤ stop := by
  induction parts generalizing first with
  | nil => exact h
  | cons part rest ih =>
    obtain ⟨hfirst, hpart, hrest⟩ := h
    have hlong := hpart.first_lt_stop
    have hstop := ih hrest
    omega

theorem SyntaxTree.LaidIn.earlier {parts : List SyntaxTree} (h : LaidIn first stop parts)
    {before : Nat} (hbefore : before ≤ first) : LaidIn before stop parts := by
  cases parts with
  | nil => exact Nat.le_trans hbefore h
  | cons part rest => exact ⟨Nat.le_trans hbefore h.1, h.2⟩

theorem Expr.span_root (value : Expr) : value.tree.root.span = value.span := by
  cases value <;> rfl

theorem Expr.first_tree (value : Expr) : value.tree.first = value.span.start.offset :=
  congrArg (fun span => span.start.offset) value.span_root

/-- Each property that is read makes a node that holds the chain so far and ends with the
property. -/
theorem Expr.Continues.laid {head value : Expr} (h : head.Continues tokens value)
    (hhead : head.tree.Laid) (horder : InOrder head.tree.stop tokens stop) :
    LaidIn head.tree.first stop [value.tree] := by
  induction h with
  | stop => exact laidIn_one.mpr ⟨Nat.le_refl _, hhead, horder.le⟩
  | @property head value dot token behind name hdot hname hbehind ih =>
    obtain ⟨hdotStart, hdotLong, hstart, hlong, horder⟩ := horder
    have hnode : head.span.start.offset < token.stop.offset := by
      have := hhead.first_lt_stop
      have := head.first_tree
      omega
    have hproperty : head.tree.stop ≤ token.start.offset := by omega
    have hmember : (Expr.member head ⟨name, token.span⟩ ⟨head.span.start, token.stop⟩).tree.Laid :=
      ⟨hnode, Nat.le_of_eq head.first_tree.symm, hhead, hproperty, laid_leaf.mpr hlong,
        Nat.le_refl _⟩
    exact head.first_tree ▸ ih hmember horder

theorem Expr.ReadFrom.laid {value : Expr} (h : Expr.ReadFrom tokens value)
    (horder : InOrder first tokens stop) : LaidIn first stop [value.tree] := by
  cases h with
  | literal _ =>
    obtain ⟨hstart, hlong, horder⟩ := horder
    exact laidIn_one.mpr ⟨hstart, laid_leaf.mpr hlong, horder.le⟩
  | chain _ hbehind =>
    obtain ⟨hstart, hlong, horder⟩ := horder
    obtain ⟨hfirst, hlaid, hstop⟩ := laidIn_one.mp (hbehind.laid (laid_leaf.mpr hlong) horder)
    exact laidIn_one.mpr ⟨Nat.le_trans hstart hfirst, hlaid, hstop⟩

theorem Stmt.ReadFrom.laid {stmt : Stmt} (h : Stmt.ReadFrom tokens stmt)
    (horder : InOrder first tokens stop) : LaidIn first stop [stmt.tree] := by
  cases h with
  | @imports word name between source last =>
    obtain ⟨hword, hwordLong, hname, hnameLong, hbetween, hbetweenLong, hsource, hsourceLong, hlast,
      hlastLong, hstop⟩ := horder
    have hnode : word.start.offset < last.stop.offset := by omega
    have hnameIn : word.start.offset ≤ name.start.offset := by omega
    have hsourceIn : name.stop.offset ≤ source.start.offset := by omega
    have hsourceEnd : source.stop.offset ≤ last.stop.offset := by omega
    exact laidIn_one.mpr ⟨hword, ⟨hnode, hnameIn, laid_leaf.mpr hnameLong, hsourceIn,
      laid_leaf.mpr hsourceLong, hsourceEnd⟩, hstop⟩
  | @binding word name between last make text taken value hmake hname hbetween hvalue hlast =>
    obtain ⟨hword, hwordLong, hname, hnameLong, hbetween, hbetweenLong, horder⟩ := horder
    obtain ⟨middle, htaken, hlast, hlastLong, hstop⟩ := horder.split
    obtain ⟨hfirst, hlaid, hend⟩ := laidIn_one.mp (hvalue.laid htaken)
    have hnode : word.start.offset < last.stop.offset := by
      have := htaken.le
      omega
    have hnameIn : word.start.offset ≤ name.start.offset := by omega
    have hvalueIn : name.stop.offset ≤ value.tree.first := by omega
    have hvalueEnd : value.tree.stop ≤ last.stop.offset := by omega
    have hparts : word.start.offset < last.stop.offset ∧
        LaidIn word.start.offset last.stop.offset [leaf (.ofIdent ⟨text, name.span⟩), value.tree] :=
      ⟨hnode, hnameIn, laid_leaf.mpr hnameLong, hvalueIn, hlaid, hvalueEnd⟩
    generalize word.kind = kind at hmake
    cases hmake
    all_goals exact laidIn_one.mpr ⟨hword, hparts, hstop⟩

theorem StatementsFrom.laid {stmts : List Stmt} (h : StatementsFrom tokens stmts)
    (horder : InOrder first tokens stop) : LaidIn first stop (stmts.map Stmt.tree) := by
  induction h generalizing first with
  | done => exact horder
  | next head _ ih =>
    obtain ⟨middle, hhead, hrest⟩ := horder.split
    obtain ⟨hfirst, hlaid, hmiddle⟩ := laidIn_one.mp (head.laid hhead)
    exact ⟨hfirst, hlaid, (ih hrest).earlier hmiddle⟩

/-- A program that is not empty covers its text, and its nodes stand in it as parts in parts. -/
theorem laid_of_parseText {source : String} {program : Program}
    (h : parseText source = .ok program) (hsource : source ≠ "") :
    program.tree.Laid ∧ program.tree.first = 0 ∧ program.tree.stop = source.utf8ByteSize := by
  obtain ⟨lexemes, last, hfit, hspell, hstatements, hspan⟩ := parseText_iff.mp h
  have hstop : program.span.stop.offset = source.utf8ByteSize := by
    rw [hspan, Position.offset_advance_toList]
  have hstart : program.span.start.offset = 0 := by rw [hspan]; rfl
  have hpositive : 0 < source.utf8ByteSize := by
    rw [Nat.pos_iff_ne_zero]
    simpa using hsource
  have hparts := hstatements.laid (hfit.inOrder .start)
  rw [← hspell, Position.offset_advance_toList] at hparts
  refine ⟨⟨?_, ?_⟩, hstart, hstop⟩
  · change program.span.start.offset < program.span.stop.offset
    omega
  · change LaidIn program.span.start.offset program.span.stop.offset _
    rw [hstart, hstop]
    exact hparts

end Laid

end Interpose.Script
