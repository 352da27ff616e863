import Interpose.Proofs.NodeSpans
import Interpose.Proofs.TreeRewriting

set_option autoImplicit false

namespace Interpose.Script

theorem Expr.kind_of_mem_nodesBefore {value : Expr} {node : Node} {rest : List Node}
    (h : node ∈ value.nodesBefore rest) : node.kind ≠ .program ∨ node ∈ rest := by
  induction value generalizing rest with
  | literal value span =>
    rcases List.mem_cons.mp h with rfl | hrest
    · exact .inl (by decide : NodeKind.literal ≠ .program)
    · exact .inr hrest
  | identifier name =>
    rcases List.mem_cons.mp h with rfl | hrest
    · exact .inl (by decide : NodeKind.identifier ≠ .program)
    · exact .inr hrest
  | member object property span ih =>
    rcases ih h with hkind | hrest
    · exact .inl hkind
    · rcases List.mem_cons.mp hrest with rfl | hrest
      · exact .inl (by decide : NodeKind.identifier ≠ .program)
      · rcases List.mem_cons.mp hrest with rfl | hrest
        · exact .inl (by decide : NodeKind.memberExpr ≠ .program)
        · exact .inr hrest

theorem Stmt.kind_of_mem_nodes {stmt : Stmt} {node : Node} (h : node ∈ stmt.nodes) :
    node.kind ≠ .program := by
  have hparts : ∀ {name : Ident} {value : Expr} {kind : NodeKind} {span : Span},
      node ∈ .ofIdent name :: value.nodesBefore [.ofParts kind span] → kind ≠ .program →
        node.kind ≠ .program := by
    intro name value kind span hnode hkind
    rcases List.mem_cons.mp hnode with rfl | hnode
    · change NodeKind.identifier ≠ .program
      decide
    · rcases Expr.kind_of_mem_nodesBefore hnode with hnode | hnode
      · exact hnode
      · rw [List.mem_singleton.mp hnode]
        exact hkind
  cases stmt with
  | imports binding source span =>
    have hkinds : ∀ node ∈ (Stmt.imports binding source span).nodes, node.kind ≠ .program := by
      simp [nodes, Node.ofIdent, Node.ofModuleName, Node.ofLiteral, Node.ofParts]
    exact hkinds node h
  | binds name value span => exact hparts h (by decide)
  | exports name value span => exact hparts h (by decide)

theorem Program.kind_of_mem_parts {program : Program} {node : Node}
    (h : node ∈ program.statements.flatMap Stmt.nodes) : node.kind ≠ .program := by
  obtain ⟨_, _, hstmt⟩ := List.mem_flatMap.mp h
  exact Stmt.kind_of_mem_nodes hstmt

theorem exists_program (source : String) (h : (parseText source).isOk = true) :
    ∃ program, parseText source = .ok program := by
  rcases hparse : parseText source with cause | program
  all_goals rw [hparse] at h
  · cases h
  · exact ⟨program, rfl⟩

end Interpose.Script

namespace Interpose.Edit
open Script

variable {σ : Type}

namespace Chunks

/-- A range that is not empty holds what was written into it. -/
theorem read_write {chunks : Chunks} {first stop : ℕ} (h : first < stop) (hstop : stop ≤ chunks.size)
    (text : List Char) : (chunks.write first stop text).read first stop = text := by
  have hlast : min stop chunks.size = stop := Nat.min_eq_left hstop
  have hfront : (chunks.toList.take first).length = first := by
    rw [List.length_take, Array.length_toList]
    omega
  have hmid : (text :: List.replicate (stop - first - 1) []).length = stop - first := by
    rw [List.length_cons, List.length_replicate]
    omega
  have hwritten : chunks.write first stop text = (chunks.toList.take first ++
      text :: List.replicate (stop - first - 1) [] ++ chunks.toList.drop stop).toArray := by
    apply Array.toList_inj.mp
    rw [toList_write _ _ _ _ (by omega), hlast]
  have hread := read_middle (chunks.toList.take first)
    (text :: List.replicate (stop - first - 1) []) (chunks.toList.drop stop)
  rw [hfront, hmid, Nat.add_sub_cancel' h.le, ← hwritten] at hread
  rw [hread, List.flatten_cons, List.flatten_replicate_nil, List.append_nil]

theorem read_all (chunks : Chunks) : chunks.read 0 chunks.size = chunks.chars := by
  rw [read, Array.extract_size]

end Chunks

namespace Visit

/-- What a visit of the bytes from `first` up to `stop` does next to the pieces. -/
inductive Step (first stop : ℕ) : Visit σ × Chunks → Visit σ × Chunks → Prop where
  | look (next : String → Visit σ) (chunks : Chunks) :
      Step first stop (.look next, chunks) (next (.ofList (chunks.read first stop)), chunks)
  | update (text : String) (next : Visit σ) (chunks : Chunks) :
      Step first stop (.update text next, chunks) (next, chunks.write first stop text.toList)

/-- What is left of the visit at some point of it, and the pieces there. -/
abbrev Gets (first stop : ℕ) : Visit σ × Chunks → Visit σ × Chunks → Prop :=
  Relation.ReflTransGen (Step first stop)

variable {first stop : ℕ}

theorem step_unique : Relator.RightUnique
    (Step first stop : Visit σ × Chunks → Visit σ × Chunks → Prop) := by
  intro a b c hb hc
  cases hb with
  | look => cases hc; rfl
  | update => cases hc; rfl

theorem size_of_gets {a b : Visit σ × Chunks} (h : Gets first stop a b) :
    b.2.size = a.2.size := by
  induction h with
  | refl => rfl
  | tail _ hstep ih =>
    cases hstep with
    | look => exact ih
    | update => exact (Chunks.size_write _ _ _ _).trans ih

theorem run_cases (first stop : ℕ) (visit : Visit σ) (begun : Chunks) :
    (∃ message chunks, visit.run first stop begun = .error message ∧
      Gets first stop (visit, begun) (.panic message, chunks)) ∨
    ∃ state chunks, visit.run first stop begun = .ok (state, chunks) ∧
      Gets first stop (visit, begun) (.done state, chunks) := by
  induction visit generalizing begun with
  | done state => exact .inr ⟨state, begun, rfl, .refl⟩
  | look next ih =>
    have hstep : Step first stop (.look next, begun) _ := .look next begun
    rcases ih _ begun with ⟨message, chunks, hrun, hgets⟩ | ⟨state, chunks, hrun, hgets⟩
    · exact .inl ⟨message, chunks, hrun, hgets.head hstep⟩
    · exact .inr ⟨state, chunks, hrun, hgets.head hstep⟩
  | update text next ih =>
    have hstep : Step first stop (.update text next, begun) _ := .update text next begun
    rcases ih _ with ⟨message, chunks, hrun, hgets⟩ | ⟨state, chunks, hrun, hgets⟩
    · exact .inl ⟨message, chunks, hrun, hgets.head hstep⟩
    · exact .inr ⟨state, chunks, hrun, hgets.head hstep⟩
  | panic message => exact .inl ⟨message, begun, rfl, .refl⟩

section Updates

variable {visit : Visit σ} {begun : Chunks} {state : σ} {final : Chunks}

theorem chunks_of_gets
    (hnever : ∀ text next chunks, ¬ Gets first stop (visit, begun) (.update text next, chunks))
    {a : Visit σ × Chunks} (h : Gets first stop (visit, begun) a) : a.2 = begun := by
  induction h with
  | refl => rfl
  | tail hbefore hstep ih =>
    cases hstep with
    | look => exact ih
    | update text next chunks => exact absurd hbefore (hnever text next chunks)

variable {text : String} (hrange : first < stop) (hstop : stop ≤ begun.size)
  (hupdates : ∀ new next chunks,
    Gets first stop (visit, begun) (.update new next, chunks) → new = text)

include hrange hstop hupdates

theorem read_of_gets {a b : Visit σ × Chunks} (ha : Gets first stop (visit, begun) a)
    (hread : a.2.read first stop = text.toList) (h : Gets first stop a b) :
    b.2.read first stop = text.toList := by
  induction h with
  | refl => exact hread
  | tail hbefore hstep ih =>
    cases hstep with
    | look => exact ih
    | update new next chunks =>
      have hreached := ha.trans hbefore
      have hsize : chunks.size = begun.size := size_of_gets hreached
      rw [hupdates new next chunks hreached]
      exact Chunks.read_write hrange (hsize ▸ hstop) text.toList

theorem read_of_updated {next : Visit σ} {chunks : Chunks}
    (hupdated : Gets first stop (visit, begun) (.update text next, chunks))
    (hend : Gets first stop (visit, begun) (.done state, final)) :
    final.read first stop = text.toList := by
  have hsize : chunks.size = begun.size := size_of_gets hupdated
  have hwritten : (chunks.write first stop text.toList).read first stop = text.toList :=
    Chunks.read_write hrange (hsize ▸ hstop) text.toList
  -- the end is behind the update, as nothing is behind the end
  rcases Relation.ReflTransGen.total_of_right_unique step_unique hupdated hend with h | h
  · rcases h.cases_head with hsame | ⟨_, hstep, hrest⟩
    · cases hsame
    · have hafter := hupdated.tail hstep
      cases hstep
      exact read_of_gets hrange hstop hupdates hafter hwritten hrest
  · rcases h.cases_head with hsame | ⟨_, hstep, _⟩
    · cases hsame
    · cases hstep

end Updates

end Visit

/-- A revision gets to a point of its visit of a node. -/
inductive Revising (source : String) (visit : Visitor σ) (state : σ) (node : Node) :
    Visit σ → Chunks → Prop where
  | visiting {program : Program} {before after : List Node} {reached : σ} {begun : Chunks}
      {rest : Visit σ} {chunks : Chunks} (parsed : parseText source = .ok program)
      (nodes : program.nodes = before ++ node :: after)
      (visited : visitNodes visit before state (.ofChars source.toList) = .ok (reached, begun))
      (gets : Visit.Gets node.span.start.offset node.span.stop.offset
        (visit node reached, begun) (rest, chunks)) :
      Revising source visit state node rest chunks

/-- The visitor updates the program with a text, and nothing else. -/
structure UpdatesProgram (source : String) (visit : Visitor σ) (state : σ) (text : String) :
    Prop where
  updated : ∃ node next chunks, Revising source visit state node (.update text next) chunks
  only : ∀ node new next chunks, Revising source visit state node (.update new next) chunks →
    node.kind = .program ∧ new = text
  calm : ∀ node message chunks, ¬ Revising source visit state node (.panic message) chunks

/-- Right after an update a node shows the text, and a program that is updated with it becomes the
text, unless this does not parse. -/
structure UpdatesReplace (source : String) : Prop where
  shown : ∀ {σ : Type} {visit : Visitor σ} {state : σ} {node : Node} {text : String}
    {next : Visit σ} {chunks : Chunks},
    Revising source visit state node (.update text next) chunks →
      let written := chunks.write node.span.start.offset node.span.stop.offset text.toList
      .ofList (written.read node.span.start.offset node.span.stop.offset) = text
  answered : ∀ {σ : Type} {visit : Visitor σ} {state : σ} {text : String},
    UpdatesProgram source visit state text →
      (revise visit state source).1 =
        match parseText text with
        | .ok _ => .ok text
        | .error cause => .error (.error (.invalidOutput cause))

section Revising

variable {source : String} {visit : Visitor σ} {state after : σ} {nodes : List Node}
  {node : Node} {chunks begun : Chunks}

theorem size_visitNodes (h : visitNodes visit nodes state begun = .ok (after, chunks)) :
    chunks.size = begun.size := by
  induction nodes generalizing state begun with
  | nil => cases h; rfl
  | cons node nodes ih =>
    unfold visitNodes at h
    rcases (visit node state).run_cases node.span.start.offset node.span.stop.offset begun with
      ⟨message, last, hrun, _⟩ | ⟨next, last, hrun, hgets⟩
    · rw [hrun] at h
      cases h
    · rw [hrun] at h
      exact (ih h).trans (Visit.size_of_gets hgets)

theorem size_ofSource (source : String) :
    (Chunks.ofChars source.toList).size = source.utf8ByteSize := by
  rw [Chunks.size_ofChars, String.ofList_toList]

theorem Revising.size_eq {rest : Visit σ} (h : Revising source visit state node rest chunks) :
    chunks.size = source.utf8ByteSize := by
  cases h with
  | visiting parsed nodes visited gets =>
    exact (Visit.size_of_gets gets).trans ((size_visitNodes visited).trans (size_ofSource source))

variable {text : String} {program : Program}

theorem range_of_mem_nodes (hparse : parseText source = .ok program) (hsource : source ≠ "")
    (hnode : node ∈ program.nodes) :
    node.span.start.offset < node.span.stop.offset ∧
      node.span.stop.offset ≤ source.utf8ByteSize := by
  obtain ⟨⟨parts, hnodes, hstart, hstop, hparts⟩, _, hvalid⟩ := spans_nested hparse
  have hpositive : 0 < source.utf8ByteSize := by
    rw [Nat.pos_iff_ne_zero]
    simpa using hsource
  refine ⟨?_, (hvalid node hnode).2.1.le_rawEndPos⟩
  rw [hnodes] at hnode
  rcases List.mem_append.mp hnode with hpart | hprogram
  · exact hparts node hpart
  · rw [List.mem_singleton.mp hprogram]
    change program.span.start.offset < program.span.stop.offset
    omega

theorem Revising.mem_nodes {rest : Visit σ} (h : Revising source visit state node rest chunks)
    (hparse : parseText source = .ok program) : node ∈ program.nodes := by
  cases h with
  | visiting parsed nodes visited gets =>
    rw [hparse] at parsed
    cases parsed
    rw [nodes]
    exact List.mem_append_right _ List.mem_cons_self

theorem Revising.of_program {rest : Visit σ} (h : Revising source visit state node rest chunks)
    (hparse : parseText source = .ok program) (hkind : node.kind = .program) :
    node = .ofParts .program program.span ∧ ∃ reached begun,
      visitNodes visit (program.statements.flatMap Stmt.nodes) state (.ofChars source.toList) =
        .ok (reached, begun) ∧
      Visit.Gets node.span.start.offset node.span.stop.offset (visit node reached, begun)
        (rest, chunks) := by
  cases h with
  | @visiting _ before after reached begun _ _ parsed nodes visited gets =>
    rw [hparse] at parsed
    cases parsed
    rcases List.eq_nil_or_concat' after with rfl | ⟨more, last, rfl⟩
    · obtain ⟨rfl, hnode⟩ := List.append_inj' nodes rfl
      exact ⟨(List.singleton_inj.mp hnode).symm, reached, begun, visited, gets⟩
    · rw [← List.cons_append, ← List.append_assoc] at nodes
      obtain ⟨hparts, _⟩ := List.append_inj' nodes rfl
      have hpart : node ∈ program.statements.flatMap Stmt.nodes :=
        hparts ▸ List.mem_append_right before List.mem_cons_self
      exact absurd hkind (Program.kind_of_mem_parts hpart)

namespace UpdatesProgram

theorem visitNodes_ok (h : UpdatesProgram source visit state text)
    (hparse : parseText source = .ok program) {before rest : List Node}
    (hnodes : program.nodes = before ++ rest) (hkinds : ∀ node ∈ before, node.kind ≠ .program) :
    ∃ reached, visitNodes visit before state (.ofChars source.toList) =
      .ok (reached, .ofChars source.toList) := by
  induction before using List.reverseRecOn generalizing rest with
  | nil => exact ⟨state, rfl⟩
  | append_singleton before node ih =>
    rw [List.append_assoc] at hnodes
    obtain ⟨reached, hvisited⟩ :=
      ih hnodes fun node hnode => hkinds node (List.mem_append_left _ hnode)
    have hrevising : ∀ {left : Visit σ} {chunks : Chunks},
        Visit.Gets node.span.start.offset node.span.stop.offset
          (visit node reached, .ofChars source.toList) (left, chunks) →
          Revising source visit state node left chunks :=
      fun hgets => .visiting hparse hnodes hvisited hgets
    have hkind : node.kind ≠ .program := hkinds node (by simp)
    rw [visitNodes_append, hvisited]
    change ∃ reached', visitNodes visit [node] reached _ = _
    rw [visitNodes_one]
    rcases (visit node reached).run_cases node.span.start.offset node.span.stop.offset
      (.ofChars source.toList) with
      ⟨message, chunks, hrun, hgets⟩ | ⟨next, chunks, hrun, hgets⟩
    · exact absurd (hrevising hgets) (h.calm node message chunks)
    · have hsame : chunks = .ofChars source.toList := Visit.chunks_of_gets
        (fun new next chunks hupdate => hkind (h.only node new next chunks (hrevising hupdate)).1)
        hgets
      exact ⟨next, hsame ▸ hrun⟩

theorem revise_eq (h : UpdatesProgram source visit state text)
    (hparse : parseText source = .ok program) (hsource : source ≠ "") :
    (revise visit state source).1 =
      match parseText text with
      | .ok _ => .ok text
      | .error cause => .error (.error (.invalidOutput cause)) := by
  obtain ⟨reached, hvisited⟩ := h.visitNodes_ok hparse (show program.nodes = _ ++ _ from rfl)
    fun _ => Program.kind_of_mem_parts
  let node : Node := .ofParts .program program.span
  have hrevising : ∀ {left : Visit σ} {chunks : Chunks},
      Visit.Gets program.span.start.offset program.span.stop.offset
        (visit node reached, .ofChars source.toList) (left, chunks) →
        Revising source visit state node left chunks :=
    fun hgets => .visiting hparse rfl hvisited hgets
  have hupdates : ∀ new next chunks, Visit.Gets program.span.start.offset program.span.stop.offset
      (visit node reached, .ofChars source.toList) (.update new next, chunks) → new = text :=
    fun new next chunks hupdate => (h.only node new next chunks (hrevising hupdate)).2
  obtain ⟨updated, next, chunks, hupdated⟩ := h.updated
  obtain ⟨rfl, _, _, hvisited', hgets⟩ :=
    hupdated.of_program hparse (h.only updated text next chunks hupdated).1
  rw [hvisited] at hvisited'
  cases hvisited'
  obtain ⟨⟨_, _, hstart, hstop, _⟩, _⟩ := spans_nested hparse
  obtain ⟨hrange, hinside⟩ := range_of_mem_nodes hparse hsource (hupdated.mem_nodes hparse)
  rw [← size_ofSource] at hstop hinside
  rcases (visit node reached).run_cases program.span.start.offset program.span.stop.offset
    (.ofChars source.toList) with
    ⟨message, final, _, hend⟩ | ⟨after, final, hrun, hend⟩
  · exact absurd (hrevising hend) (h.calm node message final)
  have hread : final.read program.span.start.offset program.span.stop.offset = text.toList :=
    Visit.read_of_updated hrange hinside hupdates hgets hend
  have hsize : final.size = (Chunks.ofChars source.toList).size := Visit.size_of_gets hend
  rw [hstart, hstop, ← hsize, Chunks.read_all] at hread
  have hnodes : visitNodes visit program.nodes state (.ofChars source.toList) =
      .ok (after, final) := by
    rw [Program.nodes, visitNodes_append, hvisited]
    exact (visitNodes_one visit node reached _).trans hrun
  unfold revise
  rw [hparse]
  dsimp only
  rw [hnodes]
  dsimp only
  rw [hread, String.ofList_toList, checkOutput_eq hparse]
  cases parseText text <;> rfl

end UpdatesProgram

end Revising

theorem revise_empty (visit : Visitor σ) (state : σ) :
    (revise visit state "").1 = .ok "" ∨
      ∃ message, (revise visit state "").1 = .error (.panic message) := by
  obtain ⟨program, hprogram⟩ := exists_program "" (by decide +kernel)
  unfold revise
  rw [hprogram]
  dsimp only
  rcases hvisited : visitNodes visit program.nodes state (.ofChars "".toList) with
    message | ⟨after, chunks⟩
  · exact .inr ⟨message, rfl⟩
  · have hsize : chunks.size = 0 := size_visitNodes hvisited
    have hempty : chunks = #[] := Array.eq_empty_of_size_eq_zero hsize
    subst hempty
    exact .inl rfl

def overwriting (text : String) : Visitor Unit := fun node _ =>
  if node.kind = .program then .update text (.done ()) else .done ()

theorem visitNodes_overwriting (text : String) {nodes : List Node}
    (h : ∀ node ∈ nodes, node.kind ≠ .program) (chunks : Chunks) :
    visitNodes (overwriting text) nodes () chunks = .ok ((), chunks) := by
  induction nodes with
  | nil => rfl
  | cons node nodes ih =>
    rw [visitNodes, overwriting, if_neg (h node List.mem_cons_self)]
    exact ih fun node hnode => h node (List.mem_cons_of_mem _ hnode)

theorem gets_overwriting {text : String} {node : Node} {first stop : ℕ} {begun : Chunks}
    {a : Visit Unit × Chunks} (h : Visit.Gets first stop (overwriting text node (), begun) a) :
    a.1 = .done () ∨ node.kind = .program ∧ a.1 = .update text (.done ()) := by
  induction h with
  | refl =>
    unfold overwriting
    split
    next hkind => exact .inr ⟨hkind, rfl⟩
    next => exact .inl rfl
  | tail _ hstep ih =>
    rcases ih with hdone | ⟨_, hupdate⟩
    · cases hstep <;> cases hdone
    · cases hstep <;> cases hupdate
      exact .inl rfl

theorem updatesProgram_overwriting {source : String} {program : Program}
    (hparse : parseText source = .ok program) (text : String) :
    UpdatesProgram source (overwriting text) () text := by
  have hpoints : ∀ {node : Node} {rest : Visit Unit} {chunks : Chunks},
      Revising source (overwriting text) () node rest chunks →
        rest = .done () ∨ node.kind = .program ∧ rest = .update text (.done ()) := by
    intro node rest chunks hrevising
    cases hrevising with
    | visiting parsed nodes visited gets => exact gets_overwriting gets
  refine ⟨?_, fun node new next chunks hupdate => ?_, fun node message chunks hpanic => ?_⟩
  · have hvisited : visitNodes (overwriting text) (program.statements.flatMap Stmt.nodes) ()
        (.ofChars source.toList) = .ok ((), .ofChars source.toList) :=
      visitNodes_overwriting text (fun _ => Program.kind_of_mem_parts) _
    exact ⟨.ofParts .program program.span, _, _, .visiting hparse rfl hvisited .refl⟩
  · rcases hpoints hupdate with hdone | ⟨hkind, hnew⟩
    · cases hdone
    · cases hnew
      exact ⟨hkind, rfl⟩
  · rcases hpoints hpanic with hdone | ⟨_, hnew⟩
    · cases hdone
    · cases hnew

/-- In a source that parses, an update of any node shows at once, and an update of the program alone is
answered with the text or with why this does not parse, if and only if the source is not empty. -/
theorem updates_replace_iff {source : String} {program : Program}
    (h : parseText source = .ok program) : UpdatesReplace source ↔ source ≠ "" := by
  constructor
  · rintro hreplace rfl
    have hanswered := hreplace.answered (updatesProgram_overwriting h "let x = 1;")
    obtain ⟨overwritten, hoverwritten⟩ :=
      exists_program "let x = 1;" (by decide +kernel)
    rw [hoverwritten] at hanswered
    rcases revise_empty (overwriting "let x = 1;") () with hempty | ⟨message, hpanic⟩
    · exact absurd (Except.ok.inj (hempty.symm.trans hanswered)) (by decide)
    · cases hpanic.symm.trans hanswered
  · intro hsource
    refine ⟨fun hrevising => ?_, fun hupdates => hupdates.revise_eq h hsource⟩
    obtain ⟨hrange, hstop⟩ := range_of_mem_nodes h hsource (hrevising.mem_nodes h)
    intro written
    rw [Chunks.read_write hrange (hrevising.size_eq ▸ hstop), String.ofList_toList]

theorem updates_replace_iff_accented : ∃ program, parseText "let é = a.b;" = .ok program ∧
    UpdatesReplace "let é = a.b;" ∧
    (revise (overwriting "let x = 1;") () "let é = a.b;").1.toOption = some "let x = 1;" := by
  obtain ⟨program, hprogram⟩ := exists_program "let é = a.b;" (by decide +kernel)
  exact ⟨program, hprogram, (updates_replace_iff hprogram).mpr (by decide), by decide +kernel⟩

theorem update_of_empty_lost : UpdatesProgram "" (overwriting "let x = 1;") () "let x = 1;" ∧
    (parseText "let x = 1;").isOk = true ∧
    (revise (overwriting "let x = 1;") () "").1.toOption = some "" := by
  obtain ⟨program, hprogram⟩ := exists_program "" (by decide +kernel)
  exact ⟨updatesProgram_overwriting hprogram _, by decide +kernel, by decide +kernel⟩

end Interpose.Edit
