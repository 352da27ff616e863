import Interpose.Edit.Transform
import Interpose.Proofs.SyntaxTree

/-!
Revising a source is rewriting its tree. A node's text is the source between and around its parts
with the final texts of the parts in it, and the visitor then acts on that text. Main statement: what
the visits in post order make of the pieces of a source is what this recursion makes of its tree
(`revise_tree`).
-/

set_option autoImplicit false

namespace Interpose.Edit
open Script SyntaxTree

variable {σ τ : Type}

/-- The characters that begin at a byte from `first` up to `stop`, of those that begin at an
offset. -/
def charsBetween (first stop : Nat) : Nat → List Char → List Char
  | _, [] => []
  | offset, c :: rest =>
    let behind := charsBetween first stop (offset + c.utf8Size) rest
    if first ≤ offset ∧ offset < stop then c :: behind else behind

def between (source : String) (first stop : Nat) : String :=
  .ofList (charsBetween first stop 0 source.toList)

def Visit.onText : Visit σ → String → Except String (σ × String)
  | done state, text => .ok (state, text)
  | look next, text => (next text).onText text
  | update text next, _ => next.onText text
  | panic message, _ => .error message

mutual

/-- The final text of a node, and the visitor's state after it. -/
def rewriteTree (source : String) (visit : Visitor σ) :
    SyntaxTree → σ → Except String (σ × String)
  | .branch node parts, state => do
    let (state, text) ←
      rewriteParts source visit node.span.start.offset node.span.stop.offset parts state
    (visit node state).onText text

/-- The text between two places, with the final texts of the parts that stand there. -/
def rewriteParts (source : String) (visit : Visitor σ) :
    Nat → Nat → List SyntaxTree → σ → Except String (σ × String)
  | first, stop, [], state => .ok (state, between source first stop)
  | first, stop, part :: rest, state => do
    let (state, text) ← rewriteTree source visit part state
    let (state, behind) ← rewriteParts source visit part.stop stop rest state
    return (state, between source first part.first ++ text ++ behind)

end

section Pieces

def piecesBetween (source : String) (first stop : Nat) : List (List Char) :=
  ((Chunks.ofChars source.toList).toList.take stop).drop first

theorem toList_ofChars_cons (c : Char) (cs : List Char) : (Chunks.ofChars (c :: cs)).toList =
    ([c] :: List.replicate (c.utf8Size - 1) []) ++ (Chunks.ofChars cs).toList := by
  simp [Chunks.ofChars]

theorem flatten_first (c : Char) (first stop : Nat) :
    ((([c] :: List.replicate (c.utf8Size - 1) []).take stop).drop first).flatten =
      if first = 0 ∧ 0 < stop then [c] else [] := by
  cases stop with
  | zero => simp
  | succ stop =>
    cases first with
    | zero => simp [List.take_replicate]
    | succ first => simp [List.take_replicate, List.drop_replicate]

theorem flatten_ofChars (first stop offset : Nat) (cs : List Char) :
    (((Chunks.ofChars cs).toList.take (stop - offset)).drop (first - offset)).flatten =
      charsBetween first stop offset cs := by
  induction cs generalizing offset with
  | nil => simp [Chunks.ofChars, charsBetween]
  | cons c cs ih =>
    have hpositive := c.utf8Size_pos
    have hbehind := ih (offset + c.utf8Size)
    have hlength : ([c] :: List.replicate (c.utf8Size - 1) []).length = c.utf8Size := by
      rw [List.length_cons, List.length_replicate]
      omega
    have hstop : stop - offset - c.utf8Size = stop - (offset + c.utf8Size) := by omega
    rw [toList_ofChars_cons, List.take_append, List.drop_append, List.flatten_append, flatten_first,
      List.length_take, hlength, hstop, charsBetween]
    have hrest : List.drop (first - offset - min (stop - offset) c.utf8Size)
          ((Chunks.ofChars cs).toList.take (stop - (offset + c.utf8Size))) =
        List.drop (first - (offset + c.utf8Size))
          ((Chunks.ofChars cs).toList.take (stop - (offset + c.utf8Size))) := by
      rcases Nat.le_total (stop - offset) c.utf8Size with hshort | hlong
      · have hnone : stop - (offset + c.utf8Size) = 0 := by omega
        simp [hnone]
      · rw [Nat.min_eq_right hlong]
        congr 1
        omega
    rw [hrest, hbehind]
    by_cases hhere : first ≤ offset ∧ offset < stop
    · rw [if_pos hhere, if_pos (by omega)]
      rfl
    · rw [if_neg hhere, if_neg (by omega)]
      rfl

theorem ofList_piecesBetween (source : String) (first stop : Nat) :
    String.ofList (piecesBetween source first stop).flatten = between source first stop :=
  congrArg String.ofList (flatten_ofChars first stop 0 source.toList)

theorem length_piecesBetween {source : String} {first stop : Nat}
    (hstop : stop ≤ source.utf8ByteSize) :
    (piecesBetween source first stop).length = stop - first := by
  have hsize := Chunks.size_ofChars source.toList
  rw [String.ofList_toList] at hsize
  simp only [piecesBetween, List.length_drop, List.length_take, Array.length_toList, hsize]
  omega

theorem piecesBetween_append (source : String) {first middle stop : Nat} (h : first ≤ middle)
    (h' : middle ≤ stop) : piecesBetween source first middle ++ piecesBetween source middle stop =
      piecesBetween source first stop := by
  unfold piecesBetween
  generalize (Chunks.ofChars source.toList).toList = pieces
  have hmiddle : pieces.take middle = (pieces.take stop).take middle := by
    rw [List.take_take, Nat.min_eq_left h']
  generalize pieces.take stop = pieces at hmiddle
  have hall : pieces.drop first = (pieces.take middle ++ pieces.drop middle).drop first := by
    rw [List.take_append_drop]
  rw [hmiddle, hall, List.drop_append, List.length_take]
  congr 1
  rcases Nat.le_total pieces.length middle with hshort | hlong
  · simp [List.drop_eq_nil_of_le hshort]
  · rw [Nat.min_eq_left hlong, Nat.sub_eq_zero_of_le h, List.drop_zero]

variable (front mid back : List (List Char))

theorem read_middle : Chunks.read (front ++ mid ++ back).toArray front.length
    (front.length + mid.length) = mid.flatten := by
  simp [Chunks.read, Chunks.chars]

theorem write_middle (hmid : 0 < mid.length) (text : List Char) :
    Chunks.write (front ++ mid ++ back).toArray front.length (front.length + mid.length) text =
      (front ++ text :: List.replicate (mid.length - 1) [] ++ back).toArray := by
  apply Array.toList_inj.mp
  have hlast : min (front.length + mid.length) (front ++ mid ++ back).toArray.size =
      front.length + mid.length := by
    simp only [List.size_toArray, List.length_append]
    omega
  have hroom : front.length + mid.length - front.length - 1 = mid.length - 1 := by omega
  rw [Chunks.toList_write _ _ _ _ (by omega), hlast, hroom]
  simp

end Pieces

/-- What stands between a front and a back after visits, and the text that it makes; or both
panicked. -/
inductive Agrees (front back : List (List Char)) (room : Nat) :
    Except String (σ × Chunks) → Except String (σ × String) → Prop where
  | panicked (message : String) : Agrees front back room (.error message) (.error message)
  | went (state : σ) {mid : List (List Char)} (hmid : mid.length = room) :
      Agrees front back room (.ok (state, (front ++ mid ++ back).toArray))
        (.ok (state, .ofList mid.flatten))

section Visits

variable (visit : Visitor σ) {source : String} {front back : List (List Char)}

theorem Agrees.bind {α β : List (List Char)} {room room' : Nat}
    {visited : Except String (σ × Chunks)} {text : Except String (σ × String)}
    (h : Agrees α β room visited text) {next : σ × Chunks → Except String (τ × Chunks)}
    {next' : σ × String → Except String (τ × String)}
    (hnext : ∀ state {mid : List (List Char)}, mid.length = room →
      Agrees front back room' (next (state, (α ++ mid ++ β).toArray))
        (next' (state, .ofList mid.flatten))) :
    Agrees front back room' (visited >>= next) (text >>= next') := by
  cases h with
  | panicked message => exact .panicked message
  | went state hmid => exact hnext state hmid

theorem Agrees.widen {gap : List (List Char)} {room : Nat}
    {visited : Except String (σ × Chunks)} {text : Except String (σ × String)}
    (h : Agrees (front ++ gap) back room visited text) :
    Agrees front back (gap.length + room) visited
      (text >>= fun (state, behind) => .ok (state, .ofList gap.flatten ++ behind)) := by
  cases h with
  | panicked message => exact .panicked message
  | @went state mid hmid =>
    have hwent : Agrees front back (gap.length + room) _ _ := .went state
      (List.length_append.trans (congrArg (gap.length + ·) hmid))
    rw [List.flatten_append, String.ofList_append, ← List.append_assoc] at hwent
    exact hwent

/-- A visit reads and writes its own range only, and leaves as many pieces in it as there were. -/
theorem Visit.run_agrees (visit : Visit σ) {mid : List (List Char)} (hmid : 0 < mid.length) :
    Agrees front back mid.length
      (visit.run front.length (front.length + mid.length) (front ++ mid ++ back).toArray)
      (visit.onText (.ofList mid.flatten)) := by
  induction visit generalizing mid with
  | done state => exact .went state rfl
  | look next ih =>
    rw [Visit.run, Visit.onText, read_middle]
    exact ih _ hmid
  | update text next ih =>
    have hlength : (text.toList :: List.replicate (mid.length - 1) []).length = mid.length := by
      rw [List.length_cons, List.length_replicate]
      omega
    have hflatten : (text.toList :: List.replicate (mid.length - 1) []).flatten = text.toList := by
      simp
    have hnext := ih (hlength ▸ hmid)
    rw [hlength, hflatten, String.ofList_toList] at hnext
    rw [Visit.run, Visit.onText, write_middle _ _ _ hmid]
    exact hnext
  | panic message => exact .panicked message

theorem visitNodes_append (first second : List Node) (state : σ) (chunks : Chunks) :
    visitNodes visit (first ++ second) state chunks =
      visitNodes visit first state chunks >>= fun (state, chunks) =>
        visitNodes visit second state chunks := by
  induction first generalizing state chunks with
  | nil => rfl
  | cons node rest ih =>
    rw [List.cons_append, visitNodes, visitNodes]
    rcases (visit node state).run node.span.start.offset node.span.stop.offset chunks
      with message | ⟨state, chunks⟩
    · rfl
    · exact ih state chunks

theorem visitNodes_one (node : Node) (state : σ) (chunks : Chunks) :
    visitNodes visit [node] state chunks =
      (visit node state).run node.span.start.offset node.span.stop.offset chunks := by
  rw [visitNodes]
  rcases (visit node state).run node.span.start.offset node.span.stop.offset chunks
    with message | ⟨state, chunks⟩ <;> rfl

mutual

/-- By induction on the tree: the visits of the parts make the text that the visitor is shown. -/
theorem visitNodes_postOrder : ∀ (tree : SyntaxTree), tree.Laid → tree.stop ≤ source.utf8ByteSize →
    ∀ (state : σ) (front back : List (List Char)), front.length = tree.first →
    Agrees front back (tree.stop - tree.first)
      (visitNodes visit tree.postOrder state
        (front ++ piecesBetween source tree.first tree.stop ++ back).toArray)
      (rewriteTree source visit tree state)
  | .branch node parts, hlaid, hstop, state, front, back, hfront => by
    obtain ⟨hlong, hlaid⟩ := hlaid
    change front.length = node.span.start.offset at hfront
    have hparts := visitNodes_postOrders parts hlaid hstop state front back hfront
    rw [postOrder, rewriteTree, visitNodes_append]
    refine hparts.bind fun state mid hmid => ?_
    have hend : node.span.stop.offset = front.length + mid.length := by omega
    change Agrees front back (node.span.stop.offset - node.span.start.offset)
      (visitNodes visit [node] state _) ((visit node state).onText _)
    rw [visitNodes_one, ← hmid, hend, ← hfront]
    exact (visit node state).run_agrees (by omega)

theorem visitNodes_postOrders : ∀ (parts : List SyntaxTree) {first stop : Nat},
    LaidIn first stop parts → stop ≤ source.utf8ByteSize → ∀ (state : σ)
    (front back : List (List Char)), front.length = first →
    Agrees front back (stop - first)
      (visitNodes visit (postOrders parts) state
        (front ++ piecesBetween source first stop ++ back).toArray)
      (rewriteParts source visit first stop parts state)
  | [], first, stop, hlaid, hstop, state, front, back, hfront => by
    rw [postOrders, visitNodes, rewriteParts, ← ofList_piecesBetween]
    exact .went state (length_piecesBetween hstop)
  | part :: rest, first, stop, hlaid, hstop, state, front, back, hfront => by
    obtain ⟨hfirst, hpart, hrest⟩ := hlaid
    have hlong := hpart.first_lt_stop
    have hbehind := hrest.le
    have hpieces : front ++ piecesBetween source first stop ++ back =
        (front ++ piecesBetween source first part.first) ++
          piecesBetween source part.first part.stop ++
            (piecesBetween source part.stop stop ++ back) := by
      rw [← piecesBetween_append source hfirst (Nat.le_trans (Nat.le_of_lt hlong) hbehind),
        ← piecesBetween_append source (Nat.le_of_lt hlong) hbehind]
      simp only [List.append_assoc]
    have hgap : (piecesBetween source first part.first).length = part.first - first :=
      length_piecesBetween (by omega)
    have hfront' : (front ++ piecesBetween source first part.first).length = part.first := by
      rw [List.length_append, hgap]
      omega
    rw [postOrders, rewriteParts, visitNodes_append, hpieces]
    refine (visitNodes_postOrder part hpart (by omega) state _ _ hfront').bind fun state mid hmid => ?_
    have hbefore : (front ++ (piecesBetween source first part.first ++ mid)).length = part.stop := by
      rw [← List.append_assoc, List.length_append, hfront']
      omega
    have hvisited :=
      (visitNodes_postOrders rest hrest hstop state _ back hbefore).widen
    have hroom : (piecesBetween source first part.first ++ mid).length + (stop - part.stop) =
        stop - first := by
      rw [List.length_append, hgap]
      omega
    rw [hroom, List.flatten_append, String.ofList_append, ofList_piecesBetween] at hvisited
    simp only [List.append_assoc] at hvisited ⊢
    exact hvisited

end

end Visits

def Visit.map (change : σ → τ) : Visit σ → Visit τ
  | done state => .done (change state)
  | look next => .look fun text => (next text).map change
  | update text next => .update text (next.map change)
  | panic message => .panic message

def Visitor.watched (visit : Visitor σ) : Visitor (σ × List (Node × String)) :=
  fun node (state, seen) =>
    .look fun text => (visit node state).map fun state => (state, seen ++ [(node, text)])

section Watched

theorem Visit.onText_map (change : σ → τ) (visit : Visit σ) (text : String) :
    (visit.map change).onText text =
      visit.onText text >>= fun (state, text) => .ok (change state, text) := by
  induction visit generalizing text with
  | done state => rfl
  | look next ih => exact ih text text
  | update replacement next ih => exact ih replacement
  | panic message => rfl

theorem bind_ok_iff {ε α β : Type} {first : Except ε α} {next : α → Except ε β} {result : β} :
    first >>= next = .ok result ↔ ∃ value, first = .ok value ∧ next value = .ok result := by
  cases first with
  | error error =>
    constructor
    · rintro ⟨⟩
    · rintro ⟨_, ⟨⟩, _⟩
  | ok value => exact ⟨fun h => ⟨value, rfl, h⟩, fun ⟨_, rfl, h⟩ => h⟩

variable {source : String} {visit : Visitor σ}

mutual

theorem rewriteTree_watched : ∀ (tree : SyntaxTree) {state after : σ} {output : String},
    rewriteTree source visit tree state = .ok (after, output) → ∃ shown : List (Node × String),
      shown.map Prod.fst = tree.postOrder ∧ ∀ seen,
        rewriteTree source visit.watched tree (state, seen) = .ok ((after, seen ++ shown), output)
  | .branch node parts, state, after, output, h => by
    rw [rewriteTree, bind_ok_iff] at h
    obtain ⟨⟨middle, text⟩, hparts, hnode⟩ := h
    change (visit node middle).onText text = _ at hnode
    obtain ⟨shown, hshown, hwatched⟩ := rewriteParts_watched parts hparts
    refine ⟨shown ++ [(node, text)], by rw [List.map_append, hshown, postOrder]; rfl, fun seen => ?_⟩
    rw [rewriteTree, hwatched seen]
    change (Visit.map _ (visit node middle)).onText text = _
    rw [Visit.onText_map, hnode, ← List.append_assoc]
    rfl

theorem rewriteParts_watched : ∀ (parts : List SyntaxTree) {first stop : Nat} {state after : σ}
    {output : String}, rewriteParts source visit first stop parts state = .ok (after, output) →
      ∃ shown : List (Node × String), shown.map Prod.fst = postOrders parts ∧ ∀ seen,
        rewriteParts source visit.watched first stop parts (state, seen) =
          .ok ((after, seen ++ shown), output)
  | [], first, stop, state, after, output, h => by
    rw [rewriteParts] at h
    cases h
    exact ⟨[], rfl, fun seen => by rw [rewriteParts, List.append_nil]⟩
  | part :: rest, first, stop, state, after, output, h => by
    rw [rewriteParts, bind_ok_iff] at h
    obtain ⟨⟨middle, text⟩, hpart, h⟩ := h
    dsimp only at h
    rw [bind_ok_iff] at h
    obtain ⟨⟨last, behind⟩, hrest, h⟩ := h
    cases h
    obtain ⟨shown, hshown, hwatched⟩ := rewriteTree_watched part hpart
    obtain ⟨shown', hshown', hwatched'⟩ := rewriteParts_watched rest hrest
    refine ⟨shown ++ shown', by rw [List.map_append, hshown, hshown', postOrders], fun seen => ?_⟩
    rw [rewriteParts, hwatched seen, ← List.append_assoc]
    change rewriteParts source visit.watched part.stop stop rest (middle, seen ++ shown) >>= _ = _
    rw [hwatched' (seen ++ shown)]
    rfl

end

end Watched

def rewritten (source : String) (visit : Visitor σ) (program : Program) (state : σ) :
    Outcome TransformError String × σ :=
  match rewriteTree source visit program.tree state with
  | .error message => (.error (.panic message), state)
  | .ok (state, output) =>
    match parseText output with
    | .ok _ => (.ok output, state)
    | .error cause => (.error (.error (.invalidOutput cause)), state)

theorem checkOutput_eq {source : String} {program : Program} (h : parseText source = .ok program)
    (output : String) : checkOutput source output =
      match parseText output with
      | .ok _ => .ok output
      | .error cause => .error (.invalidOutput cause) := by
  unfold checkOutput
  split
  next hsame => rw [hsame, h]
  next => rfl

theorem revise_program (visit : Visitor σ) (state : σ) {source : String} {program : Program}
    (h : parseText source = .ok program) (hsource : source ≠ "") :
    revise visit state source = rewritten source visit program state := by
  obtain ⟨hlaid, hfirst, hstop⟩ := laid_of_parseText h hsource
  have hvisited := visitNodes_postOrder visit program.tree hlaid (Nat.le_of_eq hstop) state [] []
    hfirst.symm
  have hlength : (Chunks.ofChars source.toList).toList.length = source.utf8ByteSize := by
    rw [Array.length_toList, Chunks.size_ofChars, String.ofList_toList]
  have hchunks : ([] ++ piecesBetween source program.tree.first program.tree.stop ++ []).toArray =
      Chunks.ofChars source.toList := by
    rw [hfirst, hstop, List.nil_append, List.append_nil, piecesBetween, List.drop_zero,
      List.take_of_length_le (Nat.le_of_eq hlength)]
  rw [hchunks, Program.postOrder_tree] at hvisited
  unfold revise rewritten
  rw [h]
  dsimp only
  generalize visitNodes visit program.nodes state (.ofChars source.toList) = visited at hvisited
  generalize rewriteTree source visit program.tree state = text at hvisited
  cases hvisited with
  | panicked message => rfl
  | @went state mid hmid =>
    have hchars : Chunks.chars ([] ++ mid ++ []).toArray = mid.flatten := by simp [Chunks.chars]
    dsimp only
    rw [checkOutput_eq h, hchars]
    cases parseText (.ofList mid.flatten) <;> rfl

/-- A source that does not parse is refused before any visit. Of any other that is not empty, the
revision is the rewriting of the tree: the outcome is that of the recursion, and where the visitor
does not panic it is shown every node once, in post order, with the text that the recursion gives. -/
theorem revise_tree (visit : Visitor σ) (state : σ) (source : String) :
    (∀ cause, parseText source = .error cause →
      revise visit state source = (.error (.error (.invalidInput cause)), state)) ∧
    ∀ program, parseText source = .ok program → source ≠ "" →
      revise visit state source = rewritten source visit program state ∧
      revise visit.watched (state, []) source =
        rewritten source visit.watched program (state, []) ∧
      ∀ after output, rewriteTree source visit program.tree state = .ok (after, output) →
        ∃ shown : List (Node × String), shown.map Prod.fst = program.tree.postOrder ∧
          rewriteTree source visit.watched program.tree (state, []) =
            .ok ((after, shown), output) := by
  refine ⟨fun cause h => ?_, fun program h hsource => ⟨revise_program visit state h hsource,
    revise_program visit.watched (state, []) h hsource, fun after output hrewrite => ?_⟩⟩
  · unfold revise
    rw [h]
  · obtain ⟨shown, hshown, hwatched⟩ := rewriteTree_watched program.tree hrewrite
    exact ⟨shown, hshown, by rw [hwatched []]; rfl⟩

def numbering : Visitor Nat := fun node count =>
  match node.kind with
  | .identifier => .update ("n" ++ toString count) (.done (count + 1))
  | _ => .done count

theorem revise_tree_numbering : ∃ program, parseText "let é = a.b;" = .ok program ∧
    "let é = a.b;" ≠ "" ∧
    revise numbering 0 "let é = a.b;" = rewritten "let é = a.b;" numbering program 0 ∧
    (revise numbering 0 "let é = a.b;").1.toOption = some "let n0 = n1.n2;" ∧
    (revise numbering 0 "let é = a.b;").2 = 3 := by
  have hparses : (parseText "let é = a.b;").isOk = true := by decide +kernel
  rcases hprogram : parseText "let é = a.b;" with cause | program
  all_goals rw [hprogram] at hparses
  · cases hparses
  · have hsource : "let é = a.b;" ≠ "" := by decide
    obtain ⟨hrevise, _, _⟩ := (revise_tree numbering 0 "let é = a.b;").2 program hprogram hsource
    exact ⟨program, rfl, hsource, hrevise, by decide +kernel, by decide +kernel⟩

end Interpose.Edit
