import Interpose.Proofs.Loading
import Interpose.Proofs.Retext

/-!
Two loads side by side: one through the stage of an interceptor, and one through the native stage
from files in which the texts of the selected files are transformed already. Where the policy goes by
paths alone, the first comes to what the second comes to, and both loaders have the same modules
after them.
-/

set_option autoImplicit false

namespace Interpose
open Script Edit

def Policy.eligible (policy : Policy) (layout : Layout) (path : FilePath) : Bool :=
  match policy.selects layout path none with
  | .ok selected => selected
  | .error _ => false

/-- Goes by paths alone, and has what it needs to do so. -/
structure Policy.ByPath (policy : Policy) (layout : Layout) : Prop where
  unasked : policy ≠ .topLevelDependencies
  placed : policy = .noDependencies → layout.entryDir.isSome = true

theorem Policy.ByPath.selects {policy : Policy} {layout : Layout} (h : policy.ByPath layout)
    (path : FilePath) (requester : Option FilePath) :
    policy.selects layout path requester = .ok (policy.eligible layout path) := by
  unfold eligible
  cases policy with
  | allModules => rfl
  | explicit paths => rfl
  | topLevelDependencies => exact absurd rfl h.unasked
  | noDependencies =>
    obtain ⟨entryDir, hentry⟩ := Option.isSome_iff_exists.mp (h.placed rfl)
    simp only [Policy.selects, hentry]

def Content.rewrite (transformer : Transformer) : Content → Content
  | .text source =>
    match transformer source with
    | .ok transformed => .text transformed
    | .error _ => .binary
  | .binary => .binary

namespace FileTree

def rewrite (tree : FileTree) (files : Location → Bool) (transformer : Transformer) : FileTree :=
  tree.retext fun location content =>
    if files location then content.rewrite transformer else content

/-- The marked files are those that are selected under each path that loads know them by. -/
def Marks (tree : FileTree) (eligible : FilePath → Bool) (files : Location → Bool) : Prop :=
  ∀ path place, tree.Loadable path → tree.placeAt path = some place →
    files place.location = eligible path

/-- In a shallow tree, the files are marked whose locations' paths are selected. -/
theorem Shallow.marks {tree : FileTree} (htree : tree.Shallow) (eligible : FilePath → Bool) :
    tree.Marks eligible fun location => eligible (pathOf location) := by
  intro path place hpath hplace
  have hfits : fits path = true := decide_eq_true hpath.bounded
  obtain ⟨trail, name, content, htrail, hname, hfile, rfl⟩ := htree.loadable hpath
  rw [placeAt_pathOf htrail hname hfile hfits] at hplace
  cases hplace
  rfl

/-- How a load in a scope fails that fails like this on transformed files: where a marked file has
no text because it could not be transformed, it is the transformer that fails. -/
def told (tree : FileTree) (files : Location → Bool) (transformer : Transformer) :
    Halt ModuleError → Halt ModuleError
  | .error (.unreadable path) =>
    match tree.placeAt path with
    | some ⟨location, some (.file (.text source))⟩ =>
      match files location, transformer source with
      | true, .error (.error cause) => .error (.transform path cause)
      | true, .error (.panic message) => .panic message
      | _, _ => .error (.unreadable path)
    | _ => .error (.unreadable path)
  | halt => halt

theorem text_cases (tree : FileTree) (files : Location → Bool) (transformer : Transformer)
    (path : FilePath) :
    (∃ location source, tree.placeAt path = some ⟨location, some (.file (.text source))⟩ ∧
      tree.read path = some (.text source) ∧
      (tree.rewrite files transformer).read path =
        some (if files location then (Content.text source).rewrite transformer
          else .text source)) ∨
    ((∀ content, tree.read path ≠ some (.text content)) ∧
      (∀ content, (tree.rewrite files transformer).read path ≠ some (.text content)) ∧
      tree.told files transformer (.error (.unreadable path)) = .error (.unreadable path)) := by
  have hrewritten := tree.read_retext
    (fun location content => if files location then content.rewrite transformer else content) path
  rcases hplace : tree.placeAt path with _ | ⟨location, _ | (source | _) | target | inner⟩
  all_goals
    rw [hplace] at hrewritten
    change (tree.rewrite files transformer).read path = _ at hrewritten
    simp only [read, entryAt, told, hplace, Option.bind_some, Option.bind_none] at hrewritten ⊢
    rw [hrewritten]
  case some.some.file.text => exact .inl ⟨location, source, rfl, rfl, rfl⟩
  all_goals simp [Content.rewrite]

def Transformable (tree : FileTree) (files : Location → Bool) (transformer : Transformer) : Prop :=
  ∀ path location source,
    tree.placeAt path = some ⟨location, some (.file (.text source))⟩ → files location = true →
      ∃ text, transformer source = .ok text

theorem told_eq {tree : FileTree} {files : Location → Bool} {transformer : Transformer}
    (h : tree.Transformable files transformer) : tree.told files transformer = id := by
  funext halt
  unfold told
  split
  next path =>
    split
    next location source hplace =>
      split
      next cause hmarked hfails =>
        obtain ⟨text, htext⟩ := h path location source hplace hmarked
        cases hfails.symm.trans htext
      next message hmarked hfails =>
        obtain ⟨text, htext⟩ := h path location source hplace hmarked
        cases hfails.symm.trans htext
      next => rfl
    next => rfl
  next => rfl

end FileTree

structure Twins (layout : Layout) (stage : Stage) (s s' : LoadState) : Prop where
  layout_eq : s.loader.layout = layout
  layout_eq' : s'.loader.layout = layout
  stage_eq : s.loader.slot.current.stage = stage
  stage_eq' : s'.loader.slot.current.stage = .native
  cache : s.loader.cache = s'.loader.cache
  inFlight : s.loader.inFlight = s'.loader.inFlight

namespace Twins

variable {layout : Layout} {stage : Stage} {s s' : LoadState}

theorem called (hs : Twins layout stage s s') (calls : List TransformCall) :
    Twins layout stage { s with calls } s' := { hs with }

theorem enter (hs : Twins layout stage s s') (path : KeyedPath) :
    Twins layout stage (s.enter path) (s'.enter path) :=
  { hs with inFlight := congrArg (path :: ·) hs.inFlight }

theorem leave (hs : Twins layout stage s s') (path : KeyedPath) :
    Twins layout stage (s.leave path) (s'.leave path) :=
  { hs with
    inFlight := congrArg (List.filter fun other : KeyedPath => !other.same path) hs.inFlight }

theorem isInFlight (hs : Twins layout stage s s') (path : KeyedPath) :
    s.loader.isInFlight path = s'.loader.isInFlight path := by
  rw [Loader.isInFlight, Loader.isInFlight, hs.inFlight]

end Twins

namespace Load

/-- The first load comes to what the second one comes to, told in other words if it fails. -/
def Follows (told : Halt ModuleError → Halt ModuleError) (layout : Layout) (stage : Stage)
    {α : Type} (load twin : Load α) : Prop :=
  ∀ s s' : LoadState, Twins layout stage s s' →
    (load s).1 = (twin s').1.mapError told ∧ Twins layout stage (load s).2 (twin s').2

section Follows

variable {told : Halt ModuleError → Halt ModuleError} {layout : Layout} {stage : Stage}
  {α β : Type}

theorem follows_pure (value : α) : Follows told layout stage (pure value) (pure value) :=
  fun _ _ hs => ⟨rfl, hs⟩

theorem follows_throw {halt : Halt ModuleError} (h : told halt = halt) :
    Follows told layout stage (throw halt : Load α) (throw halt) :=
  fun _ _ hs => ⟨congrArg Except.error h.symm, hs⟩

theorem Follows.bind {load twin : Load α} {next next' : α → Load β}
    (h : Follows told layout stage load twin)
    (hnext : ∀ value, Follows told layout stage (next value) (next' value)) :
    Follows told layout stage (load >>= next) (twin >>= next') := by
  intro s s' hs
  obtain ⟨hresult, hafter⟩ := h s s' hs
  rcases htwin : twin s' with ⟨halt | value, t'⟩
  all_goals
    rw [htwin] at hresult hafter
    rcases hload : load s with ⟨result, t⟩
    rw [hload] at hresult hafter
    subst hresult
  · rw [bind_of_error hload, bind_of_error htwin]
    exact ⟨rfl, hafter⟩
  · rw [bind_of_ok hload, bind_of_ok htwin]
    exact hnext value _ _ hafter

end Follows

section Rewrite

variable {tree : FileTree} {files : Location → Bool} {transformer : Transformer} {layout : Layout}
  {stage : Stage}

theorem follows_evaluate {path : FilePath} {require require' : String → Load Module}
    (h : ∀ specifier, Follows (tree.told files transformer) layout stage (require specifier)
      (require' specifier)) (statements : List Stmt) (scope : Scope) (exports : Exports) :
    Follows (tree.told files transformer) layout stage
      (evaluate (m := StateM LoadState) path require statements scope exports)
      (evaluate (m := StateM LoadState) path require' statements scope exports) :=
  evaluate_related (Follows (tree.told files transformer) layout stage) require require'
    follows_pure (fun _ => follows_throw rfl) (fun _ _ _ => (h _).bind) scope exports

variable {require require' : FilePath → String → Load Module}

theorem follows_compileNative
    (h : ∀ importer specifier, Follows (tree.told files transformer) layout stage
      (require importer specifier) (require' importer specifier)) (request : StageInput) :
    Follows (tree.told files transformer) layout stage
      (compileNative (m := StateM LoadState) require request)
      (compileNative (m := StateM LoadState) require' request) := by
  unfold compileNative
  cases parseText request.content with
  | error cause => exact follows_throw rfl
  | ok program =>
    exact (follows_evaluate (h request.path) program.statements [] []).bind fun _ => follows_pure _

end Rewrite

end Load

def Stage.overNative (owner : OwnerId) (policy : Policy) (transformer : Transformer) : Stage :=
  .intercepting owner policy transformer ⟨1, none, .native⟩

namespace Load

section Intercepted

variable {tree : FileTree} {files : Location → Bool} {transformer : Transformer} {layout : Layout}
  {owner : OwnerId} {policy : Policy}

theorem compile_unselected {require : FilePath → String → Load Module} (request : StageInput)
    (h : policy.selects layout request.path request.requester = .ok false) (s : LoadState) :
    compile layout require (.overNative owner policy transformer) request s =
      compileNative (m := StateM LoadState) require request s := by
  unfold Stage.overNative compile
  rw [h]
  unfold compile
  rfl

theorem compile_unplaced {require : FilePath → String → Load Module} (request : StageInput)
    {error : ModuleError}
    (h : policy.selects layout request.path request.requester = .error error) (s : LoadState) :
    compile layout require (.overNative owner policy transformer) request s =
      (.error (.error error), s) := by
  unfold Stage.overNative compile
  rw [h]
  rfl

/-- What is selected is recorded, and compiled from the transformed text unless the transformer
fails. -/
theorem compile_recorded (require : FilePath → String → Load Module) (transformer : Transformer)
    (request : StageInput)
    (h : policy.selects layout request.path request.requester = .ok true) (s : LoadState) :
    let recorded := { s with calls := s.calls ++ [⟨owner, request.path, request.content⟩] }
    compile layout require (.overNative owner policy transformer) request s =
      match transformer request.content with
      | .ok content =>
        compileNative (m := StateM LoadState) require { request with content } recorded
      | .error (.error cause) => (.error (.error (.transform request.path cause)), recorded)
      | .error (.panic message) => (.error (.panic message), recorded) := by
  unfold Stage.overNative compile
  rw [h]
  unfold compile
  simp only [Load.transform]
  rcases transformer request.content with (cause | message) | content <;> rfl

theorem compile_selected (require : FilePath → String → Load Module) (transformer : Transformer)
    (request : StageInput)
    (h : policy.selects layout request.path request.requester = .ok true) (s : LoadState) :
    ∃ calls, compile layout require (.overNative owner policy transformer) request s =
      match transformer request.content with
      | .ok content =>
        compileNative (m := StateM LoadState) require { request with content } { s with calls }
      | .error (.error cause) => (.error (.error (.transform request.path cause)), { s with calls })
      | .error (.panic message) => (.error (.panic message), { s with calls }) :=
  ⟨_, compile_recorded require transformer request h s⟩

variable {require require' : FilePath → String → Load Module} {path : FilePath}

theorem follows_compileFile (hpolicy : policy.ByPath layout)
    (hmarks : tree.Marks (policy.eligible layout) files)
    (h : ∀ importer specifier, Follows (tree.told files transformer) layout
      (.overNative owner policy transformer) (require importer specifier)
      (require' importer specifier)) (hpath : tree.Loadable path) (requester : Option FilePath) :
    Follows (tree.told files transformer) layout (.overNative owner policy transformer)
      (compileFile tree require path requester)
      (compileFile (tree.rewrite files transformer) require' path requester) := by
  intro s s' hs
  rcases tree.text_cases files transformer path with
    ⟨location, source, hplace, htext, htext'⟩ | ⟨hnone, hnone', htold⟩
  · have hselects := hpolicy.selects path requester
    rw [← hmarks path _ hpath hplace] at hselects
    dsimp only at hselects
    rw [compileFile_text htext, hs.stage_eq, hs.layout_eq]
    cases hfile : files location with
    | false =>
      rw [hfile] at hselects
      rw [hfile, if_neg Bool.false_ne_true] at htext'
      rw [compile_unselected ⟨source, path, requester⟩ hselects,
        compileFile_native htext' hs.stage_eq']
      exact follows_compileNative h _ s s' hs
    | true =>
      rw [hfile] at hselects
      rw [hfile, if_pos rfl, Content.rewrite] at htext'
      obtain ⟨calls, hcompile⟩ :=
        compile_selected require transformer ⟨source, path, requester⟩ hselects s
      rw [hcompile]
      rcases htransformed : transformer source with (cause | message) | text
      all_goals rw [htransformed] at htext'
      · have htold : tree.told files transformer (.error (.unreadable path)) =
            .error (.transform path cause) := by
          simp only [FileTree.told, hplace, hfile, htransformed]
        rw [compileFile_unread (by simp [htext'])]
        exact ⟨congrArg Except.error htold.symm, hs.called calls⟩
      · have htold : tree.told files transformer (.error (.unreadable path)) =
            .panic message := by
          simp only [FileTree.told, hplace, hfile, htransformed]
        rw [compileFile_unread (by simp [htext'])]
        exact ⟨congrArg Except.error htold.symm, hs.called calls⟩
      · rw [compileFile_native htext' hs.stage_eq']
        exact follows_compileNative h ⟨text, path, requester⟩ _ s' (hs.called calls)
  · rw [compileFile_unread hnone, compileFile_unread hnone']
    exact ⟨congrArg Except.error htold.symm, hs⟩

theorem follows_compiled {depth : Nat} (hpolicy : policy.ByPath layout)
    (hmarks : tree.Marks (policy.eligible layout) files)
    (h : ∀ importer specifier, Follows (tree.told files transformer) layout
      (.overNative owner policy transformer) (imported tree depth layout importer specifier)
      (imported (tree.rewrite files transformer) depth layout importer specifier))
    (hpath : tree.Loadable path) (requester : Option FilePath) :
    Follows (tree.told files transformer) layout (.overNative owner policy transformer)
      (compiled tree depth layout path requester)
      (compiled (tree.rewrite files transformer) depth layout path requester) := by
  intro s s' hs
  obtain ⟨hanswer, hafter⟩ :=
    follows_compileFile hpolicy hmarks h hpath requester _ _ (hs.enter path.keyed)
  rw [compiled_apply, compiled_apply]
  rcases htwin : compileFile (tree.rewrite files transformer)
    (imported (tree.rewrite files transformer) depth layout) path requester (s'.enter path.keyed)
    with ⟨halt | module, t'⟩
  all_goals
    rw [htwin] at hanswer hafter
    rcases hload : compileFile tree (imported tree depth layout) path requester
      (s.enter path.keyed) with ⟨answer, t⟩
    rw [hload] at hanswer hafter
    subst hanswer
  · exact ⟨rfl, hafter.leave path.keyed⟩
  · have hcache : (t.leave path.keyed).loader.cache.getOrInsert path.keyed module =
        (t'.leave path.keyed).loader.cache.getOrInsert path.keyed module :=
      congrArg (Cache.getOrInsert · path.keyed module) hafter.cache
    exact ⟨congrArg (fun kept : Module × Cache => Except.ok kept.1) hcache,
      { hafter.leave path.keyed with cache := congrArg Prod.snd hcache }⟩

theorem follows_atPath (hpolicy : policy.ByPath layout)
    (hmarks : tree.Marks (policy.eligible layout) files) (depth : Nat)
    (hpath : tree.Loadable path) (requester : Option FilePath) :
    Follows (tree.told files transformer) layout (.overNative owner policy transformer)
      (atPath tree depth path requester)
      (atPath (tree.rewrite files transformer) depth path requester) := by
  -- by induction on how deep loads may nest: what holds of the loads of imports holds of
  -- the load
  induction depth using Nat.strongRecOn generalizing path requester with
  | _ depth ih =>
  intro s s' hs
  cases hcached : s'.loader.cache.get? path.keyed with
  | some module =>
    rw [atPath_cached hcached, atPath_cached (hs.cache ▸ hcached)]
    exact ⟨rfl, hs⟩
  | none =>
    have huncached : s.loader.cache.get? path.keyed = none := hs.cache ▸ hcached
    by_cases hflight : s'.loader.isInFlight path.keyed = true
    · rw [atPath_inFlight hcached hflight,
        atPath_inFlight huncached (hs.isInFlight path.keyed ▸ hflight)]
      exact ⟨rfl, hs⟩
    · cases depth with
      | zero =>
        rw [atPath_zero hcached, atPath_zero huncached]
        exact ⟨rfl, hs⟩
      | succ below =>
        rw [atPath_succ hcached hflight,
          atPath_succ huncached (hs.isInFlight path.keyed ▸ hflight), hs.layout_eq, hs.layout_eq']
        refine follows_compiled hpolicy hmarks (fun importer specifier => ?_) hpath requester s s' hs
        unfold imported
        rw [FileTree.rewrite, Layout.resolve_retext]
        cases hfile : layout.resolve tree specifier (some importer) with
        | error error => exact follows_throw (Layout.resolve_error hfile ▸ rfl)
        | ok file => exact ih below (Nat.lt_succ_self below) (Layout.loadable_of_resolve hfile) _

end Intercepted

end Load

section Requests

variable {tree : FileTree} {files : Location → Bool} {transformer : Transformer} {layout : Layout}
  {owner : OwnerId} {policy : Policy}

theorem Session.LoadRequest.follows_run (request : Session.LoadRequest) (owner : OwnerId)
    (transformer : Transformer) (hpolicy : policy.ByPath layout)
    (hmarks : tree.Marks (policy.eligible layout) files) :
    Load.Follows (tree.told files transformer) layout (.overNative owner policy transformer)
      (request.run tree) (request.run (tree.rewrite files transformer)) := by
  intro s s' hs
  have htarget' : request.target (tree.rewrite files transformer) layout =
      request.target tree layout := target_retext ..
  rw [run_apply, run_apply, hs.layout_eq, hs.layout_eq', htarget']
  cases htarget : request.target tree layout with
  | error error =>
    obtain ⟨text, rfl⟩ := target_error htarget
    exact ⟨rfl, hs⟩
  | ok target =>
    obtain ⟨found, requester⟩ := target
    exact Load.follows_atPath hpolicy hmarks Load.maxDepth (loadable_target htarget) requester
      s s' hs

theorem HostM.loads_follow (hpolicy : policy.ByPath layout)
    (hmarks : tree.Marks (policy.eligible layout) files) {id twinId : LoaderId}
    {host twin : Host} (hid : id < host.loaders.length) (htwinId : twinId < twin.loaders.length)
    (htree : host.tree = tree) (htwin : twin.tree = tree.rewrite files transformer)
    (hs : Twins layout (.overNative owner policy transformer) (host.loading id)
      (twin.loading twinId)) (requests : List Session.LoadRequest) :
    (loads id requests host).1 =
        (loads twinId requests twin).1.map (Except.mapError (tree.told files transformer)) ∧
      Twins layout (.overNative owner policy transformer)
        ((loads id requests host).2.loading id)
        ((loads twinId requests twin).2.loading twinId) := by
  induction requests generalizing host twin with
  | nil => exact ⟨rfl, hs⟩
  | cons request rest ih =>
    obtain ⟨hanswer, hafter⟩ := request.follows_run owner transformer hpolicy hmarks _ _ hs
    rw [← htwin] at hanswer hafter
    subst htree
    rw [← load_fst, ← load_fst] at hanswer
    rw [← loading_load hid, ← loading_load htwinId] at hafter
    obtain ⟨hanswers, hlast⟩ := ih ((World.length_load ..).symm ▸ hid)
      ((World.length_load ..).symm ▸ htwinId) (tree_load ..) ((tree_load ..).trans htwin) hafter
    rw [loads_cons, loads_cons]
    exact ⟨by rw [List.map_cons, hanswer, hanswers], hlast⟩

end Requests

end Interpose
