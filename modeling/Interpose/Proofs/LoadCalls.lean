import Interpose.Proofs.Requests

/-!
Loads inside loads. A stage passes a text on to the native one, evaluation gets from statement to
statement, and an import that it gets to begins a load of its own. What each single addition to the
cache keeps is kept by all the loads that a load consists of (`kept_run`).
-/

set_option autoImplicit false

namespace Interpose
open Script Edit

/-- What a stage hands to the native one: a request whose text has been through the transformers,
and the state in which it is compiled. -/
def Stage.passOn (layout : Layout) :
    Stage → StageInput → LoadState → Option (StageInput × LoadState)
  | .native, request, s => some (request, s)
  | .echo, _, _ => none
  | .refuse, _, _ => none
  | .intercepting owner policy transformer ⟨_, _, underlying⟩, request, s =>
    match policy.selects layout request.path request.requester with
    | .error _ => none
    | .ok false => underlying.passOn layout request s
    | .ok true =>
      match transformer request.content with
      | .error _ => none
      | .ok content =>
        underlying.passOn layout { request with content }
          { s with calls := s.calls ++ [⟨owner, request.path, request.content⟩] }

def Stage.Transforms : Stage → Prop
  | .native => True
  | .echo => False
  | .refuse => False
  | .intercepting _ _ _ ⟨_, _, underlying⟩ => underlying.Transforms

namespace Stage

variable {layout : Layout}

theorem passOn_same : ∀ {stage : Stage} {request passed : StageInput} {s t : LoadState},
    stage.passOn layout request s = some (passed, t) →
      passed.path = request.path ∧ t.loader = s.loader
  | .native, request, passed, s, t, h => by
    cases h
    exact ⟨rfl, rfl⟩
  | .echo, request, passed, s, t, h => by cases h
  | .refuse, request, passed, s, t, h => by cases h
  | .intercepting owner policy transformer ⟨_, _, underlying⟩, request, passed, s, t, h => by
    unfold passOn at h
    split at h
    · cases h
    · exact passOn_same h
    · split at h
      · cases h
      · have hbelow := passOn_same h
        exact hbelow

theorem compile_of_passOn (require : FilePath → String → Load Module) :
    ∀ {stage : Stage} {request passed : StageInput} {s t : LoadState},
      stage.passOn layout request s = some (passed, t) →
        Load.compile layout require stage request s = compileNative require passed t
  | .native, request, passed, s, t, h => by
    cases h
    unfold Load.compile
    rfl
  | .echo, request, passed, s, t, h => by cases h
  | .refuse, request, passed, s, t, h => by cases h
  | .intercepting owner policy transformer ⟨_, _, underlying⟩, request, passed, s, t, h => by
    unfold passOn at h
    unfold Load.compile
    cases hselects : policy.selects layout request.path request.requester with
    | error error =>
      rw [hselects] at h
      cases h
    | ok selected =>
      rw [hselects] at h
      cases selected with
      | false => exact compile_of_passOn require h
      | true =>
        simp only [Load.transform]
        rcases htext : transformer request.content with halt | content
        all_goals simp only [htext] at h
        · cases h
        · exact compile_of_passOn require h

theorem compile_withheld (require : FilePath → String → Load Module) :
    ∀ {stage : Stage} {request : StageInput} {s : LoadState},
      stage.passOn layout request s = none →
        (Load.compile layout require stage request s).2.loader = s.loader ∧
          (stage.Transforms → ∃ halt, (Load.compile layout require stage request s).1 = .error halt)
  | .native, request, s, h => by cases h
  | .echo, request, s, h => by
    unfold Load.compile
    exact ⟨rfl, False.elim⟩
  | .refuse, request, s, h => by
    unfold Load.compile
    exact ⟨rfl, False.elim⟩
  | .intercepting owner policy transformer ⟨_, _, underlying⟩, request, s, h => by
    unfold passOn at h
    unfold Load.compile
    cases hselects : policy.selects layout request.path request.requester with
    | error error => exact ⟨rfl, fun _ => ⟨.error error, rfl⟩⟩
    | ok selected =>
      rw [hselects] at h
      cases selected with
      | false => exact compile_withheld require h
      | true =>
        simp only [Load.transform]
        rcases htext : transformer request.content with (cause | message) | content
        all_goals simp only [htext] at h
        · exact ⟨rfl, fun _ => ⟨.error (.transform request.path cause), rfl⟩⟩
        · exact ⟨rfl, fun _ => ⟨.panic message, rfl⟩⟩
        · exact compile_withheld require h

end Stage

/-- Where the evaluation of a module's statements gets to: the statements that are left, what names
mean there, and the state. -/
inductive Reaches (path : FilePath) (require : String → Load Module) (first : List Stmt)
    (begun : LoadState) : List Stmt → Scope → LoadState → Prop where
  | start : Reaches path require first begun first [] begun
  | imports {binding : Ident} {source : ModuleName} {span : Span} {rest : List Stmt} {scope : Scope}
      {s t : LoadState} {module : Module}
      (before : Reaches path require first begun (.imports binding source span :: rest) scope s)
      (required : require source.value s = (.ok module, t)) :
      Reaches path require first begun rest ((binding.name, .module module) :: scope) t
  | binds {name : Ident} {value : Expr} {span : Span} {rest : List Stmt} {scope : Scope}
      {s : LoadState} {result : Value}
      (before : Reaches path require first begun (.binds name value span :: rest) scope s)
      (evaluated : evalExpr path scope value = .ok result) :
      Reaches path require first begun rest ((name.name, result) :: scope) s
  | exports {name : Ident} {value : Expr} {span : Span} {rest : List Stmt} {scope : Scope}
      {s : LoadState} {result : Value}
      (before : Reaches path require first begun (.exports name value span :: rest) scope s)
      (evaluated : evalExpr path scope value = .ok result) :
      Reaches path require first begun rest ((name.name, result) :: scope) s

theorem Reaches.extends {path : FilePath} {require : String → Load Module}
    (h : ∀ specifier, (require specifier).Adds) {first rest : List Stmt} {begun s : LoadState}
    {scope : Scope} (hreaches : Reaches path require first begun rest scope s) :
    s.loader.Extends begun.loader := by
  induction hreaches with
  | start => exact .refl _
  | @imports _ source _ _ _ s _ _ _ required ih =>
    have hadds := h source.value s
    rw [required] at hadds
    exact hadds.trans ih
  | binds _ _ ih => exact ih
  | exports _ _ ih => exact ih

inductive Ends (path : FilePath) (require : String → Load Module) (first : List Stmt)
    (begun : LoadState) : Except (Halt ModuleError) Exports × LoadState → Prop where
  | through {scope : Scope} {s : LoadState} {result : Exports}
      (reached : Reaches path require first begun [] scope s) :
      Ends path require first begun (.ok result, s)
  | imports {binding : Ident} {source : ModuleName} {span : Span} {rest : List Stmt} {scope : Scope}
      {s t : LoadState} {halt : Halt ModuleError}
      (reached : Reaches path require first begun (.imports binding source span :: rest) scope s)
      (failed : require source.value s = (.error halt, t)) :
      Ends path require first begun (.error halt, t)
  | fault {statements : List Stmt} {scope : Scope} {s : LoadState} {fault : EvalFault}
      (reached : Reaches path require first begun statements scope s) :
      Ends path require first begun (.error (.error (.evaluate path fault)), s)

theorem Reaches.ends {path : FilePath} {require : String → Load Module} {first : List Stmt}
    {begun s : LoadState} (statements : List Stmt) {scope : Scope} (exports : Exports)
    (h : Reaches path require first begun statements scope s) :
    Ends path require first begun
      (evaluate (m := StateM LoadState) path require statements scope exports s) := by
  induction statements generalizing scope exports s with
  | nil => exact .through h
  | cons statement rest ih =>
    cases statement with
    | imports binding source span =>
      rw [evaluate]
      rcases hrequire : require source.value s with ⟨halt | module, t⟩
      · rw [Load.bind_of_error hrequire]
        exact .imports h hrequire
      · rw [Load.bind_of_ok hrequire]
        exact ih _ (h.imports hrequire)
    | binds name value span =>
      simp only [evaluate]
      cases hvalue : evalExpr path scope value with
      | ok result => exact ih _ (h.binds hvalue)
      | error error =>
        obtain ⟨fault, rfl⟩ := Load.evalExpr_error hvalue
        exact .fault h
    | exports name value span =>
      simp only [evaluate]
      cases hvalue : evalExpr path scope value with
      | ok result => exact ih _ (h.exports hvalue)
      | error error =>
        obtain ⟨fault, rfl⟩ := Load.evalExpr_error hvalue
        exact .fault h

theorem ends_evaluate (path : FilePath) (require : String → Load Module) (first : List Stmt)
    (begun : LoadState) : Ends path require first begun
      (evaluate (m := StateM LoadState) path require first [] [] begun) :=
  Reaches.ends first [] .start

structure LoadCall where
  depth : Nat
  path : FilePath
  requester : Option FilePath
  start : LoadState

namespace LoadCall

def run (call : LoadCall) (tree : FileTree) : Outcome ModuleError Module × LoadState :=
  Load.atPath tree call.depth call.path call.requester call.start

def cached (call : LoadCall) : Option Module := call.start.loader.cache.get? call.path.keyed

theorem run_cached {call : LoadCall} {module : Module} (h : call.cached = some module)
    (tree : FileTree) : call.run tree = (.ok module, call.start) :=
  Load.atPath_cached h call.depth

/-- The load reads a text, and the native stage is to compile what is passed on of it. -/
structure Compiles (call : LoadCall) (tree : FileTree) (depth : Nat) (content : String)
    (passed : StageInput) (s : LoadState) : Prop where
  deep : call.depth = depth + 1
  uncached : call.cached = none
  idle : call.start.loader.isInFlight call.path.keyed = false
  text : tree.read call.path = some (.text content)
  passed : call.start.loader.slot.current.stage.passOn call.start.loader.layout
    ⟨content, call.path, call.requester⟩ (call.start.enter call.path.keyed) = some (passed, s)

/-- The load compiles the module from what is passed on of a text. -/
def Makes (call : LoadCall) (tree : FileTree) (content : String) (passed : StageInput)
    (module : Module) : Prop :=
  ∃ depth s t, call.Compiles tree depth content passed s ∧
    compileNative (m := StateM LoadState) (Load.imported tree depth call.start.loader.layout)
      passed s = (.ok module, t)

/-- In the module that the first load compiles, evaluation gets to an import; this begins the
other load. -/
inductive Imports (tree : FileTree) (importer : LoadCall) : LoadCall → Prop where
  | executed {depth : Nat} {content : String} {passed : StageInput} {s t : LoadState}
      {program : Program} {binding : Ident} {source : ModuleName} {span : Span} {rest : List Stmt}
      {scope : Scope} {file : FilePath}
      (compiles : importer.Compiles tree depth content passed s)
      (parsed : parseText passed.content = .ok program)
      (reached : Reaches importer.path
        (Load.imported tree depth importer.start.loader.layout importer.path) program.statements s
        (.imports binding source span :: rest) scope t)
      (resolved : importer.start.loader.layout.resolve tree source.value (some importer.path) =
        .ok file) :
      Imports tree importer ⟨depth, file, some importer.path, t⟩

theorem Imports.extends {tree : FileTree} {importer call : LoadCall}
    (h : importer.Imports tree call) :
    call.start.loader.layout = importer.start.loader.layout ∧
      call.start.loader.slot = importer.start.loader.slot := by
  cases h with
  | executed compiles parsed reached resolved =>
    have hreached := reached.extends
      (Load.keeps_imported (Load.adds_atPath tree _) _ importer.path)
    rw [(Stage.passOn_same compiles.passed).2] at hreached
    exact ⟨hreached.layout, hreached.slot⟩

theorem Imports.asked {tree : FileTree} {importer call : LoadCall} (h : importer.Imports tree call) :
    ∃ asked : Session.LoadRequest,
      asked.target tree importer.start.loader.layout = .ok (call.path, call.requester) := by
  cases h with
  | @executed _ _ _ _ _ _ _ source _ _ _ _ compiles parsed reached resolved =>
    refine ⟨.specifier source.value (some importer.path), ?_⟩
    rw [Session.LoadRequest.target, resolved]

end LoadCall

/-- The loads in question keep a property of the cache: it stays when one of them adds the module that
it has compiled. -/
def LoadCall.Keep (calls : LoadCall → Prop) (tree : FileTree) (P : Cache → Prop) : Prop :=
  ∀ {call : LoadCall} {module : Module} {cache : Cache}, calls call → call.cached = none →
    (call.run tree).1 = .ok module → cache.get? call.path.keyed = none → P cache →
      P (cache ++ [(call.path.keyed, module)])

theorem LoadCall.uncached_compileFile (tree : FileTree) (call : LoadCall) (below : Nat)
    (huncached : call.start.loader.cache.get? call.path.keyed = none) :
    (Load.compileFile tree (Load.imported tree below call.start.loader.layout) call.path
      call.requester (call.start.enter call.path.keyed)).2.loader.cache.get? call.path.keyed =
        none :=
  Load.uncached_compileFile (Load.staysUncached_atPath tree below)
    (by rw [LoadState.isInFlight_enter, KeyedPath.same_self, Bool.true_or]) huncached

section Kept

variable {tree : FileTree} {calls : LoadCall → Prop} {P : Cache → Prop}
  (himports : ∀ {importer call}, calls importer → importer.Imports tree call → calls call)

section Inside

variable {importer : LoadCall} {depth : Nat} {content : String} {passed : StageInput}
  {s : LoadState} {program : Program} (himporter : calls importer)
  (hcompiles : importer.Compiles tree depth content passed s)
  (h : ∀ {call}, call.depth = depth → calls call → P call.start.loader.cache →
    P (call.run tree).2.loader.cache)

include himports himporter hcompiles h

theorem kept_imported (hparse : parseText passed.content = .ok program)
    {binding : Ident} {source : ModuleName} {span : Span} {rest : List Stmt} {scope : Scope}
    {t : LoadState}
    (hreached : Reaches importer.path
      (Load.imported tree depth importer.start.loader.layout importer.path) program.statements s
      (.imports binding source span :: rest) scope t)
    (ht : P t.loader.cache) :
    P (Load.imported tree depth importer.start.loader.layout importer.path source.value
      t).2.loader.cache := by
  unfold Load.imported
  cases hfile : importer.start.loader.layout.resolve tree source.value (some importer.path) with
  | error error => exact ht
  | ok file => exact h rfl (himports himporter (.executed hcompiles hparse hreached hfile)) ht

theorem kept_reaches (hparse : parseText passed.content = .ok program) {statements : List Stmt}
    {scope : Scope} {t : LoadState}
    (hreached : Reaches importer.path
      (Load.imported tree depth importer.start.loader.layout importer.path) program.statements s
      statements scope t)
    (hs : P s.loader.cache) : P t.loader.cache := by
  induction hreached with
  | start => exact hs
  | imports before required ih =>
    have hrequired := kept_imported himports himporter hcompiles h hparse before ih
    rw [required] at hrequired
    exact hrequired
  | binds _ _ ih => exact ih
  | exports _ _ ih => exact ih

theorem kept_evaluate (hparse : parseText passed.content = .ok program) (hs : P s.loader.cache) :
    P (evaluate (m := StateM LoadState) importer.path
      (Load.imported tree depth importer.start.loader.layout importer.path) program.statements [] []
      s).2.loader.cache := by
  have hends := ends_evaluate importer.path
    (Load.imported tree depth importer.start.loader.layout importer.path) program.statements s
  rcases hrun : evaluate (m := StateM LoadState) importer.path
    (Load.imported tree depth importer.start.loader.layout importer.path) program.statements [] [] s
      with ⟨result, t⟩
  rw [hrun] at hends
  cases hends with
  | through reached => exact kept_reaches himports himporter hcompiles h hparse reached hs
  | imports reached failed =>
    have hrequired := kept_imported himports himporter hcompiles h hparse reached
      (kept_reaches himports himporter hcompiles h hparse reached hs)
    rw [failed] at hrequired
    exact hrequired
  | fault reached => exact kept_reaches himports himporter hcompiles h hparse reached hs

theorem kept_compileNative (hs : P s.loader.cache) :
    P (compileNative (m := StateM LoadState)
      (Load.imported tree depth importer.start.loader.layout) passed s).2.loader.cache := by
  unfold compileNative
  cases hparse : parseText passed.content with
  | error cause => exact hs
  | ok program =>
    have hkept := kept_evaluate himports himporter hcompiles h hparse hs
    simp only [(Stage.passOn_same hcompiles.passed).1]
    rcases hrun : evaluate (m := StateM LoadState) importer.path
      (Load.imported tree depth importer.start.loader.layout importer.path) program.statements [] [] s
        with ⟨halt | exports, t⟩
    all_goals rw [hrun] at hkept
    · rw [Load.bind_of_error hrun]
      exact hkept
    · rw [Load.bind_of_ok hrun]
      exact hkept

end Inside

include himports

theorem kept_compileFile {call : LoadCall} {depth : Nat} (hcall : calls call)
    (hdeep : call.depth = depth + 1) (huncached : call.cached = none)
    (hidle : call.start.loader.isInFlight call.path.keyed = false)
    (h : ∀ {call}, call.depth = depth → calls call → P call.start.loader.cache →
      P (call.run tree).2.loader.cache)
    (hcache : P call.start.loader.cache) :
    P (Load.compileFile tree (Load.imported tree depth call.start.loader.layout) call.path
      call.requester (call.start.enter call.path.keyed)).2.loader.cache := by
  by_cases hread : ∃ content, tree.read call.path = some (.text content)
  · obtain ⟨content, htext⟩ := hread
    rw [Load.compileFile_text htext]
    change P (Load.compile call.start.loader.layout _ call.start.loader.slot.current.stage _
      _).2.loader.cache
    cases hpassed : call.start.loader.slot.current.stage.passOn call.start.loader.layout
        ⟨content, call.path, call.requester⟩ (call.start.enter call.path.keyed) with
    | none =>
      rw [(Stage.compile_withheld _ hpassed).1]
      exact hcache
    | some handed =>
      obtain ⟨passed, s⟩ := handed
      have hs : P s.loader.cache := by
        rw [(Stage.passOn_same hpassed).2]
        exact hcache
      rw [Stage.compile_of_passOn _ hpassed]
      exact kept_compileNative himports hcall ⟨hdeep, huncached, hidle, htext, hpassed⟩ h hs
  · rw [Load.compileFile_unread (not_exists.mp hread)]
    exact hcache

variable (hkeep : LoadCall.Keep calls tree P)

include hkeep

theorem kept_run {call : LoadCall} (hcall : calls call) (hcache : P call.start.loader.cache) :
    P (call.run tree).2.loader.cache := by
  -- by induction on how deep loads may nest: what is kept by each single addition is kept
  -- by a load
  induction hdepth : call.depth using Nat.strongRecOn generalizing call with
  | _ depth ih =>
  unfold LoadCall.run
  rcases Load.atPath_cases tree call.depth call.path call.requester call.start with
    ⟨module, hcached, hload⟩ | ⟨hcached, hload⟩ | ⟨below, hbelow, hcached, hidle, hload⟩
  · rw [hload]
    exact hcache
  · rw [hload]
    exact hcache
  · have hdeeper : ∀ {other : LoadCall}, other.depth = below → calls other →
        P other.start.loader.cache → P (other.run tree).2.loader.cache := by
      intro other hother hcall hcache
      exact ih below (by omega) hcall hcache hother
    have hinside := kept_compileFile himports hcall hbelow hcached hidle hdeeper hcache
    have hstill := call.uncached_compileFile tree below hcached
    rw [hload]
    rcases hcompile : Load.compileFile tree (Load.imported tree below call.start.loader.layout)
      call.path call.requester (call.start.enter call.path.keyed) with ⟨halt | module, t⟩
    all_goals rw [hcompile] at hinside hstill
    · rw [Load.compiled_apply, hcompile]
      exact hinside
    · have hcompiled := Load.compiled_of_ok hcached hcompile
      rw [hcompiled]
      refine hkeep hcall hcached ?_ hstill hinside
      rw [LoadCall.run, hload, hcompiled]

theorem kept_reached {importer call : LoadCall} (himporter : calls importer)
    (hcache : P importer.start.loader.cache) (h : importer.Imports tree call) :
    P call.start.loader.cache := by
  cases h with
  | executed compiles parsed reached resolved =>
    refine kept_reaches himports himporter compiles
      (fun _ hcall hcache => kept_run himports hkeep hcall hcache) parsed reached ?_
    rw [(Stage.passOn_same compiles.passed).2]
    exact hcache

end Kept

theorem LoadCall.compileFile_of_run {tree : FileTree} {call : LoadCall}
    (huncached : call.cached = none) {module : Module} (h : (call.run tree).1 = .ok module) :
    ∃ below t, call.depth = below + 1 ∧
      call.start.loader.isInFlight call.path.keyed = false ∧
      Load.compileFile tree (Load.imported tree below call.start.loader.layout) call.path
        call.requester (call.start.enter call.path.keyed) = (.ok module, t) := by
  unfold run at h
  rcases Load.atPath_cases tree call.depth call.path call.requester call.start with
    ⟨kept, hcached, _⟩ | ⟨_, hload⟩ | ⟨below, hbelow, hcached, hidle, hload⟩
  · cases huncached.symm.trans hcached
  · rw [hload] at h
    cases h
  · rw [hload] at h
    rcases hcompile : Load.compileFile tree (Load.imported tree below call.start.loader.layout)
      call.path call.requester (call.start.enter call.path.keyed) with ⟨halt | made, t⟩
    · rw [Load.compiled_apply, hcompile] at h
      cases h
    · rw [Load.compiled_of_ok hcached hcompile] at h
      cases h
      exact ⟨below, t, hbelow, hidle, hcompile⟩

theorem LoadCall.makes_of_run {tree : FileTree} {call : LoadCall}
    (hstage : call.start.loader.slot.current.stage.Transforms) (huncached : call.cached = none)
    {module : Module} (h : (call.run tree).1 = .ok module) :
    ∃ content passed, call.Makes tree content passed module := by
  obtain ⟨below, t, hbelow, hidle, hcompile⟩ := compileFile_of_run huncached h
  obtain ⟨content, htext, hmade⟩ := Load.compileFile_ok hcompile
  change Load.compile call.start.loader.layout _ call.start.loader.slot.current.stage _ _ = _
    at hmade
  cases hpassed : call.start.loader.slot.current.stage.passOn call.start.loader.layout
      ⟨content, call.path, call.requester⟩ (call.start.enter call.path.keyed) with
  | none =>
    obtain ⟨halt, herror⟩ := (Stage.compile_withheld
      (Load.imported tree below call.start.loader.layout) hpassed).2 hstage
    rw [hmade] at herror
    cases herror
  | some handed =>
    obtain ⟨passed, s⟩ := handed
    rw [Stage.compile_of_passOn _ hpassed] at hmade
    exact ⟨content, passed, below, s, t, ⟨hbelow, huncached, hidle, htext, hpassed⟩, hmade⟩

end Interpose
