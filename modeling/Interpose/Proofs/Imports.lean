import Interpose.CommandLine.Reach
import Interpose.Proofs.Loading

set_option autoImplicit false

namespace Interpose
open Script CommandLine

section Evaluate

variable {path : FilePath}

/-- Only the answers to imports that are stated make a difference. -/
theorem evaluate_congr {m : Type → Type} [Monad m]
    {require require' : String → ExceptT (Halt ModuleError) m Module} {statements : List Stmt}
    (h : ∀ {binding source span}, Stmt.imports binding source span ∈ statements →
      require source.value = require' source.value) (scope : Scope) (exports : Exports) :
    evaluate path require statements scope exports =
      evaluate path require' statements scope exports := by
  refine Load.evaluate_related Eq require require' (fun _ => rfl) (fun _ => rfl)
    (fun hmem _ _ hnext => ?_) scope exports
  rw [h hmem, funext hnext]

theorem evaluate_answered {parts : String → Outcome ModuleError Module} {statements : List Stmt}
    {scope : Scope} {exports result : Exports}
    (h : evaluate (m := Id) path parts statements scope exports = .ok result)
    {binding : Ident} {source : ModuleName} {span : Span}
    (hmem : Stmt.imports binding source span ∈ statements) :
    ∃ part, parts source.value = .ok part := by
  induction statements generalizing scope exports with
  | nil => cases hmem
  | cons statement rest ih =>
    cases statement with
    | imports other name where_ =>
      cases hpart : parts name.value with
      | error halt =>
        simp only [evaluate, hpart] at h
        cases h
      | ok part =>
        simp only [evaluate, hpart] at h
        rcases List.mem_cons.mp hmem with heq | hmem
        · cases heq
          exact ⟨part, hpart⟩
        · exact ih h hmem
    | binds name value where_ =>
      rcases List.mem_cons.mp hmem with heq | hmem
      · cases heq
      · simp only [evaluate] at h
        split at h
        · exact ih h hmem
        · cases h
    | exports name value where_ =>
      rcases List.mem_cons.mp hmem with heq | hmem
      · cases heq
      · simp only [evaluate] at h
        split at h
        · exact ih h hmem
        · cases h

theorem evaluate_answers (inv : LoadState → Prop) {require : String → Load Module}
    {parts : String → Outcome ModuleError Module} {statements : List Stmt}
    (h : ∀ {binding source span}, Stmt.imports binding source span ∈ statements → ∀ {s}, inv s →
      (require source.value s).1 = parts source.value ∧ inv (require source.value s).2)
    (scope : Scope) (exports : Exports) {s : LoadState} (hs : inv s) :
    (evaluate (m := StateM LoadState) path require statements scope exports s).1 =
        evaluate (m := Id) path parts statements scope exports ∧
      inv (evaluate (m := StateM LoadState) path require statements scope exports s).2 := by
  refine Load.evaluate_related
    (fun (load : Load Exports) (answer : ExceptT (Halt ModuleError) Id Exports) =>
      ∀ s, inv s → (load s).1 = answer ∧ inv (load s).2) require parts
    (fun _ _ hs => ⟨rfl, hs⟩) (fun _ _ hs => ⟨rfl, hs⟩) (fun {_ source _} hmem _ _ hnext s hs => ?_)
    scope exports s hs
  obtain ⟨hanswer, hafter⟩ := h hmem hs
  rcases hrequire : require source.value s with ⟨halt | module, t⟩
  all_goals rw [hrequire] at hanswer hafter
  · rw [Load.bind_of_error hrequire, ← hanswer]
    exact ⟨rfl, hafter⟩
  · rw [Load.bind_of_ok hrequire, ← hanswer]
    exact hnext module t hafter

end Evaluate

section CompileNative

variable {module : Module} {request : StageInput}

theorem mem_importsOf {source : String} {program : Program} (hparse : parseText source = .ok program)
    {binding : Ident} {name : ModuleName} {span : Span}
    (h : Stmt.imports binding name span ∈ program.statements) : name.value ∈ importsOf source := by
  rw [importsOf, hparse]
  exact List.mem_filterMap.mpr ⟨_, h, rfl⟩

theorem compileNative_congr {m : Type → Type} [Monad m]
    {require require' : FilePath → String → ExceptT (Halt ModuleError) m Module}
    (h : ∀ specifier ∈ importsOf request.content,
      require request.path specifier = require' request.path specifier) :
    compileNative require request = compileNative require' request := by
  unfold compileNative
  cases hparse : parseText request.content with
  | error cause => rfl
  | ok program => simp only [evaluate_congr fun hmem => h _ (mem_importsOf hparse hmem)]

theorem compileNative_answered {parts : FilePath → String → Outcome ModuleError Module}
    (h : compileNative (m := Id) parts request = .ok module) :
    ∀ specifier ∈ importsOf request.content, ∃ part, parts request.path specifier = .ok part := by
  intro specifier hspecifier
  unfold compileNative at h
  unfold importsOf at hspecifier
  cases hparse : parseText request.content with
  | error cause =>
    rw [hparse] at h
    cases h
  | ok program =>
    simp only [hparse] at h hspecifier
    obtain ⟨statement, hmem, hstated⟩ := List.mem_filterMap.mp hspecifier
    rcases hrun : evaluate (m := Id) request.path (parts request.path) program.statements [] []
      with halt | exports
    · change ExceptT.bindCont (m := Id) _ (evaluate (m := Id) request.path _ _ [] []) = _ at h
      rw [hrun] at h
      cases h
    · cases statement with
      | imports binding source span =>
        cases hstated
        exact evaluate_answered hrun hmem
      | binds name value span => cases hstated
      | exports name value span => cases hstated

theorem compileNative_answers (inv : LoadState → Prop)
    {require : FilePath → String → Load Module}
    {parts : FilePath → String → Outcome ModuleError Module}
    (h : ∀ specifier ∈ importsOf request.content, ∀ {s}, inv s →
      (require request.path specifier s).1 = parts request.path specifier ∧
        inv (require request.path specifier s).2) {s : LoadState} (hs : inv s) :
    (compileNative (m := StateM LoadState) require request s).1 =
        compileNative (m := Id) parts request ∧
      inv (compileNative (m := StateM LoadState) require request s).2 := by
  unfold compileNative
  cases hparse : parseText request.content with
  | error cause => exact ⟨rfl, hs⟩
  | ok program =>
    obtain ⟨hanswer, hafter⟩ := evaluate_answers inv
      (fun {_ _ _} hmem {_} ht => h _ (mem_importsOf hparse hmem) ht) [] [] hs
    dsimp only
    rcases hrun : evaluate (m := StateM LoadState) request.path (require request.path)
      program.statements [] [] s with ⟨halt | exports, t⟩
    all_goals rw [hrun] at hanswer hafter
    · rw [Load.bind_of_error hrun, ← hanswer]
      exact ⟨rfl, hafter⟩
    · rw [Load.bind_of_ok hrun, ← hanswer]
      exact ⟨rfl, hafter⟩

theorem compileNative_importless (request : StageInput) (h : importsOf request.content = [])
    (require : FilePath → String → Load Module)
    (parts : FilePath → String → Outcome ModuleError Module) (s : LoadState) :
    compileNative (m := StateM LoadState) require request s =
      (compileNative (m := Id) parts request, s) := by
  obtain ⟨hanswer, hafter⟩ := compileNative_answers (· = s) (fun specifier hspecifier => by
    rw [h] at hspecifier
    cases hspecifier) rfl
  exact Prod.ext hanswer hafter

end CompileNative

end Interpose
