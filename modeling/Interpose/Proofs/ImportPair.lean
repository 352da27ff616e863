import Interpose.Proofs.Imports
import Interpose.Proofs.Native

set_option autoImplicit false

namespace Interpose
open Script CommandLine

namespace Load

section Uncached

variable {tree : FileTree} {path : FilePath} {requester : Option FilePath} {s : LoadState}
  {text : String} {module : Module}

theorem atPath_of_compileFile {depth : Nat} (huncached : s.loader.cache.get? path.keyed = none)
    (hidle : s.loader.isInFlight path.keyed = false)
    (h : (compileFile tree (imported tree depth s.loader.layout) path requester
      (s.enter path.keyed)).1 = .ok module) :
    (atPath tree (depth + 1) path requester s).1 = .ok module := by
  have hrun := Prod.ext (y := (_, _)) h rfl
  rw [atPath_succ huncached (by rw [hidle]; decide), compiled_of_ok huncached hrun]

variable (hread : tree.read path = some (.text text))
  (hstage : s.loader.slot.current.stage = .native)
  (huncached : s.loader.cache.get? path.keyed = none)
  (hidle : s.loader.isInFlight path.keyed = false)

include hread hstage huncached hidle

theorem atPath_importless (importless : importsOf text = [])
    {parts : FilePath → String → Outcome ModuleError Module}
    (made : compileNative (m := Id) parts ⟨text, path, none⟩ = .ok module) (depth : Nat) :
    (atPath tree (depth + 1) path requester s).1 = .ok module := by
  refine atPath_of_compileFile huncached hidle ?_
  rw [compileFile_native hread (s := s.enter path.keyed) hstage,
    compileNative_importless ⟨text, path, requester⟩ importless _ parts]
  exact made

theorem atPath_importing {specifier : String} (imports : importsOf text = [specifier])
    {file : FilePath} (resolved : s.loader.layout.resolve tree specifier (some path) = .ok file)
    {depth : Nat} {part : Module}
    (hpart : (atPath tree depth file (some path) (s.enter path.keyed)).1 = .ok part)
    (made : compileNative (m := Id) (fun _ _ => .ok part) ⟨text, path, none⟩ = .ok module) :
    (atPath tree (depth + 1) path requester s).1 = .ok module := by
  have hmade : compileNative (m := Id) (fun _ _ => .ok part) ⟨text, path, requester⟩ =
      .ok module := made
  refine atPath_of_compileFile huncached hidle ?_
  rw [compileFile_native hread (s := s.enter path.keyed) hstage]
  refine (compileNative_answers (fun t => (atPath tree depth file (some path) t).1 = .ok part)
    (fun stated hstated {t} ht => ?_) hpart).1.trans hmade
  rw [imports, List.mem_singleton] at hstated
  subst hstated
  have hfound : (ofExcept (.ok file) : Load FilePath) t = (.ok file, t) := rfl
  have hkept := atPath_ok (Prod.ext (y := (_, _)) ht rfl)
  unfold imported
  rw [resolved, bind_of_ok hfound]
  exact ⟨ht, congrArg Prod.fst (atPath_cached hkept depth)⟩

end Uncached

theorem le_maxDepth {depth : Nat} (h : depth ≤ 256) : depth ≤ maxDepth := by
  have hbase : ∀ bytes, 256 ≤ Nat.pow 256 (bytes + 1) := fun bytes =>
    Nat.le_self_pow bytes.succ_ne_zero 256
  delta maxDepth
  exact Nat.le_trans h (hbase maxPathBytes)

theorem two_le_maxDepth : 2 ≤ maxDepth := le_maxDepth (by decide)

end Load

def unanswered (_ : FilePath) (_ : String) : Outcome ModuleError Module :=
  .error (.error (.notFound ""))

/-- The first file imports the second one and nothing else, the second one imports nothing, and both
compile. -/
inductive ImportPair (tree : FileTree) (layout : Layout) (importer leaf : FilePath) : Prop where
  | pair {text specifier leafText : String} (reads : tree.read importer = some (.text text))
      (imports : importsOf text = [specifier])
      (resolved : layout.resolve tree specifier (some importer) = .ok leaf)
      (readsLeaf : tree.read leaf = some (.text leafText)) (importless : importsOf leafText = [])
      (apart : leaf.same importer = false)
      (compiles : (Except.bind (compileNative (m := Id) unanswered ⟨leafText, leaf, none⟩)
        fun part => compileNative (m := Id) (fun _ _ => .ok part) ⟨text, importer, none⟩).isOk = true) :
      ImportPair tree layout importer leaf

theorem ImportPair.load {tree : FileTree} {layout : Layout} {importer leaf : FilePath}
    (h : ImportPair tree layout importer leaf) {s : LoadState} (hlayout : s.loader.layout = layout)
    (hstage : s.loader.slot.current.stage = .native) (hidle : s.loader.inFlight = [])
    (hempty : s.loader.cache = []) (requester : Option FilePath) :
    ∃ module, (Load.atPath tree Load.maxDepth importer requester s).1 = .ok module := by
  obtain @⟨text, specifier, leafText, reads, imports, resolved, readsLeaf, importless, apart,
    compiles⟩ := h
  cases made : compileNative (m := Id) unanswered ⟨leafText, leaf, none⟩ with
  | error halt =>
    rw [made] at compiles
    cases compiles
  | ok part =>
  rw [made] at compiles
  have huncached : ∀ path, s.loader.cache.get? path = none := by
    intro path
    rw [hempty]
    rfl
  have hidleImporter : s.loader.isInFlight importer.keyed = false := by
    rw [Loader.isInFlight, hidle, List.any_nil]
  have hidleLeaf : (s.enter importer.keyed).loader.isInFlight leaf.keyed = false := by
    rw [s.isInFlight_enter, KeyedPath.same_eq, Loader.isInFlight, hidle, List.any_nil,
      Bool.or_false]
    exact apart
  obtain ⟨depth, hdepth⟩ := Nat.exists_eq_add_of_le' Load.two_le_maxDepth
  rcases hmade : compileNative (m := Id) (fun _ _ => .ok part) ⟨text, importer, none⟩
    with halt | module
  · have hrefused : (compileNative (m := Id) (fun _ _ => .ok part) ⟨text, importer, none⟩).isOk =
        true := compiles
    rw [hmade] at hrefused
    cases hrefused
  · rw [hdepth]
    exact ⟨module, Load.atPath_importing reads hstage (huncached _) hidleImporter imports
      (hlayout ▸ resolved) (Load.atPath_importless (s := s.enter importer.keyed) readsLeaf hstage
        (huncached _) hidleLeaf importless made depth) hmade⟩

end Interpose
