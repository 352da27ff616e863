import Interpose.CommandLine.Run
import Interpose.Proofs.Exchange
import Interpose.Proofs.LiteralEdit
import Interpose.Proofs.Nesting
import Interpose.Proofs.Rewritten
import Interpose.Proofs.SideBySide

set_option autoImplicit false

namespace Interpose
open Script Edit CommandLine

def Content.imports : Content → List String
  | .text source => importsOf source
  | .binary => []

namespace FileTree

/-- No file imports a string that the table replaces. -/
def KeepsImports (tree : FileTree) (table : List (String × String)) : Prop :=
  ∀ path content, tree.read path = some content → ∀ pair ∈ table, pair.1 ∉ content.imports

theorem Shallow.mem_files {tree : FileTree} (htree : tree.Shallow) {path : FilePath}
    {content : Content} (h : tree.read path = some content) :
    ∃ location, (location, content) ∈ tree.files := by
  have hplace : ∃ location,
      tree.placeOf Trail.anywhere path = some ⟨location, some (.file content)⟩ := by
    unfold read entryAt placeAt at h
    by_cases hfits : fits path = true
    · rw [if_pos hfits] at h
      rcases hfound : tree.placeOf Trail.anywhere path with _ | ⟨location, _ | _ | _ | _⟩
      all_goals
        rw [hfound] at h
        cases h
      exact ⟨location, rfl⟩
    · rw [if_neg hfits] at h
      cases h
  obtain ⟨location, hplace⟩ := hplace
  obtain ⟨_, trail, htrail, hleads⟩ := placeOf_iff.mp hplace
  rcases hleads.stands (stands_origin htree.workingDir htrail) fun _ hname => whole_of_mem_names hname with
    ⟨final, _, hfinal⟩ | ⟨final, name, hfinal, _, _, hlast⟩
  · cases hfinal
  · obtain ⟨_, hfound⟩ := Place.mk.inj hlast
    have hmem := Directory.filesOf_subset hfound.symm final.location
    rw [Directory.filesOf] at hmem
    exact ⟨_, hfinal.filesBelow_subset (hmem List.mem_cons_self)⟩

theorem Shallow.keepsImports {tree : FileTree} (htree : tree.Shallow)
    {table : List (String × String)}
    (h : ∀ file ∈ tree.files, ∀ pair ∈ table, pair.1 ∉ file.2.imports) :
    tree.KeepsImports table := by
  intro path content hread
  obtain ⟨location, hmem⟩ := htree.mem_files hread
  exact h _ hmem

end FileTree

/-- Both loads succeed, and the exports of the one are those of the other with their strings
exchanged; or both fail with the same code. -/
inductive Exchanged (strings : String → String) :
    Outcome ModuleError Module → Outcome ModuleError Module → Prop where
  | ok {module native : Module} (exports : module.toJson = native.toJson.mapStrings strings) :
      Exchanged strings (.ok module) (.ok native)
  | error {error native : ModuleError}
      (code : Diagnostic.codeOfModule error = Diagnostic.codeOfModule native) :
      Exchanged strings (.error (.error error)) (.error (.error native))

/-- Loads in which strings are replaced, and native ones. Modules are alike if they are the same once
the strings of the native one are exchanged; `marks` says what counts of their fingerprints. -/
def Pairing.replacing (layout : Layout) (owner : OwnerId) (table : List (String × String))
    (marks : String → String) : Pairing where
  layout := layout
  stage := .overNative owner .allModules (replaceStrings table)
  stage' := .native
  modules module native :=
    module.exchanged id marks = native.exchanged (replaced table) marks
  halts halt native := ∃ error cause, halt = .error error ∧ native = .error cause ∧
    Diagnostic.codeOfModule error = Diagnostic.codeOfModule cause

theorem ofLiteral_change (table : List (String × String)) (marks : String → String)
    (literal : Literal) :
    (Value.ofLiteral ((stringEdit table).change literal)).exchanged id marks =
      (Value.ofLiteral literal).exchanged (replaced table) marks := by
  cases literal with
  | string value =>
    rw [change_string]
    rfl
  | integer _ | boolean _ | null => rfl

namespace Load

section Replacing

variable {tree : FileTree} {layout : Layout} {owner : OwnerId} {table : List (String × String)}
  {marks : String → String}

variable {path : FilePath}

theorem pairs_evalExpr {results : Exports → Exports → Prop} {expr expr' : Expr}
    {scope scope' : Scope} {next next' : Value → Load Exports}
    (hlike : Expr.Like (stringEdit table).change expr expr')
    (hscope : Value.exchangedAll id marks scope' =
      Value.exchangedAll (replaced table) marks scope)
    (hnext : ∀ value value',
      value'.exchanged id marks = value.exchanged (replaced table) marks →
        Pairs (.replacing layout owner table marks) results (next' value') (next value)) :
    Pairs (.replacing layout owner table marks) results
      (match evalExpr path scope' expr' with
        | .ok value => next' value
        | .error error => throw (.error error))
      (match evalExpr path scope expr with
        | .ok value => next value
        | .error error => throw (.error error)) := by
  have hvalues := evalExpr_exchanged path (ofLiteral_change table marks) hlike hscope
  cases hvalue : evalExpr path scope expr with
  | ok value =>
    cases hvalue' : evalExpr path scope' expr' with
    | ok value' =>
      rw [hvalue, hvalue'] at hvalues
      exact hnext value value' (Option.some.inj hvalues)
    | error error =>
      rw [hvalue, hvalue'] at hvalues
      cases hvalues
  | error error =>
    cases hvalue' : evalExpr path scope' expr' with
    | ok value' =>
      rw [hvalue, hvalue'] at hvalues
      cases hvalues
    | error error' =>
      obtain ⟨fault, rfl⟩ := evalExpr_error hvalue
      obtain ⟨fault', rfl⟩ := evalExpr_error hvalue'
      exact pairs_throw ⟨_, _, rfl, rfl, rfl⟩

theorem pairs_evaluate {require require' : String → Load Module} {stmts stmts' : List Stmt}
    (hlike : List.Forall₂ (Stmt.Like (stringEdit table).change) stmts stmts')
    (hrequire : ∀ {binding source span}, Stmt.imports binding source span ∈ stmts →
      replaced table source.value = source.value ∧
        Pairing.Loads (.replacing layout owner table marks) (require source.value)
          (require' source.value))
    (scope scope' : Scope) (exports exports' : Exports)
    (hscope : Value.exchangedAll id marks scope' = Value.exchangedAll (replaced table) marks scope)
    (hexports : Value.exchangedAll id marks exports' =
      Value.exchangedAll (replaced table) marks exports) :
    Pairs (.replacing layout owner table marks)
      (fun exports' exports => Value.exchangedAll id marks exports' =
        Value.exchangedAll (replaced table) marks exports)
      (evaluate (m := StateM LoadState) path require stmts' scope' exports')
      (evaluate (m := StateM LoadState) path require' stmts scope exports) := by
  induction hlike generalizing scope scope' exports exports' with
  | nil => exact pairs_pure hexports
  | cons hstmt hrest ih =>
    have hbelow := ih fun hmem => hrequire (List.mem_cons_of_mem _ hmem)
    have hbound : ∀ name {value value' : Value},
        value'.exchanged id marks = value.exchanged (replaced table) marks →
          Value.exchangedAll id marks ((name, value') :: scope') =
            Value.exchangedAll (replaced table) marks ((name, value) :: scope) := by
      intro name value value' hvalue
      rw [Value.exchangedAll_cons, Value.exchangedAll_cons, hvalue, hscope]
    cases hstmt with
    | @imports name source source' span span' place place' all all' hsource =>
      obtain ⟨hkept, hpairs⟩ := hrequire List.mem_cons_self
      rw [change_string, hkept] at hsource
      cases hsource
      simp only [evaluate]
      refine hpairs.bind fun module native hmodule => hbelow _ _ _ _ (hbound name ?_) hexports
      exact congrArg Value.module hmodule
    | binds hvalue =>
      simp only [evaluate]
      refine pairs_evalExpr hvalue hscope fun value value' hvalue => ?_
      exact hbelow _ _ _ _ (hbound _ hvalue) hexports
    | exports hvalue =>
      simp only [evaluate]
      refine pairs_evalExpr hvalue hscope fun value value' hvalue => ?_
      refine hbelow _ _ _ _ (hbound _ hvalue) ?_
      rw [Value.exchangedAll_insert, Value.exchangedAll_insert, hvalue, hexports]

theorem pairs_compileNative {require require' : FilePath → String → Load Module}
    {requester : Option FilePath} {source output : String} {program program' : Program}
    (hparse : parseText source = .ok program) (hparse' : parseText output = .ok program')
    (hlike : List.Forall₂ (Stmt.Like (stringEdit table).change) program.statements
      program'.statements)
    (hkept : ∀ pair ∈ table, pair.1 ∉ importsOf source)
    (hmarks : marks (fingerprint output) = marks (fingerprint source))
    (hrequire : ∀ importer specifier,
      Pairing.Loads (.replacing layout owner table marks) (require importer specifier)
        (require' importer specifier)) :
    Pairing.Loads (.replacing layout owner table marks)
      (compileNative (m := StateM LoadState) require ⟨output, path, requester⟩)
      (compileNative (m := StateM LoadState) require' ⟨source, path, requester⟩) := by
  have himports : ∀ {binding : Ident} {source : ModuleName} {span : Span},
      Stmt.imports binding source span ∈ program.statements →
        replaced table source.value = source.value ∧
          Pairing.Loads (.replacing layout owner table marks) (require path source.value)
            (require' path source.value) := by
    intro binding name span hmem
    refine ⟨replaced_of_not_mem fun pair hpair hname => ?_, hrequire path name.value⟩
    exact hkept pair hpair (hname ▸ mem_importsOf hparse hmem)
  unfold compileNative
  dsimp only
  rw [hparse, hparse']
  refine (pairs_evaluate hlike himports [] [] [] [] rfl rfl).bind fun exports' exports hexports => ?_
  refine pairs_pure ?_
  change ModuleOf.mk _ _ _ = ModuleOf.mk _ _ _
  rw [hexports, hmarks]

theorem pairs_compileFile (hkept : tree.KeepsImports table)
    (hmarks : ∀ source output, replaceStrings table source = .ok output →
      marks (fingerprint output) = marks (fingerprint source))
    {require require' : FilePath → String → Load Module}
    (hrequire : ∀ importer specifier,
      Pairing.Loads (.replacing layout owner table marks) (require importer specifier)
        (require' importer specifier)) (requester : Option FilePath) :
    Pairing.Loads (.replacing layout owner table marks)
      (compileFile tree require path requester) (compileFile tree require' path requester) := by
  intro s s' hs
  by_cases htext : ∃ source, tree.read path = some (.text source)
  · obtain ⟨source, hread⟩ := htext
    have hlayout : s.loader.layout = layout := hs.layout_eq
    have hstage : s.loader.slot.current.stage =
        .overNative owner .allModules (replaceStrings table) := hs.stage_eq
    have hselects : Policy.allModules.selects layout path requester = .ok true := rfl
    obtain ⟨calls, hcompile⟩ :=
      compile_selected require (replaceStrings table) ⟨source, path, requester⟩ hselects s
    rw [compileFile_text hread, hlayout, hstage, hcompile, compileFile_native hread hs.stage_eq']
    cases hparse : parseText source with
    | error cause =>
      rw [replaceStrings_error hparse, compileNative]
      dsimp only
      rw [hparse]
      exact ⟨.error ⟨_, _, rfl, rfl, rfl⟩, hs.called calls⟩
    | ok program =>
      obtain ⟨output, program', houtput, hparse', hlike⟩ := replaceStrings_ok table hparse
      rw [houtput]
      exact pairs_compileNative hparse hparse' hlike (hkept path (.text source) hread)
        (hmarks source output houtput) hrequire _ _ (hs.called calls)
  · have hunread : ∀ source, tree.read path ≠ some (.text source) := fun source hread =>
      htext ⟨source, hread⟩
    rw [compileFile_unread hunread, compileFile_unread hunread]
    exact ⟨.error ⟨_, _, rfl, rfl, rfl⟩, hs⟩

theorem parallel_replacing (hkept : tree.KeepsImports table)
    (hmarks : ∀ source output, replaceStrings table source = .ok output →
      marks (fingerprint output) = marks (fingerprint source)) (layout : Layout) (owner : OwnerId) :
    Pairing.Parallel (.replacing layout owner table marks) tree tree where
  cyclic _ := ⟨_, _, rfl, rfl, rfl⟩
  notFound _ := ⟨_, _, rfl, rfl, rfl⟩
  resolve _ _ := rfl
  compileFile _ requester _ _ _ hrequire := pairs_compileFile hkept hmarks hrequire requester

end Replacing

end Load

section Fresh

variable {tree : FileTree} {layout : Layout} {owner : OwnerId} {table : List (String × String)}

theorem Pairing.states_replacing {s s' : LoadState} {slot : Slot}
    (hs : s.loader = { Loader.ofLayout layout with slot })
    (hslot : slot.current.stage = .overNative owner .allModules (replaceStrings table))
    (hs' : s'.loader = .ofLayout layout) (marks : String → String) :
    Pairing.States (.replacing layout owner table marks) s s' := by
  obtain ⟨loader, calls⟩ := s
  obtain ⟨loader', calls'⟩ := s'
  subst hs hs'
  exact ⟨rfl, rfl, hslot, rfl, .nil, rfl⟩

theorem Pairing.Results.exchanged {marks : String → String}
    {answer native : Outcome ModuleError Module}
    (h : Pairing.Results (.replacing layout owner table marks)
      (Pairing.modules (.replacing layout owner table marks)) answer native) :
    Exchanged (replaced table) answer native := by
  cases h with
  | @ok module native hmodules =>
    have hjson := congrArg ModuleOf.toJson hmodules
    rw [ModuleOf.toJson_exchanged, ModuleOf.toJson_exchanged, Json.mapStrings_id] at hjson
    exact .ok hjson
  | error hhalts =>
    obtain ⟨error, cause, rfl, rfl, hcode⟩ := hhalts
    exact .error hcode

theorem Pairing.eq_of_replacing_nil {module native : Module}
    (h : Pairing.modules (.replacing layout owner [] id) module native) : module = native := by
  have hsame : module.exchanged id id = native.exchanged id id := h
  rwa [Module.exchanged_id, Module.exchanged_id] at hsame

theorem Pairing.Results.ok_of_replacing_nil {answer native : Outcome ModuleError Module}
    {module : Module} (h : Pairing.Results (.replacing layout owner [] id)
      (Pairing.modules (.replacing layout owner [] id)) answer native)
    (hmodule : native = .ok module) : answer = .ok module := by
  cases h with
  | ok hmodules => rw [eq_of_replacing_nil hmodules, hmodule]
  | error hhalts => cases hmodule

theorem Pairing.cache_of_replacing_nil {s s' : LoadState}
    (h : Pairing.States (.replacing layout owner [] id) s s') : s.loader.cache = s'.loader.cache := by
  have hcache := h.cache
  generalize s.loader.cache = cache, s'.loader.cache = cache' at hcache
  induction hcache with
  | nil => rfl
  | cons hentry _ ih =>
    obtain ⟨hkey, hmodule⟩ := hentry
    rw [ih, Prod.ext hkey (eq_of_replacing_nil hmodule)]

end Fresh

namespace CommandLine

/-- The interceptor that the program builds on its loader. -/
def interceptor (policy : Policy) (transformer : Transformer) : Interceptor :=
  ⟨1, 0, policy, transformer, ⟨1, none, .native⟩, []⟩

variable {layout : Layout} {policy : Policy} {transformer : Transformer} {tree : FileTree}

theorem load_apply {built entered : Host} {activation : Activation}
    (hnew : Interceptor.new 0 policy transformer (World.start tree [layout]).host =
      (.ok (interceptor policy transformer), built))
    (hactivate : (interceptor policy transformer).activate built = (.ok activation, entered))
    (entry : FilePath) : (load entry layout policy transformer (.start tree)).1 =
      .ok (HostM.load 0 (Session.LoadRequest.path entry).run entered).1 := by
  have hlift := HostedM.lift_apply (HostM.load 0 (Session.LoadRequest.path entry).run) () entered
  have hload : (load entry layout policy transformer (.start tree)).1 =
      ((interceptor policy transformer).withScope
        (liftM (HostM.load 0 (Session.LoadRequest.path entry).run)) () built).1.1 := by
    cases hnew
    rfl
  rw [hload, Interceptor.withScope_entered hactivate hlift]

theorem load_alike {table : List (String × String)} (hkept : tree.KeepsImports table)
    {built entered : Host}
    (hnew : Interceptor.new 0 .allModules (replaceStrings table) (World.start tree [layout]).host =
      (.ok (interceptor .allModules (replaceStrings table)), built))
    (hopens : (interceptor .allModules (replaceStrings table)).Opens built entered)
    (marks : String → String) (hmarks : ∀ source output, replaceStrings table source = .ok output →
      marks (fingerprint output) = marks (fingerprint source)) (request : Session.LoadRequest) :
    let host := (World.start tree [layout]).host
    Pairing.Results (.replacing layout 1 table marks)
        (Pairing.modules (.replacing layout 1 table marks)) (HostM.load 0 request.run entered).1
        (HostM.load 0 request.run host).1 ∧
      Pairing.States (.replacing layout 1 table marks)
        ((HostM.load 0 request.run entered).2.loading 0)
        ((HostM.load 0 request.run host).2.loading 0) := by
  intro host
  cases hnew
  obtain ⟨slot, hslot, hself⟩ := hopens.loader
  have htree : entered.tree = tree := hopens.tree
  have hknown : 0 < entered.loaders.length := hopens.length ▸ Nat.zero_lt_one
  have hstates : Pairing.States (.replacing layout 1 table marks) (entered.loading 0)
      (host.loading 0) := Pairing.states_replacing hself hslot rfl marks
  refine hstates.load ?_ hknown Nat.zero_lt_one request (by rw [htree]; rfl)
  rw [htree]
  exact Load.parallel_replacing hkept hmarks layout 1

/-- Loading the entry module while its strings and those of all modules are replaced comes to loading
it as it is and replacing the strings in what it exports. Without replacements, all modules that are
loaded are the same. -/
theorem load_replacing {table : List (String × String)} (hkept : tree.KeepsImports table)
    (layout : Layout) (entry : FilePath) :
    let host := (World.start tree [layout]).host
    let replacing := interceptor .allModules (replaceStrings table)
    ∃ built answer cache after native nativeCache,
      Interceptor.new 0 .allModules (replaceStrings table) host = (.ok replacing, built) ∧
      replacing.withScope (liftM (HostM.answers 0 [.path entry])) () built =
        ((.ok ([answer], cache), ()), after) ∧
      (load entry layout .allModules (replaceStrings table) (.start tree)).1 = .ok answer ∧
      (HostM.answers 0 [.path entry] host).1 = ([native], nativeCache) ∧
      Exchanged (replaced table) answer native ∧
      (table = [] → cache = nativeCache ∧ ∀ module, native = .ok module → answer = .ok module) := by
  intro host replacing
  have hnew : Interceptor.new 0 .allModules (replaceStrings table) host =
      (.ok replacing, { host with nextOwner := 2 }) := rfl
  have hopen : replacing.CanOpen { host with nextOwner := 2 } := .inl rfl
  obtain ⟨activation, entered, hactivate, hopens⟩ := hopen.activate Nat.zero_lt_one
  have hlift := HostedM.lift_apply (HostM.answers 0 [.path entry]) () entered
  have hscope := Interceptor.withScope_entered hactivate hlift
  refine ⟨_, _, _, _, _, _, hnew, hscope, load_apply hnew hactivate entry, rfl, ?_, ?_⟩
  · have halike := load_alike hkept hnew hopens (fun _ => "") (fun _ _ _ => rfl) (.path entry)
    exact halike.1.exchanged
  · rintro rfl
    have hmarks : ∀ source output, replaceStrings [] source = .ok output →
        id (fingerprint output) = id (fingerprint source) := by
      intro source output houtput
      rw [replaceStrings_nil houtput]
    obtain ⟨hresults, hleft⟩ := load_alike hkept hnew hopens id hmarks (.path entry)
    refine ⟨Pairing.cache_of_replacing_nil hleft, fun module hmodule => ?_⟩
    exact hresults.ok_of_replacing_nil hmodule

def swappedFiles : FileTree :=
  ⟨[("a.svs", .file (.text "import l from \"./l\"; export x = \"p\"; export l = l;")),
    ("l.svs", .file (.text "export p = \"q\"; export n = 1;"))], []⟩

def swap : List (String × String) := [("p", "q"), ("q", "p")]

theorem load_replacing_swapped :
    swappedFiles.KeepsImports swap ∧
    let host := (World.start swappedFiles [.withoutEntryDir]).host
    let replacing := interceptor .allModules (replaceStrings swap)
    ∃ built answer cache after native nativeCache,
      Interceptor.new 0 .allModules (replaceStrings swap) host = (.ok replacing, built) ∧
      replacing.withScope (liftM (HostM.answers 0 [.path ⟨"/a.svs"⟩])) () built =
        ((.ok ([answer], cache), ()), after) ∧
      (load ⟨"/a.svs"⟩ .withoutEntryDir .allModules (replaceStrings swap)
        (.start swappedFiles)).1 = .ok answer ∧
      (HostM.answers 0 [.path ⟨"/a.svs"⟩] host).1 = ([native], nativeCache) ∧
      Exchanged (replaced swap) answer native ∧
      (swap = [] → cache = nativeCache ∧ ∀ module, native = .ok module → answer = .ok module) := by
  have hshallow : swappedFiles.Shallow := ⟨by decide +kernel, by simp [swappedFiles]⟩
  have hkept : swappedFiles.KeepsImports swap := hshallow.keepsImports (by decide +kernel)
  exact ⟨hkept, load_replacing hkept .withoutEntryDir ⟨"/a.svs"⟩⟩

example :
    ((load ⟨"/a.svs"⟩ .withoutEntryDir .allModules (replaceStrings swap)
      (.start swappedFiles)).1.toOption.bind Except.toOption).map
        (fun module => module.toJson.compact) =
      some "\x7b\"l\":\x7b\"n\":1,\"p\":\"p\"\x7d,\"x\":\"q\"\x7d" := by
  decide +kernel

end CommandLine

end Interpose
