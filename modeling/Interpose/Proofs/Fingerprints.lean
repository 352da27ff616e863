import Interpose.Proofs.ListedFiles

set_option autoImplicit false

namespace Interpose
open Script Edit

namespace Text

def hexDigits : ℕ → ℕ → List Char
  | 0, _ => []
  | width + 1, n => hexDigits width (n / 16) ++ [(n % 16).digitChar]

theorem length_hexDigits (width n : ℕ) : (hexDigits width n).length = width := by
  induction width generalizing n with
  | zero => rfl
  | succ width ih => rw [hexDigits, List.length_append, ih, List.length_singleton]

theorem hexDigits_mod (width n : ℕ) : hexDigits width (n % 16 ^ width) = hexDigits width n := by
  induction width generalizing n with
  | zero => rfl
  | succ width ih =>
    rw [hexDigits, hexDigits, pow_succ', Nat.mod_mul_right_mod, Nat.mod_mul_right_div_self, ih]

theorem hexDigits_eq_iff {width n m : ℕ} :
    hexDigits width n = hexDigits width m ↔ n % 16 ^ width = m % 16 ^ width := by
  refine ⟨fun h => ?_, fun h => by rw [← hexDigits_mod, h, hexDigits_mod]⟩
  have hdigit : ∀ a b : Fin 16, a.val.digitChar = b.val.digitChar → a = b := by decide
  induction width generalizing n m with
  | zero => rw [pow_zero, Nat.mod_one, Nat.mod_one]
  | succ width ih =>
    obtain ⟨hothers, hlast⟩ := List.append_inj' h rfl
    have hlast : n % 16 = m % 16 := congrArg Fin.val (hdigit ⟨n % 16, Nat.mod_lt n (by decide)⟩
      ⟨m % 16, Nat.mod_lt m (by decide)⟩ (List.singleton_inj.mp hlast))
    rw [pow_succ', Nat.mod_mul, Nat.mod_mul, hlast, ih hothers]

theorem drop_hexDigits (first last n : ℕ) :
    (hexDigits (first + last) n).drop first = hexDigits last n := by
  induction last generalizing n with
  | zero => exact List.drop_of_length_le (length_hexDigits first n).le
  | succ last ih =>
    rw [← Nat.add_assoc, hexDigits, List.drop_append_of_le_length, ih, hexDigits]
    rw [length_hexDigits]
    exact Nat.le_add_right first last

theorem hex_of_lt {n : ℕ} (h : n < 16) : hex n = [n.digitChar] := Nat.toDigits_of_lt_base h

theorem hex_of_le {n : ℕ} (h : 16 ≤ n) : hex n = hex (n / 16) ++ [(n % 16).digitChar] :=
  Nat.toDigits_of_base_le (by decide) h

theorem paddedHex_succ (width n : ℕ) :
    paddedHex (width + 2) n = paddedHex (width + 1) (n / 16) ++ [(n % 16).digitChar] := by
  unfold paddedHex
  rcases Nat.lt_or_ge n 16 with h | h
  · rw [Nat.div_eq_of_lt h, Nat.mod_eq_of_lt h, hex_of_lt h, hex_of_lt (by decide : 0 < 16)]
    exact congrArg (· ++ [n.digitChar]) List.replicate_succ'
  · have hpadding : width + 2 - ((hex (n / 16)).length + 1) =
        width + 1 - (hex (n / 16)).length := Nat.add_sub_add_right (width + 1) 1 _
    rw [hex_of_le h, List.length_append, List.length_singleton, hpadding, List.append_assoc]

theorem paddedHex_eq (width : ℕ) {n : ℕ} (h : n < 16 ^ (width + 1)) :
    paddedHex (width + 1) n = hexDigits (width + 1) n := by
  induction width generalizing n with
  | zero =>
    have hlast : n % 16 = n := Nat.mod_eq_of_lt h
    rw [paddedHex, hex_of_lt h, hexDigits, hlast]
    rfl
  | succ width ih =>
    have hless : n / 16 < 16 ^ (width + 1) := Nat.div_lt_of_lt_mul (pow_succ' 16 _ ▸ h)
    rw [paddedHex_succ, ih hless]
    rfl

end Text

namespace Hash

/-- The 64-bit FNV-1a hash of bytes, with any number to multiply by. -/
def fnv1a (factor : ℕ) (bytes : List UInt8) : ℕ :=
  bytes.foldl (fun hash byte => (hash ^^^ byte.toNat) * factor % 2 ^ 64) 14695981039346656037

def fnvPrime : ℕ := 1099511628211

theorem fnv1a_concat (factor : ℕ) (bytes : List UInt8) (byte : UInt8) :
    fnv1a factor (bytes ++ [byte]) =
      (fnv1a factor bytes ^^^ byte.toNat) * factor % 2 ^ 64 := List.foldl_concat _ _ _ _

theorem ofBytes_concat (bytes : List UInt8) (byte : UInt8) :
    ofBytes (bytes ++ [byte]) = step (ofBytes bytes) byte := List.foldl_concat _ _ _ _

theorem toNat_step (hash : UInt64) (byte : UInt8) :
    (step hash byte).toNat = (hash.toNat ^^^ byte.toNat) * (2 ^ 44 + 435) % 2 ^ 64 := by
  rw [step, UInt64.toNat_mul, UInt64.toNat_xor, UInt8.toNat_toUInt64]
  rfl

theorem toNat_ofBytes (bytes : List UInt8) :
    (ofBytes bytes).toNat = fnv1a (2 ^ 44 + 435) bytes := by
  induction bytes using List.reverseRecOn with
  | nil => rfl
  | append_singleton bytes byte ih => rw [ofBytes_concat, toNat_step, ih, ← fnv1a_concat]

/-- A hash goes by the last bits of the one before it and of the factor. -/
theorem fnv1a_congr {factor factor' bits : ℕ} (hbits : bits ≤ 64)
    (h : factor % 2 ^ bits = factor' % 2 ^ bits) (bytes : List UInt8) :
    fnv1a factor bytes % 2 ^ bits = fnv1a factor' bytes % 2 ^ bits := by
  have hcut : ∀ n : ℕ, n % 2 ^ 64 % 2 ^ bits = n % 2 ^ bits :=
    fun n => Nat.mod_mod_of_dvd n (pow_dvd_pow 2 hbits)
  induction bytes using List.reverseRecOn with
  | nil => rfl
  | append_singleton bytes byte ih =>
    rw [fnv1a_concat, fnv1a_concat, hcut, hcut, Nat.mul_mod, Nat.xor_mod_two_pow, ih, h,
      ← Nat.xor_mod_two_pow, ← Nat.mul_mod]

theorem fnv1a_lt (factor : ℕ) (bytes : List UInt8) : fnv1a factor bytes < 2 ^ 64 := by
  induction bytes using List.reverseRecOn with
  | nil =>
    change 14695981039346656037 < 2 ^ 64
    decide
  | append_singleton bytes byte _ =>
    rw [fnv1a_concat]
    exact Nat.mod_lt _ (by decide)

theorem fnv1a_mod (bytes : List UInt8) :
    fnv1a (2 ^ 44 + 435) bytes % 2 ^ 40 = fnv1a fnvPrime bytes % 2 ^ 40 :=
  fnv1a_congr (by decide) (by decide) bytes

end Hash

theorem toList_fingerprint (source : String) :
    (fingerprint source).toList = Text.hexDigits 16
      (Hash.fnv1a (2 ^ 44 + 435) (source.toUTF8.toList ++ version.toUTF8.toList)) := by
  have hfits := (Hash.ofBytes (source.toUTF8.toList ++ version.toUTF8.toList)).toNat_lt
  rw [fingerprint, String.toList_ofList, Text.paddedHex_eq 15 hfits, Hash.toNat_ofBytes]

/-- The last ten digits, which are the last forty bits of the hash, are those of FNV-1a. -/
theorem drop_fingerprint (source : String) :
    (fingerprint source).toList.drop 6 = (Text.hexDigits 16
      (Hash.fnv1a Hash.fnvPrime (source.toUTF8.toList ++ version.toUTF8.toList))).drop 6 := by
  have hdigits : ∀ n : ℕ, (Text.hexDigits 16 n).drop 6 = Text.hexDigits 10 n :=
    Text.drop_hexDigits 6 10
  rw [toList_fingerprint, hdigits, hdigits, Text.hexDigits_eq_iff]
  exact Hash.fnv1a_mod _

theorem fingerprint_eq_iff (source : String) :
    (fingerprint source).toList = Text.hexDigits 16
        (Hash.fnv1a Hash.fnvPrime (source.toUTF8.toList ++ version.toUTF8.toList)) ↔
      Hash.fnv1a (2 ^ 44 + 435) (source.toUTF8.toList ++ version.toUTF8.toList) / 2 ^ 40 =
        Hash.fnv1a Hash.fnvPrime (source.toUTF8.toList ++ version.toUTF8.toList) / 2 ^ 40 := by
  have hall : ∀ factor bytes, Hash.fnv1a factor bytes % 16 ^ 16 = Hash.fnv1a factor bytes :=
    fun factor bytes => Nat.mod_eq_of_lt (Hash.fnv1a_lt factor bytes)
  have hlow := Hash.fnv1a_mod (source.toUTF8.toList ++ version.toUTF8.toList)
  rw [toList_fingerprint, Text.hexDigits_eq_iff, hall, hall]
  omega

theorem fingerprint_not_standard :
    (fingerprint "").toList ≠ Text.hexDigits 16
      (Hash.fnv1a Hash.fnvPrime ("".toUTF8.toList ++ "0.1.0".toUTF8.toList)) := by
  decide +kernel

theorem LoadCall.Makes.fingerprint_eq {call : LoadCall} {tree : FileTree} {content : String}
    {passed : StageInput} {module : Module} (h : call.Makes tree content passed module) :
    tree.read call.path = some (.text content) ∧
      module.fingerprint = fingerprint passed.content := by
  obtain ⟨depth, s, t, hcompiles, hmade⟩ := h
  have hfingerprint := fingerprint_of_compileNative (Load.compileNative_replay hmade)
  exact ⟨hcompiles.text, hfingerprint⟩

namespace World

section Performs

variable {w : World} {id : LoaderId} {request : Session.LoadRequest} {call : LoadCall}
  {module : Module}

theorem Performs.fingerprint_of_native (h : w.Performs id request call)
    (hstage : (w.loader id).slot.current.stage = .native) (huncached : call.cached = none)
    (hrun : (call.run w.host.tree).1 = .ok module) :
    ∃ content, w.host.tree.read call.path = some (.text content) ∧
      module.fingerprint = fingerprint content := by
  rw [← h.slot] at hstage
  obtain ⟨content, passed, hmakes⟩ :=
    LoadCall.makes_of_run (hstage ▸ trivial) huncached hrun
  obtain ⟨htext, hfingerprint⟩ := hmakes.fingerprint_eq
  obtain ⟨depth, s, t, hcompiles, _⟩ := hmakes
  have hpassed := hcompiles.passed
  rw [hstage] at hpassed
  cases hpassed
  exact ⟨content, htext, hfingerprint⟩

theorem Performs.fingerprint_of_eligible {interceptor : Interceptor} (hw : w.Rooted)
    (hmem : interceptor ∈ w.interceptors) (hintercepts : interceptor.Intercepts w.host)
    (h : w.Performs interceptor.loader request call)
    (hselects : interceptor.policy.selects (w.loader interceptor.loader).layout call.path
      call.requester = .ok true) (huncached : call.cached = none)
    (hrun : (call.run w.host.tree).1 = .ok module) :
    ∃ content text, w.host.tree.read call.path = some (.text content) ∧
      interceptor.transformer content = .ok text ∧ module.fingerprint = fingerprint text := by
  rw [← h.layout] at hselects
  obtain ⟨content, passed, hmakes, htext⟩ :=
    (h.decided hw hmem hintercepts hselects).compiles huncached module hrun
  obtain ⟨hread, hfingerprint⟩ := hmakes.fingerprint_eq
  exact ⟨content, passed.content, hread, htext, hfingerprint⟩

theorem performs_ok {path : FilePath} {requester : Option FilePath}
    (htarget : request.target w.host.tree (w.loader id).layout = .ok (path, requester))
    (hok : (HostM.load id request.run w.host).1.isOk = true) :
    let call : LoadCall := ⟨Load.maxDepth, path, requester, w.host.loading id⟩
    w.Performs id request call ∧ ∃ module, (call.run w.host.tree).1 = .ok module := by
  obtain ⟨hperforms, hrun⟩ := performs_own htarget
  refine ⟨hperforms, ?_⟩
  rcases hmodule : (HostM.load id request.run w.host).1 with halt | module
  · rw [hmodule] at hok
    cases hok
  · exact ⟨module, hrun.trans hmodule⟩

end Performs

/-- A fingerprint is the sixteen hexadecimal digits of a hash of the text and the version that goes
as FNV-1a does and multiplies by `2 ^ 44 + 435`; its last ten digits are those of FNV-1a, and all are
if the first 24 bits of the two hashes agree. A load that compiles a module by the native stage, be it
requested or for an import, gives it the fingerprint of the text in its file, and in a scope a module
that the policy selects has that of its transformed text. -/
theorem fingerprints_of_loads (source : String) (tree : FileTree) (layouts : List Layout)
    (events : List Event) :
    let bytes := source.toUTF8.toList ++ "0.1.0".toUTF8.toList
    let hash := Hash.fnv1a (2 ^ 44 + 435) bytes
    let standard := Hash.fnv1a Hash.fnvPrime bytes
    let w := (start tree layouts).run events
    (fingerprint source).toList = Text.hexDigits 16 hash ∧
      ((fingerprint source).toList = Text.hexDigits 16 standard ↔
        hash / 2 ^ 40 = standard / 2 ^ 40) ∧
      (fingerprint source).toList.drop 6 = (Text.hexDigits 16 standard).drop 6 ∧
      ∀ (id : LoaderId) (request : Session.LoadRequest) (call : LoadCall) (module : Module),
        w.Performs id request call → call.cached = none → (call.run tree).1 = .ok module →
        ((w.loader id).slot.current.stage = .native → ∃ content,
          tree.read call.path = some (.text content) ∧
            module.fingerprint = fingerprint content) ∧
        ∀ interceptor ∈ w.interceptors, interceptor.loader = id → interceptor.Intercepts w.host →
          interceptor.policy.selects (w.loader id).layout call.path call.requester = .ok true →
          ∃ content text, tree.read call.path = some (.text content) ∧
            interceptor.transformer content = .ok text ∧
            module.fingerprint = fingerprint text := by
  intro bytes hash standard w
  refine ⟨toList_fingerprint source, fingerprint_eq_iff source, drop_fingerprint source, ?_⟩
  intro id request call module hperforms huncached hrun
  have htree : w.host.tree = tree := tree_run tree layouts events
  rw [← htree] at hrun ⊢
  refine ⟨fun hstage => hperforms.fingerprint_of_native hstage huncached hrun, ?_⟩
  rintro interceptor hmem rfl hintercepts hselects
  exact hperforms.fingerprint_of_eligible (rooted_run tree layouts events) hmem hintercepts
    hselects huncached hrun

theorem fingerprints_of_loads_linked :
    let plain := (start linkedFiles [.withoutEntryDir]).run []
    let within := (start linkedFiles [.withoutEntryDir]).run listTwice
    (∃ call module, plain.Performs 0 throughLink call ∧ (call.run linkedFiles).1 = .ok module ∧
      module.fingerprint = fingerprint "export x = 1;") ∧
    ∃ call module, within.Performs 0 throughLink call ∧ (call.run linkedFiles).1 = .ok module ∧
      module.fingerprint = fingerprint "export x = 2;" := by
  intro plain within
  obtain ⟨-, -, -, hplain⟩ := fingerprints_of_loads "" linkedFiles [.withoutEntryDir] []
  obtain ⟨-, -, -, hwithin⟩ := fingerprints_of_loads "" linkedFiles [.withoutEntryDir] listTwice
  have hread : linkedFiles.read ⟨"/lib/a.svs"⟩ = some (.text "export x = 1;") := by decide +kernel
  have htarget : throughLink.target plain.host.tree (plain.loader 0).layout =
      .ok (⟨"/lib/a.svs"⟩, none) := by decide +kernel
  have htarget' : throughLink.target within.host.tree (within.loader 0).layout =
      .ok (⟨"/lib/a.svs"⟩, none) := by decide +kernel
  constructor
  · obtain ⟨hperforms, module, hrun⟩ := performs_ok htarget (by decide +kernel)
    obtain ⟨hnative, _⟩ := hplain 0 throughLink _ module hperforms rfl hrun
    obtain ⟨content, hcontent, hfingerprint⟩ := hnative rfl
    cases hread.symm.trans hcontent
    exact ⟨_, module, hperforms, hrun, hfingerprint⟩
  · obtain ⟨hperforms, module, hrun⟩ := performs_ok htarget' (by decide +kernel)
    obtain ⟨_, heligible⟩ := hwithin 0 throughLink _ module hperforms rfl hrun
    obtain ⟨content, text, _, htext, hfingerprint⟩ := heligible _ List.mem_cons_self rfl ⟨rfl, rfl⟩
      (by decide +kernel)
    cases htext
    exact ⟨_, module, hperforms, hrun, hfingerprint⟩

end World

end Interpose
