import Mathlib.Data.List.Perm.Subperm
import Mathlib.Data.Nat.Digits.Lemmas
import Mathlib.Logic.Relation
import Interpose.CommandLine.Reach
import Interpose.Proofs.Cache
import Interpose.Proofs.Walks

set_option autoImplicit false

namespace Interpose

/-- The bytes of a text as the digits of a number, with a one in front. -/
def textNumber (text : String) : Nat :=
  Nat.ofDigits 256 (text.toByteArray.data.toList.map UInt8.toNat ++ [1])

theorem digit_lt_of_mem {text : String} {digit : Nat}
    (h : digit ∈ text.toByteArray.data.toList.map UInt8.toNat ++ [1]) : digit < 256 := by
  rcases List.mem_append.mp h with h | h
  · obtain ⟨byte, _, rfl⟩ := List.mem_map.mp h
    exact byte.toNat_lt
  · rw [List.mem_singleton.mp h]
    decide

theorem textNumber_inj {text other : String} (h : textNumber text = textNumber other) :
    text = other := by
  have digits : ∀ text : String, Nat.digits 256 (textNumber text) =
      text.toByteArray.data.toList.map UInt8.toNat ++ [1] := fun text =>
    Nat.digits_ofDigits 256 (by decide) _ (fun _ => digit_lt_of_mem) (by simp)
  have hdigits := (digits text).symm.trans ((congrArg _ h).trans (digits other))
  have hbytes := List.map_inj_right (fun _ _ => UInt8.toNat.inj) |>.mp
    (List.append_cancel_right hdigits)
  exact String.toByteArray_inj.mp (ByteArray.ext (Array.toList_inj.mp hbytes))

theorem textNumber_lt {text : String} {limit : Nat} (h : text.utf8ByteSize ≤ limit) :
    textNumber text < 256 ^ (limit + 1) := by
  refine (Nat.ofDigits_lt_base_pow_length (by decide) fun _ => digit_lt_of_mem).trans_le ?_
  refine Nat.pow_le_pow_right (by decide) ?_
  rw [List.length_append, List.length_map, Array.length_toList, List.length_singleton]
  exact Nat.succ_le_succ h

theorem length_le_of_nodup {texts : List String} {limit : Nat} (hnodup : texts.Nodup)
    (h : ∀ text ∈ texts, text.utf8ByteSize ≤ limit) :
    texts.length ≤ Nat.pow 256 (limit + 1) := by
  have hnumbers : (texts.map textNumber).Nodup := hnodup.map fun _ _ => textNumber_inj
  have hlength := (List.subperm_of_subset hnumbers fun number hnumber => by
    obtain ⟨text, htext, rfl⟩ := List.mem_map.mp hnumber
    exact List.mem_range.mpr (textNumber_lt (h text htext))).length_le
  rwa [List.length_map, List.length_range] at hlength

inductive FileTree.Imports (tree : FileTree) (layout : Layout) (importer file : FilePath) :
    Prop where
  | stated {content specifier : String} (text : tree.read importer = some (.text content))
      (stated : specifier ∈ CommandLine.importsOf content)
      (resolved : layout.resolve tree specifier (some importer) = .ok file) :
      Imports tree layout importer file

theorem text_not_mem {path : FilePath} {flight : List KeyedPath}
    (h : flight.any path.keyed.same = false) :
    path.text ∉ flight.map fun key => key.path.text := by
  intro hmem
  obtain ⟨key, hkey, htext⟩ := List.mem_map.mp hmem
  have hpath : key.path = path := congrArg FilePath.mk htext
  refine List.any_eq_false.mp h key hkey ?_
  rw [← hpath, key.keyed_path]
  exact key.same_self

theorem length_lt_maxDepth {tree : FileTree} {flight : List KeyedPath} {path : FilePath}
    (hnodup : (flight.map fun key => key.path.text).Nodup)
    (hflight : ∀ key ∈ flight, tree.Loadable key.path) (hpath : tree.Loadable path)
    (hidle : flight.any path.keyed.same = false) : flight.length < Load.maxDepth := by
  have hmore : ((path.keyed :: flight).map fun key => key.path.text).Nodup :=
    List.nodup_cons.mpr ⟨text_not_mem hidle, hnodup⟩
  have hlength := length_le_of_nodup hmore fun text htext => by
    obtain ⟨key, hkey, rfl⟩ := List.mem_map.mp htext
    rcases List.mem_cons.mp hkey with rfl | hkey
    · exact hpath.bounded
    · exact (hflight key hkey).bounded
  rw [List.length_map, List.length_cons] at hlength
  delta Load.maxDepth
  exact Nat.lt_of_succ_le hlength

/-- The modules in flight when a path is asked for, innermost first: each imports the one before it,
and none is in flight twice. -/
inductive Chain (tree : FileTree) (layout : Layout) : List KeyedPath → FilePath → Prop where
  | start {path : FilePath} (loadable : tree.Loadable path) : Chain tree layout [] path
  | deeper {flight : List KeyedPath} {importer path : FilePath}
      (above : Chain tree layout flight importer)
      (idle : flight.any importer.keyed.same = false)
      (imports : tree.Imports layout importer path) :
      Chain tree layout (importer.keyed :: flight) path

namespace Chain

variable {tree : FileTree} {layout : Layout} {flight : List KeyedPath} {path : FilePath}

theorem loadable (h : Chain tree layout flight path) : tree.Loadable path := by
  cases h with
  | start loadable => exact loadable
  | deeper _ _ imports =>
    cases imports with
    | stated _ _ resolved => exact Layout.loadable_of_resolve resolved

theorem importer (h : Chain tree layout flight path) {key : KeyedPath} (hkey : key ∈ flight) :
    tree.Loadable key.path ∧ Relation.TransGen (tree.Imports layout) key.path path := by
  induction h with
  | start _ => cases hkey
  | deeper above _ imports ih =>
    rcases List.mem_cons.mp hkey with rfl | hkey
    · exact ⟨above.loadable, .single imports⟩
    · exact ⟨(ih hkey).1, (ih hkey).2.tail imports⟩

theorem nodup (h : Chain tree layout flight path) :
    (flight.map fun key => key.path.text).Nodup := by
  induction h with
  | start _ => exact List.nodup_nil
  | deeper _ idle _ ih => exact List.nodup_cons.mpr ⟨text_not_mem idle, ih⟩

theorem length_lt (h : Chain tree layout flight path)
    (hidle : flight.any path.keyed.same = false) : flight.length < Load.maxDepth :=
  length_lt_maxDepth h.nodup (fun _ hkey => (h.importer hkey).1) h.loadable hidle

theorem room (h : Chain tree layout flight path) (hidle : flight.any path.keyed.same = false)
    {depth : Nat} (hdepth : Load.maxDepth ≤ flight.length + depth) :
    ∃ below, depth = below + 1 ∧ Load.maxDepth ≤ (path.keyed :: flight).length + below := by
  have hlength := h.length_lt hidle
  refine ⟨depth - 1, by omega, ?_⟩
  rw [List.length_cons]
  omega

end Chain

end Interpose
