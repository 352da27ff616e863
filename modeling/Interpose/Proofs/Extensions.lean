import Mathlib.Data.List.TakeWhile
import Interpose.Proofs.Dependencies
import Interpose.Proofs.History
import Interpose.Proofs.SameFile

set_option autoImplicit false

namespace Interpose

theorem IsName.extended {name : String} (hname : IsName name) : IsName (name ++ ".svs") := by
  have hlength : ∀ other : String, other.toList.length < 4 → name ++ ".svs" ≠ other := by
    rintro _ hshort rfl
    rw [String.toList_append, List.length_append] at hshort
    exact absurd hshort (Nat.not_lt.mpr (Nat.le_add_left 4 _))
  refine ⟨hlength "" (by decide), hlength "." (by decide), hlength ".." (by decide), ?_⟩
  rw [String.toList_append, List.mem_append, not_or]
  exact ⟨hname.whole, by decide⟩

namespace FilePath

theorem exists_front (base : FilePath) : ∃ front : List Char,
    (front = [] ∧ base.text = "" ∨ ∃ cs, front = cs ++ ['/']) ∧
      ∀ name : String, (FilePath.mk name).isAbsolute = false →
        base.joinName name = ⟨.ofList (front ++ name.toList)⟩ := by
  refine ⟨slashEnded base.text.toList, ?_, fun _ hname => join_relative base hname⟩
  rcases slashEnded_cases base.text.toList with ⟨hended, hempty⟩ | ⟨cs, hended, _⟩
  · exact .inl ⟨hended, String.toList_eq_nil_iff.mp hempty⟩
  · exact .inr ⟨cs, hended⟩

section Name

variable {name : String}

theorem isAbsolute_behindDot (name : String) : (FilePath.mk ("./" ++ name)).isAbsolute = false := by
  rw [isAbsolute, String.startsWith_char_eq_head?, String.toList_append]
  rfl

end Name

end FilePath

namespace FileTree

variable {tree : FileTree} {sees : Trail → String → Bool} {name : String}

theorem isAbsolute_behindDot (dir : FilePath) (hname : IsName name) :
    (dir.joinName ("./" ++ name)).isAbsolute = (dir.joinName name).isAbsolute := by
  obtain ⟨front, hfront, hjoin⟩ := dir.exists_front
  have hrelative := hname.isAbsolute
  rw [hjoin _ (FilePath.isAbsolute_behindDot name), hjoin _ hrelative]
  rcases hfront with ⟨rfl, _⟩ | ⟨cs, rfl⟩
  · rw [List.nil_append, List.nil_append, String.ofList_toList, String.ofList_toList, hrelative,
      FilePath.isAbsolute_behindDot]
  · simp only [FilePath.isAbsolute, String.startsWith_char_eq_head?, String.toList_ofList,
      List.append_assoc, List.head?_append, List.singleton_append, List.head?_cons]

variable (dir : FilePath) (hname : IsName name)

include hname

end FileTree

namespace Layout

variable {tree : FileTree} {layout : Layout} {requester dir : FilePath} {name : String}

open FileTree

theorem resolve_behindDot (hparent : requester.parent = some dir) :
    layout.resolve tree ("./" ++ name) (some requester) =
      match tree.moduleFile (dir.joinName ("./" ++ name)) with
      | some file => .ok (tree.canonical file)
      | none => .error (.notFound ("./" ++ name)) := by
  have hrelative : isRelativeSpecifier ("./" ++ name) = true := by
    simp [isRelativeSpecifier]
  have hbase : layout.baseDir tree (some requester) = dir := by
    rw [baseDir, Option.bind_some, hparent, Option.some_or, Option.getD_some]
  have hcandidates : layout.candidates dir ("./" ++ name) = [dir.joinName ("./" ++ name)] := by
    rw [candidates, if_neg (by rw [FilePath.isAbsolute_behindDot]; decide), if_pos hrelative]
  calc layout.resolve tree ("./" ++ name) (some requester) =
      match (layout.candidates (layout.baseDir tree (some requester))
        ("./" ++ name)).findSome? tree.moduleFile with
      | some file => .ok (tree.canonical file)
      | none => .error (.notFound ("./" ++ name)) := rfl
    _ = _ := by rw [hbase, hcandidates, List.findSome?_singleton]

section Unsupplied

end Unsupplied

end Layout

end Interpose
