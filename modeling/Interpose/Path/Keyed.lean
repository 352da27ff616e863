import Interpose.Path.Basic

set_option autoImplicit false

namespace Interpose

/-- What a path is compared by. The number of components is looked at first. -/
structure PathKey where
  size : Nat
  components : List Component
deriving DecidableEq, Repr

structure KeyedPath where
  path : FilePath
  key : PathKey
  key_eq : key = ⟨path.components.length, path.components⟩
deriving DecidableEq

def FilePath.keyed (path : FilePath) : KeyedPath :=
  let components := path.components
  ⟨path, ⟨components.length, components⟩, rfl⟩

namespace KeyedPath

def same (a b : KeyedPath) : Bool := a.key == b.key

def before (a b : KeyedPath) : Bool :=
  List.lex a.key.components b.key.components Component.before

theorem same_eq (a b : KeyedPath) : a.same b = a.path.same b.path := by
  rw [Bool.eq_iff_iff]
  simp only [same, FilePath.same, a.key_eq, b.key_eq, beq_iff_eq, PathKey.mk.injEq]
  exact ⟨And.right, fun h => ⟨congrArg List.length h, h⟩⟩

theorem before_eq (a b : KeyedPath) : a.before b = a.path.before b.path := by
  simp only [before, FilePath.before, a.key_eq, b.key_eq]

end KeyedPath

end Interpose
