set_option autoImplicit false

namespace Interpose.Script

structure Position where
  line : Nat
  column : Nat
  offset : Nat
deriving DecidableEq, Repr

namespace Position

def start : Position := ⟨1, 1, 0⟩

/-- What is reported where a token sequence stops without an end mark. -/
def nowhere : Position := ⟨0, 0, 0⟩

def next (p : Position) (c : Char) : Position :=
  if c = '\n' then ⟨p.line + 1, 1, p.offset + c.utf8Size⟩
  else ⟨p.line, p.column + 1, p.offset + c.utf8Size⟩

def advance (p : Position) (cs : List Char) : Position := cs.foldl next p

@[simp] theorem advance_nil (p : Position) : p.advance [] = p := rfl

@[simp] theorem advance_cons (p : Position) (c : Char) (cs : List Char) :
    p.advance (c :: cs) = (p.next c).advance cs := rfl

theorem advance_append (p : Position) (xs ys : List Char) :
    p.advance (xs ++ ys) = (p.advance xs).advance ys := List.foldl_append

theorem next_offset (p : Position) (c : Char) : (p.next c).offset = p.offset + c.utf8Size := by
  unfold next
  split <;> rfl

theorem offset_lt_next (p : Position) (c : Char) : p.offset < (p.next c).offset := by
  rw [next_offset]
  have := c.utf8Size_pos
  omega

end Position

/-- A stretch of text; its end is the place after its last character. -/
structure Span where
  start : Position
  stop : Position
deriving DecidableEq, Repr

end Interpose.Script
