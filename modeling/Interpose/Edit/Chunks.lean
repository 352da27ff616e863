/-!
A text cut into one piece per byte, so that a byte range can be read and replaced while all other
offsets stay as they are. The main statements give the pieces after a write as a list, and that a
write changes no offset.
-/

set_option autoImplicit false

namespace Interpose.Edit

/-- One piece of text for every byte of a source. -/
abbrev Chunks := Array (List Char)

namespace Chunks

/-- A character stands at its first byte; its other bytes are empty pieces. -/
def ofChars (cs : List Char) : Chunks :=
  (cs.flatMap fun c => [c] :: List.replicate (c.utf8Size - 1) []).toArray

def chars (chunks : Chunks) : List Char := chunks.toList.flatten

def read (chunks : Chunks) (first stop : Nat) : List Char :=
  Chunks.chars (chunks.extract first stop)

def clear (chunks : Chunks) (first : Nat) : Nat → Chunks
  | 0 => chunks
  | count + 1 => clear (chunks.setIfInBounds first []) (first + 1) count

/-- Puts a text in place of the bytes from `first` up to `stop`; a range without bytes has no room
for it. -/
def write (chunks : Chunks) (first stop : Nat) (text : List Char) : Chunks :=
  let last := min stop chunks.size
  if first < last then clear (chunks.setIfInBounds first text) (first + 1) (last - first - 1)
  else chunks

theorem chars_ofChars (cs : List Char) : (ofChars cs).chars = cs := by
  induction cs with
  | nil => rfl
  | cons c cs ih => simpa [ofChars, chars] using ih

theorem size_ofChars (cs : List Char) : (ofChars cs).size = (String.ofList cs).utf8ByteSize := by
  induction cs with
  | nil => rfl
  | cons c cs ih =>
    have := c.utf8Size_pos
    simp only [ofChars, List.flatMap_cons, List.size_toArray, List.length_append, List.length_cons,
      List.length_replicate, String.ofList_cons, String.utf8ByteSize_append,
      String.utf8ByteSize_singleton] at ih ⊢
    omega

theorem take_split {α : Type} {front : List α} {n : Nat} (h : front.length = n) (x : α)
    (back : List α) : (front ++ x :: back).take (n + 1) = front ++ [x] := by
  subst h
  simp [List.take_append, List.take_of_length_le]

theorem drop_split {α : Type} {front : List α} {n : Nat} (h : front.length = n) (x : α)
    (back : List α) (k : Nat) : (front ++ x :: back).drop (n + 1 + k) = back.drop k := by
  subst h
  have past : front.length + 1 + k - front.length = k + 1 := by omega
  simp [List.drop_append, past, show front.length ≤ front.length + 1 + k by omega]

theorem toList_set (chunks : Chunks) (first : Nat) (text : List Char) (h : first < chunks.size) :
    (chunks.setIfInBounds first text).toList =
      chunks.toList.take first ++ text :: chunks.toList.drop (first + 1) := by
  have room : first < chunks.toList.length := by simpa using h
  rw [Array.toList_setIfInBounds, List.set_eq_take_append_cons_drop, if_pos room]

theorem toList_clear (chunks : Chunks) (first count : Nat) (h : first + count ≤ chunks.size) :
    (clear chunks first count).toList =
      chunks.toList.take first ++ List.replicate count [] ++
        chunks.toList.drop (first + count) := by
  induction count generalizing chunks first with
  | zero => simp [clear]
  | succ count ih =>
    have front : (chunks.toList.take first).length = first := by simp; omega
    rw [clear, ih _ _ (by simp; omega), toList_set _ _ _ (by omega), take_split front,
      drop_split front, List.drop_drop]
    simp [List.replicate_succ, Nat.add_assoc, Nat.add_comm 1]

theorem toList_write (chunks : Chunks) (first stop : Nat) (text : List Char)
    (h : first < min stop chunks.size) :
    (chunks.write first stop text).toList =
      chunks.toList.take first ++
        text :: List.replicate (min stop chunks.size - first - 1) [] ++
        chunks.toList.drop (min stop chunks.size) := by
  have front : (chunks.toList.take first).length = first := by simp; omega
  have last : first + 1 + (min stop chunks.size - first - 1) = min stop chunks.size := by omega
  unfold write
  rw [if_pos h, toList_clear _ _ _ (by simp; omega), toList_set _ _ _ (by omega),
    take_split front, drop_split front, List.drop_drop, last]
  simp

theorem size_clear (chunks : Chunks) (first count : Nat) :
    (clear chunks first count).size = chunks.size := by
  induction count generalizing chunks first with
  | zero => rfl
  | succ count ih => rw [clear, ih, Array.size_setIfInBounds]

theorem size_write (chunks : Chunks) (first stop : Nat) (text : List Char) :
    (chunks.write first stop text).size = chunks.size := by
  unfold write
  simp only
  split
  · rw [size_clear, Array.size_setIfInBounds]
  · rfl

end Chunks

end Interpose.Edit
