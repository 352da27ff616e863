set_option autoImplicit false

namespace Interpose.Text

abbrev Ranges := List (Nat × Nat)

/-- The scan stops at the first range that ends at or after the point. -/
def Ranges.has : Ranges → Nat → Bool
  | [], _ => false
  | (low, high) :: rest, n => if n ≤ high then low ≤ n else has rest n

/-- The order that makes the early stop of `Ranges.has` right. -/
def Ranges.Ascending : Ranges → Prop
  | [] => True
  | (low, high) :: rest => low ≤ high ∧ (∀ r ∈ rest, high < r.1) ∧ Ascending rest

theorem Ranges.has_iff {ranges : Ranges} (h : ranges.Ascending) (n : Nat) :
    ranges.has n = true ↔ ∃ r ∈ ranges, r.1 ≤ n ∧ n ≤ r.2 := by
  induction ranges with
  | nil => simp [has]
  | cons r rest ih =>
    obtain ⟨low, high⟩ := r
    obtain ⟨_, above, tail⟩ := h
    rw [has]
    split
    · rename_i le
      simp only [decide_eq_true_eq, List.mem_cons]
      constructor
      · exact fun ge => ⟨_, .inl rfl, ge, le⟩
      · rintro ⟨r, rfl | mem, ge, _⟩
        · exact ge
        · have := above r mem
          omega
    · rename_i gt
      rw [ih tail]
      constructor
      · rintro ⟨r, mem, both⟩
        exact ⟨r, List.mem_cons_of_mem _ mem, both⟩
      · rintro ⟨r, mem, both⟩
        rcases List.mem_cons.1 mem with rfl | mem
        · exact absurd both.2 gt
        · exact ⟨r, mem, both⟩

end Interpose.Text
