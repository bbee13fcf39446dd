/-!
# Sets of characters as ranges of code points

A Unicode property is given by a table: the inclusive ranges of code points that have it, in
increasing order. A table carries the proof of its order, so that `Ranges.contains`, which stops
searching at the first range beyond a code point, finds exactly the code points of the table
(`Ranges.contains_iff`).
-/

namespace FindSelect.Text

/-- Whether inclusive ranges `(first, last)` stand in increasing order from `low` on, none of them
empty. -/
def isOrdered : Nat → List (Nat × Nat) → Bool
  | _, [] => true
  | low, (first, last) :: rest => low ≤ first && first ≤ last && isOrdered (last + 1) rest

/-- A set of code points, as inclusive ranges in increasing order. -/
structure Ranges where
  /-- The ranges. -/
  list : List (Nat × Nat)
  /-- The ranges are in order. -/
  ordered : isOrdered 0 list = true

namespace Ranges

/-- Whether one of several ranges holds `n`. The search ends at the first range that starts beyond
`n`. -/
def search : List (Nat × Nat) → Nat → Bool
  | [], _ => false
  | (first, last) :: rest, n =>
    if n < first then false else if n ≤ last then true else search rest n

/-- Whether a set of code points holds `n`. -/
def contains (t : Ranges) (n : Nat) : Bool :=
  search t.list n

/-- No range of an ordered list starts below the bound of that list. -/
theorem le_of_mem {low : Nat} {t : List (Nat × Nat)} (h : isOrdered low t = true) :
    ∀ r ∈ t, low ≤ r.1 := by
  induction t generalizing low with
  | nil => simp
  | cons r rest ih =>
    obtain ⟨first, last⟩ := r
    simp only [isOrdered, Bool.and_eq_true, decide_eq_true_eq] at h
    intro r hr
    rcases List.mem_cons.mp hr with rfl | hr
    · exact h.1.1
    · have := ih h.2 r hr
      omega

/-- The search in an ordered list finds the code points of its ranges. -/
theorem search_iff {low : Nat} {t : List (Nat × Nat)} (h : isOrdered low t = true) (n : Nat) :
    search t n = true ↔ ∃ r ∈ t, r.1 ≤ n ∧ n ≤ r.2 := by
  induction t generalizing low with
  | nil => simp [search]
  | cons r rest ih =>
    obtain ⟨first, last⟩ := r
    simp only [isOrdered, Bool.and_eq_true, decide_eq_true_eq] at h
    have hrest := le_of_mem h.2
    rw [search]
    by_cases hfirst : n < first
    · -- All the other ranges start beyond `n` too.
      rw [if_pos hfirst]
      refine ⟨by simp, fun ⟨r, hr, h1, _⟩ => ?_⟩
      rcases List.mem_cons.mp hr with rfl | hr
      · exact absurd h1 (by simpa using hfirst)
      · have := hrest r hr
        omega
    · rw [if_neg hfirst]
      by_cases hlast : n ≤ last
      · rw [if_pos hlast]
        exact ⟨fun _ => ⟨(first, last), by simp, by omega, hlast⟩, fun _ => rfl⟩
      · rw [if_neg hlast, ih h.2]
        refine ⟨fun ⟨r, hr, hn⟩ => ⟨r, List.mem_cons_of_mem _ hr, hn⟩, fun ⟨r, hr, hn⟩ => ?_⟩
        rcases List.mem_cons.mp hr with rfl | hr
        · exact absurd hn.2 hlast
        · exact ⟨r, hr, hn⟩

/-- A set holds the code points of its ranges. -/
theorem contains_iff (t : Ranges) (n : Nat) :
    t.contains n = true ↔ ∃ r ∈ t.list, r.1 ≤ n ∧ n ≤ r.2 :=
  search_iff t.ordered n

end Ranges

end FindSelect.Text
