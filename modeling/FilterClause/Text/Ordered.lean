/-!
# Sorted lists of distinct texts

Texts are compared character by character in the order of code points, which is also the order of
their UTF-8 bytes. `sortedDistinct` lists the members of a list once each, in that order.
-/

namespace FilterClause.Text

/-- A sorted list with one more member; a member it has already is not repeated. -/
def insertDistinct (x : String) : List String → List String
  | [] => [x]
  | y :: ys => if x < y then x :: y :: ys else if x = y then y :: ys else y :: insertDistinct x ys

/-- The members of a list in ascending order, each once. -/
def sortedDistinct (xs : List String) : List String :=
  xs.foldr insertDistinct []

theorem mem_insertDistinct {x z : String} {ys : List String} :
    z ∈ insertDistinct x ys ↔ z = x ∨ z ∈ ys := by
  induction ys with
  | nil => simp [insertDistinct]
  | cons y ys ih =>
    unfold insertDistinct
    split
    · simp
    · split
      · next h => simp [h]
      · simp only [List.mem_cons, ih]
        grind

theorem mem_sortedDistinct {z : String} {xs : List String} : z ∈ sortedDistinct xs ↔ z ∈ xs := by
  induction xs with
  | nil => simp [sortedDistinct]
  | cons x xs ih =>
    simp only [sortedDistinct, List.foldr_cons, mem_insertDistinct, List.mem_cons]
    exact or_congr_right ih

@[simp] theorem sortedDistinct_eq_nil_iff {xs : List String} :
    sortedDistinct xs = [] ↔ xs = [] := by
  simp only [List.eq_nil_iff_forall_not_mem, mem_sortedDistinct]

theorem sortedDistinct_eq_singleton_iff {x : String} {xs : List String} :
    sortedDistinct xs = [x] ↔ xs ≠ [] ∧ ∀ y ∈ xs, y = x := by
  constructor
  · intro h
    refine ⟨fun hnil => ?_, fun y hy => ?_⟩
    · rw [hnil] at h
      cases h
    · rwa [← mem_sortedDistinct, h, List.mem_singleton] at hy
  · rintro ⟨hne, hall⟩
    induction xs with
    | nil => exact absurd rfl hne
    | cons y ys ih =>
      obtain rfl := hall y List.mem_cons_self
      by_cases hys : ys = []
      · rw [hys]
        rfl
      · have hrest := ih hys fun z hz => hall z (List.mem_cons_of_mem y hz)
        have hstep : sortedDistinct (y :: ys) = insertDistinct y (sortedDistinct ys) := rfl
        rw [hstep, hrest, insertDistinct, if_neg (String.lt_irrefl y), if_pos rfl]

end FilterClause.Text
