import Mathlib.Data.List.Perm.Basic

/-!
# First occurrences

The elements of a list whose keys have not occurred before, in their order. Another order of the
list gives the same keys in another order.
-/

set_option autoImplicit false

namespace WheelForge.Relational

variable {α κ : Type} [DecidableEq κ] (key : α → κ)

/-- The first element of each key. -/
def firstSeen : List α → List α
  | [] => []
  | x :: xs => x :: (firstSeen xs).filter (key · ≠ key x)

@[simp] theorem firstSeen_nil : firstSeen key [] = [] := rfl

theorem firstSeen_cons (x : α) (xs : List α) :
    firstSeen key (x :: xs) = x :: (firstSeen key xs).filter (key · ≠ key x) := rfl

theorem firstSeen_sublist (xs : List α) : (firstSeen key xs).Sublist xs := by
  induction xs with
  | nil => exact List.Sublist.refl []
  | cons x xs ih => exact List.Sublist.cons_cons x (List.filter_sublist.trans ih)

/-- Each key occurs once. -/
theorem firstSeen_nodup (xs : List α) : ((firstSeen key xs).map key).Nodup := by
  induction xs with
  | nil => simp
  | cons x xs ih =>
      rw [firstSeen_cons, List.map_cons, List.nodup_cons]
      constructor
      · simp
      · exact ih.sublist (List.filter_sublist.map key)

/-- Each key occurs. -/
theorem mem_keys_firstSeen {xs : List α} {k : κ} :
    k ∈ (firstSeen key xs).map key ↔ k ∈ xs.map key := by
  induction xs with
  | nil => simp
  | cons x xs ih =>
      rw [firstSeen_cons, List.map_cons, List.map_cons, List.mem_cons, List.mem_cons, ← ih]
      by_cases hk : k = key x
      · simp [hk]
      · simp only [hk, false_or, List.mem_map, List.mem_filter, decide_eq_true_eq]
        constructor
        · rintro ⟨y, ⟨hy, -⟩, rfl⟩
          exact ⟨y, hy, rfl⟩
        · rintro ⟨y, hy, rfl⟩
          exact ⟨y, ⟨hy, hk⟩, rfl⟩

/-- The keys are the first occurrences among the keys. -/
theorem map_firstSeen (xs : List α) :
    (firstSeen key xs).map key = firstSeen id (xs.map key) := by
  induction xs with
  | nil => rfl
  | cons x xs ih =>
      rw [firstSeen_cons, List.map_cons, List.map_cons, firstSeen_cons, ← ih, List.filter_map]
      rfl

/-- What is added last is kept if its key is new. -/
theorem firstSeen_concat (xs : List α) (y : α) :
    firstSeen key (xs ++ [y]) =
      if key y ∈ xs.map key then firstSeen key xs else firstSeen key xs ++ [y] := by
  induction xs with
  | nil => simp [firstSeen_cons]
  | cons x xs ih =>
      rw [List.cons_append, firstSeen_cons, firstSeen_cons, ih, List.map_cons]
      by_cases hmem : key y ∈ xs.map key
      · rw [if_pos hmem, if_pos (List.mem_cons_of_mem _ hmem)]
      · rw [if_neg hmem, List.filter_append]
        by_cases hk : key y = key x
        · simp [hk]
        · rw [if_neg (by simpa [hk] using hmem), List.filter_cons_of_pos (by simpa using hk)]
          simp

/-- The keys in any other order. -/
theorem firstSeen_perm {xs ys : List α} (h : xs.Perm ys) :
    ((firstSeen key xs).map key).Perm ((firstSeen key ys).map key) := by
  rw [List.perm_ext_iff_of_nodup (firstSeen_nodup key xs) (firstSeen_nodup key ys)]
  intro k
  rw [mem_keys_firstSeen, mem_keys_firstSeen]
  exact (h.map key).mem_iff

/-- The first element of a key is the one that a search finds. -/
theorem find?_of_mem_firstSeen {xs : List α} {x : α} (h : x ∈ firstSeen key xs) :
    xs.find? (key · = key x) = some x := by
  induction xs with
  | nil => cases h
  | cons y xs ih =>
      rw [firstSeen_cons, List.mem_cons] at h
      obtain rfl | h := h
      · simp
      · rw [List.mem_filter, decide_eq_true_eq] at h
        rw [List.find?_cons_of_neg (by simpa using Ne.symm h.2)]
        exact ih h.1

end WheelForge.Relational
