import Mathlib.Data.List.Basic

/-!
# Numbered lists

Lists whose items carry the numbers from one on, as an append-only table with a sequence column: one
item more, prefixes, the last and the greatest number, and the items after a number.
-/

set_option autoImplicit false

namespace WheelForge.Relational

variable {α : Type} {f : α → Nat} {l : List α}

/-- The items carry the numbers from one on. -/
def Numbered (f : α → Nat) (l : List α) : Prop := l.map f = List.range' 1 l.length

theorem numbered_nil : Numbered f [] := rfl

theorem Numbered.concat (h : Numbered f l) {a : α} (ha : f a = l.length + 1) :
    Numbered f (l ++ [a]) := by
  have hrange : List.range' 1 (l.length + 1) = List.range' 1 l.length ++ [l.length + 1] := by
    rw [List.range'_concat, Nat.one_mul, Nat.add_comm]
  rw [Numbered, List.map_append, h, List.length_append, List.length_singleton, hrange,
    List.map_singleton, ha]

theorem Numbered.of_initial {l' : List α} (h : Numbered f l) (hl : l' <+: l) : Numbered f l' := by
  obtain ⟨rest, rfl⟩ := hl
  rw [Numbered, List.map_append, List.length_append, ← List.range'_append_1] at h
  exact (List.append_inj h (by simp)).1

theorem Numbered.getElem (h : Numbered f l) {i : Nat} (hi : i < l.length) : f l[i] = i + 1 := by
  have hnumber : (l.map f)[i]? = (List.range' 1 l.length)[i]? := by rw [h]
  rw [List.getElem?_map, List.getElem?_eq_getElem hi, List.getElem?_range' hi] at hnumber
  simpa [Nat.add_comm] using hnumber

/-- The last number is the length. -/
theorem Numbered.getLast? (h : Numbered f l) : (l.getLast?.map f).getD 0 = l.length := by
  cases hl : l.getLast? with
  | none =>
      rw [List.getLast?_eq_none_iff.1 hl]
      rfl
  | some a =>
      rw [List.getLast?_eq_getElem?, List.getElem?_eq_some_iff] at hl
      obtain ⟨hi, rfl⟩ := hl
      simp only [Option.map_some, Option.getD_some, h.getElem hi]
      omega

theorem le_foldl_max {numbers : List Nat} {a : Nat} :
    a ≤ numbers.foldl max a ∧ ∀ n ∈ numbers, n ≤ numbers.foldl max a := by
  induction numbers generalizing a with
  | nil => exact ⟨Nat.le_refl a, nofun⟩
  | cons m numbers ih =>
      obtain ⟨hstart, hall⟩ := @ih (max a m)
      refine ⟨Nat.le_trans (Nat.le_max_left a m) hstart, fun n hn => ?_⟩
      rcases List.mem_cons.1 hn with rfl | hn
      · exact Nat.le_trans (Nat.le_max_right a n) hstart
      · exact hall n hn

/-- `max` over the numbers is the length. -/
theorem Numbered.foldl_max (h : Numbered f l) : (l.map f).foldl max 0 = l.length := by
  rw [h]
  generalize l.length = n
  induction n with
  | zero => rfl
  | succ n ih =>
      rw [List.range'_concat, List.foldl_append, ih]
      simp only [List.foldl_cons, List.foldl_nil]
      omega

theorem Numbered.pairwise (h : Numbered f l) : l.Pairwise fun a b => f a ≤ f b := by
  have hsorted : (l.map f).Pairwise (· ≤ ·) := by
    rw [h]
    exact (List.pairwise_lt_range' 1).imp Nat.le_of_lt
  exact List.pairwise_map.1 hsorted

/-- The items after a number. -/
theorem Numbered.filter_lt (h : Numbered f l) (k : Nat) :
    l.filter (fun a => k < f a) = l.drop k := by
  have hsplit : l.filter (fun a => k < f a) =
      (l.take k).filter (fun a => k < f a) ++ (l.drop k).filter (fun a => k < f a) := by
    rw [← List.filter_append, List.take_append_drop]
  have hearly : (l.take k).filter (fun a => k < f a) = [] := by
    rw [List.filter_eq_nil_iff]
    intro a ha
    obtain ⟨i, hi, rfl⟩ := List.getElem_of_mem ha
    rw [List.length_take] at hi
    rw [List.getElem_take, h.getElem (by omega), decide_eq_true_eq]
    omega
  have hlate : (l.drop k).filter (fun a => k < f a) = l.drop k := by
    rw [List.filter_eq_self]
    intro a ha
    obtain ⟨i, hi, rfl⟩ := List.getElem_of_mem ha
    rw [List.length_drop] at hi
    rw [List.getElem_drop, h.getElem (by omega), decide_eq_true_eq]
    omega
  rw [hsplit, hearly, hlate, List.nil_append]

end WheelForge.Relational
