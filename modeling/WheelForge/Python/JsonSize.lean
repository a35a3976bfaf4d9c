import WheelForge.Python.Json
import WheelForge.Python.Substitution

/-!
# Sizes of JSON texts

The length of what `json.dumps(value, ensure_ascii=True)` writes with the default separators, part by
part. A written text is ASCII, so that its length is also its size in bytes.
-/

set_option autoImplicit false

namespace WheelForge.Python

/-- `len(json.dumps(value, ensure_ascii=True))`. -/
def dumpsSize (value : JsonValue) : Nat := (dumps false value).length

/-- The size of a key and its value. -/
def memberSize (member : Str × JsonValue) : Nat :=
  (dumpsString member.1).length + 2 + dumpsSize member.2

/-- The size of a character between quotes. -/
def escapeSize (c : CodePoint) : Nat := (escapeString [c]).length

theorem escapeString_cons (c : CodePoint) (s : Str) :
    escapeString (c :: s) = escapeString [c] ++ escapeString s := by
  unfold escapeString
  simp [List.flatMap_append]

/-- A string is as large as its characters and the quotes. -/
theorem dumpsString_length (s : Str) : (dumpsString s).length = cost escapeSize s + 2 := by
  have hescape : (escapeString s).length = cost escapeSize s := by
    induction s with
    | nil => rfl
    | cons c s ih =>
        rw [escapeString_cons, List.length_append, ih]
        rfl
  unfold dumpsString
  rw [List.length_cons, List.length_append, hescape]
  rfl

theorem dumpsItems_length (items : List JsonValue) :
    (dumpsItems false items).length = (items.map dumpsSize).sum + 2 * items.length + 1 := by
  induction items with
  | nil => rfl
  | cons item items ih =>
      rw [dumpsItems, List.length_append, List.length_append, ih, List.map_cons, List.sum_cons,
        List.length_cons]
      simp only [itemSeparator, dumpsSize, Bool.false_eq_true, if_false, List.length_cons,
        List.length_nil]
      omega

/-- An array is as large as its items, the brackets and the separators. -/
theorem dumpsSize_array (items : List JsonValue) :
    dumpsSize (.array items) = (items.map dumpsSize).sum + 2 * (items.length - 1) + 2 := by
  cases items with
  | nil => rfl
  | cons item items =>
      change (dumps false (.array (item :: items))).length = _
      rw [dumps, List.length_cons, List.length_append, dumpsItems_length, List.map_cons,
        List.sum_cons, List.length_cons, Nat.add_sub_cancel]
      have hitem : (dumps false item).length = dumpsSize item := rfl
      omega

theorem dumpsMember_length (member : Str × JsonValue) :
    (dumpsMember false member).length = memberSize member := by
  obtain ⟨key, value⟩ := member
  rw [dumpsMember, List.length_append, List.length_append]
  simp only [memberSize, dumpsSize, keySeparator, Bool.false_eq_true, if_false, List.length_cons,
    List.length_nil]
  omega

theorem dumpsMembers_length (members : List (Str × JsonValue)) :
    (dumpsMembers false members).length =
      (members.map memberSize).sum + 2 * members.length + 1 := by
  induction members with
  | nil => rfl
  | cons member members ih =>
      rw [dumpsMembers, List.length_append, List.length_append, ih, dumpsMember_length,
        List.map_cons, List.sum_cons, List.length_cons]
      simp only [itemSeparator, Bool.false_eq_true, if_false, List.length_cons, List.length_nil]
      omega

/-- An object is as large as its members, the braces and the separators. -/
theorem dumpsSize_object (members : List (Str × JsonValue)) :
    dumpsSize (.object members) =
      (members.map memberSize).sum + 2 * (members.length - 1) + 2 := by
  cases members with
  | nil => rfl
  | cons member members =>
      change (dumps false (.object (member :: members))).length = _
      rw [dumps, List.length_cons, List.length_append, dumpsMember_length, dumpsMembers_length,
        List.map_cons, List.sum_cons, List.length_cons, Nat.add_sub_cancel]
      omega

theorem escapeUnit_length_pos (c : CodePoint) : 1 ≤ (escapeUnit c).length := by
  unfold escapeUnit
  split
  · exact Nat.succ_le_succ (Nat.zero_le _)
  · split <;> exact Nat.succ_le_succ (Nat.zero_le _)

theorem escapeSize_pos (c : CodePoint) : 1 ≤ escapeSize c := by
  have hunit : ∀ d, 1 ≤ (escapeUnit d).length := escapeUnit_length_pos
  unfold escapeSize escapeString CodePoint.units
  rw [List.flatMap_singleton]
  split
  · rw [List.flatMap_singleton]
    exact hunit c
  · rw [List.flatMap_cons, List.length_append]
    exact (hunit _).trans (Nat.le_add_right _ _)

end WheelForge.Python
