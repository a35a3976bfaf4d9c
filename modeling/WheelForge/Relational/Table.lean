import Mathlib.Data.List.Nodup
import Mathlib.Data.List.Sort

/-!
# Keyed tables

A table is a list of rows whose primary keys are pairwise distinct. The statements are the ones a
relational engine offers on such a table: lookup by key, a conditional update of the row with a
given key, a conditional update of every row, insertion with the primary-key check, deletion, and
`ORDER BY ... LIMIT 1`. An update by key returns `none` when it matches no row, so `some` is the
row count `1`; keys are distinct, so no other row count occurs.

The module names no schema. A schema supplies `Keyed` instances for its row types.
-/

set_option autoImplicit false

namespace WheelForge.Relational

universe u v

/-- Rows of `ρ` carry a primary key in `κ`. -/
class Keyed (ρ : Type u) (κ : outParam (Type v)) where
  /-- The primary key of a row. -/
  key : ρ → κ

open Keyed (key)

/-- A table: rows with pairwise distinct primary keys. -/
structure Table {κ : Type v} (ρ : Type u) [Keyed ρ κ] where
  rows : List ρ
  nodup : (rows.map key).Nodup

namespace Table

variable {ρ : Type u} {κ : Type v} [Keyed ρ κ]

/-- The empty table. -/
def empty : Table ρ := ⟨[], List.nodup_nil⟩

instance : Membership ρ (Table ρ) := ⟨fun t r => r ∈ t.rows⟩

theorem mem_def {t : Table ρ} {r : ρ} : r ∈ t ↔ r ∈ t.rows := Iff.rfl

theorem ext_rows {t t' : Table ρ} (h : t.rows = t'.rows) : t = t' := by
  cases t; cases t'; cases h; rfl

/-- Two rows of a table with one key are one row. -/
theorem eq_of_key_eq {t : Table ρ} {r r' : ρ} (h : r ∈ t) (h' : r' ∈ t) (hk : key r = key r') :
    r = r' :=
  List.inj_on_of_nodup_map t.nodup h h' hk

/-! ## Lookup -/

section Lookup

variable [DecidableEq κ]

/-- The row with primary key `k`. -/
def find? (t : Table ρ) (k : κ) : Option ρ := t.rows.find? fun r => key r = k

theorem find?_eq_some_iff {t : Table ρ} {k : κ} {r : ρ} :
    t.find? k = some r ↔ r ∈ t ∧ key r = k := by
  constructor
  · intro h
    exact ⟨List.mem_of_find?_eq_some h, by simpa using List.find?_some h⟩
  · rintro ⟨hr, rfl⟩
    unfold find?
    cases hf : t.rows.find? fun x => decide (key x = key r) with
    | none =>
        have hne := List.find?_eq_none.1 hf r hr
        simp at hne
    | some x =>
        have hx : key x = key r := by simpa using List.find?_some hf
        rw [eq_of_key_eq (List.mem_of_find?_eq_some hf) hr hx]

theorem mem_of_find? {t : Table ρ} {k : κ} {r : ρ} (h : t.find? k = some r) : r ∈ t :=
  (find?_eq_some_iff.1 h).1

theorem key_of_find? {t : Table ρ} {k : κ} {r : ρ} (h : t.find? k = some r) : key r = k :=
  (find?_eq_some_iff.1 h).2

theorem find?_of_mem {t : Table ρ} {r : ρ} (h : r ∈ t) : t.find? (key r) = some r :=
  find?_eq_some_iff.2 ⟨h, rfl⟩

theorem find?_eq_none_iff {t : Table ρ} {k : κ} : t.find? k = none ↔ ∀ r ∈ t, key r ≠ k := by
  constructor
  · intro h r hr hk
    have hs := find?_of_mem hr
    rw [hk, h] at hs
    cases hs
  · intro h
    cases hf : t.find? k with
    | none => rfl
    | some r => exact absurd (key_of_find? hf) (h r (mem_of_find? hf))

end Lookup

/-! ## Updates -/

/-- `UPDATE ... SET f WHERE p`, for an update that leaves the primary key alone. -/
def updateWhere (t : Table ρ) (p : ρ → Bool) (f : ρ → ρ)
    (hf : ∀ r, key (f r) = key r := by intro _; rfl) : Table ρ where
  rows := t.rows.map fun r => if p r then f r else r
  nodup := by
    have hk : (t.rows.map fun r => if p r then f r else r).map key = t.rows.map key := by
      rw [List.map_map]
      refine List.map_congr_left fun r _ => ?_
      by_cases hp : p r = true
      · simp [hp, hf]
      · simp [hp]
    rw [hk]
    exact t.nodup

/-- The number of rows a `WHERE` clause matches. -/
def countWhere (t : Table ρ) (p : ρ → Bool) : Nat := (t.rows.filter p).length

/-- An update that leaves a condition alone leaves its count alone. -/
theorem countWhere_updateWhere {t : Table ρ} {p q : ρ → Bool} {f : ρ → ρ}
    {hf : ∀ r, key (f r) = key r} (hq : ∀ r, q (f r) = q r) :
    (t.updateWhere p f hf).countWhere q = t.countWhere q := by
  show ((t.rows.map fun r => if p r then f r else r).filter q).length = (t.rows.filter q).length
  rw [List.filter_map, List.length_map]
  congr 2
  funext r
  show q (if p r then f r else r) = q r
  split
  · exact hq r
  · rfl

theorem mem_updateWhere {t : Table ρ} {p : ρ → Bool} {f : ρ → ρ}
    {hf : ∀ r, key (f r) = key r} {r' : ρ} :
    r' ∈ t.updateWhere p f hf ↔ ∃ r ∈ t, r' = if p r then f r else r := by
  show r' ∈ t.rows.map _ ↔ _
  rw [List.mem_map]
  constructor
  · rintro ⟨r, hr, rfl⟩
    exact ⟨r, hr, rfl⟩
  · rintro ⟨r, hr, rfl⟩
    exact ⟨r, hr, rfl⟩

/-- An update of the rows that a condition matches, after which it still matches them, leaves the
other rows alone. -/
theorem mem_updateWhere_of_unmatched {t : Table ρ} {p : ρ → Bool} {f : ρ → ρ}
    {hf : ∀ r, key (f r) = key r} (hp : ∀ r, p (f r) = p r) {r : ρ} (hr : p r = false) :
    r ∈ t.updateWhere p f hf ↔ r ∈ t := by
  rw [mem_updateWhere]
  constructor
  · rintro ⟨x, hx, rfl⟩
    cases hpx : p x with
    | false => simpa [hpx] using hx
    | true => simp [hpx, hp] at hr
  · intro hmem
    exact ⟨r, hmem, by simp [hr]⟩

section ByKey

variable [DecidableEq κ]

theorem find?_updateWhere (t : Table ρ) (p : ρ → Bool) (f : ρ → ρ)
    (hf : ∀ r, key (f r) = key r) (k : κ) :
    (t.updateWhere p f hf).find? k = (t.find? k).map fun r => if p r then f r else r := by
  have hkey : ∀ r, key (if p r then f r else r) = key r := by
    intro r
    by_cases hp : p r = true
    · simp [hp, hf]
    · simp [hp]
  cases h : t.find? k with
  | none =>
      rw [Option.map_none, find?_eq_none_iff]
      intro r' hr'
      obtain ⟨r, hr, rfl⟩ := mem_updateWhere.1 hr'
      rw [hkey]
      exact find?_eq_none_iff.1 h r hr
  | some r =>
      rw [Option.map_some, find?_eq_some_iff]
      refine ⟨mem_updateWhere.2 ⟨r, mem_of_find? h, rfl⟩, ?_⟩
      rw [hkey]
      exact key_of_find? h

/-- The table with the row of `r`'s key replaced by `r`; a table without that key is as before. -/
def replace (t : Table ρ) (r : ρ) : Table ρ where
  rows := t.rows.map fun x => if key x = key r then r else x
  nodup := by
    have hk : (t.rows.map fun x => if key x = key r then r else x).map key = t.rows.map key := by
      rw [List.map_map]
      refine List.map_congr_left fun x _ => ?_
      by_cases hx : key x = key r
      · simp [hx]
      · simp [hx]
    rw [hk]
    exact t.nodup

theorem mem_replace {t : Table ρ} {r x : ρ} :
    x ∈ t.replace r ↔ (x ∈ t ∧ key x ≠ key r) ∨ (x = r ∧ ∃ y ∈ t, key y = key r) := by
  show x ∈ t.rows.map _ ↔ _
  rw [List.mem_map]
  constructor
  · rintro ⟨y, hy, rfl⟩
    by_cases hk : key y = key r
    · rw [if_pos hk]
      exact Or.inr ⟨rfl, y, hy, hk⟩
    · rw [if_neg hk]
      exact Or.inl ⟨hy, hk⟩
  · rintro (⟨hx, hk⟩ | ⟨rfl, y, hy, hk⟩)
    · exact ⟨x, hx, if_neg hk⟩
    · exact ⟨y, hy, if_pos hk⟩

theorem find?_replace (t : Table ρ) (r : ρ) (k : κ) :
    (t.replace r).find? k = if k = key r then (t.find? k).map fun _ => r else t.find? k := by
  by_cases hk : k = key r
  · subst hk
    rw [if_pos rfl]
    cases h : t.find? (key r) with
    | none =>
        rw [Option.map_none, find?_eq_none_iff]
        intro x hx
        rcases mem_replace.1 hx with ⟨-, hne⟩ | ⟨-, y, hy, hyk⟩
        · exact hne
        · exact absurd hyk (find?_eq_none_iff.1 h y hy)
    | some y =>
        rw [Option.map_some, find?_eq_some_iff]
        exact ⟨mem_replace.2 (Or.inr ⟨rfl, y, mem_of_find? h, key_of_find? h⟩), rfl⟩
  · rw [if_neg hk]
    cases h : t.find? k with
    | none =>
        rw [find?_eq_none_iff]
        intro x hx
        rcases mem_replace.1 hx with ⟨hx, -⟩ | ⟨rfl, -⟩
        · exact find?_eq_none_iff.1 h x hx
        · exact fun e => hk e.symm
    | some y =>
        rw [find?_eq_some_iff]
        have hy := key_of_find? h
        exact ⟨mem_replace.2 (Or.inl ⟨mem_of_find? h, by rw [hy]; exact hk⟩), hy⟩

theorem find?_replace_self {t : Table ρ} {r x : ρ} (h : t.find? (key r) = some x) :
    (t.replace r).find? (key r) = some r := by
  rw [find?_replace, if_pos rfl, h, Option.map_some]

theorem find?_replace_ne {t : Table ρ} {r : ρ} {k : κ} (hk : k ≠ key r) :
    (t.replace r).find? k = t.find? k := by
  rw [find?_replace, if_neg hk]

/-- `UPDATE ... SET f WHERE id = k AND c`; `none` is the row count `0`. -/
def updateKey (t : Table ρ) (k : κ) (c : ρ → Bool) (f : ρ → ρ) : Option (Table ρ) :=
  match t.find? k with
  | some r => if c r then some (t.replace (f r)) else none
  | none => none

/-- An update by key with row count `1` matched one row and replaced it. -/
theorem updateKey_eq_some_iff {t t' : Table ρ} {k : κ} {c : ρ → Bool} {f : ρ → ρ} :
    t.updateKey k c f = some t' ↔
      ∃ r, t.find? k = some r ∧ c r = true ∧ t' = t.replace (f r) := by
  unfold updateKey
  cases h : t.find? k with
  | none => simp
  | some r =>
      by_cases hc : c r = true
      · simp only [hc, if_true, Option.some.injEq]
        constructor
        · rintro rfl
          exact ⟨r, rfl, hc, rfl⟩
        · rintro ⟨_, rfl, _, rfl⟩
          rfl
      · simp only [hc]
        constructor
        · intro hn
          exact absurd hn (by simp)
        · rintro ⟨r', hr', hc', _⟩
          cases hr'
          exact absurd hc' hc

theorem updateKey_eq_none_iff {t : Table ρ} {k : κ} {c : ρ → Bool} {f : ρ → ρ} :
    t.updateKey k c f = none ↔ ∀ r, t.find? k = some r → c r = false := by
  unfold updateKey
  cases h : t.find? k with
  | none => simp
  | some r =>
      by_cases hc : c r = true <;> simp [hc]

/-! ## Insertion and deletion -/

/-- `INSERT`; `none` is the duplicate-key error. -/
def insert? (t : Table ρ) (r : ρ) : Option (Table ρ) :=
  if h : key r ∈ t.rows.map key then none
  else some ⟨t.rows ++ [r], by
    rw [List.map_append, List.map_cons, List.map_nil]
    exact List.nodup_append.2 ⟨t.nodup, List.nodup_singleton _, by
      intro a ha b hb
      rw [List.mem_singleton] at hb
      rintro rfl
      exact h (hb ▸ ha)⟩⟩

theorem insert?_eq_some {t t' : Table ρ} {r : ρ} (h : t.insert? r = some t') :
    t.find? (key r) = none ∧ t'.rows = t.rows ++ [r] := by
  unfold insert? at h
  split at h
  · cases h
  · next hk =>
    cases h
    refine ⟨find?_eq_none_iff.2 fun x hx he => hk ?_, rfl⟩
    exact List.mem_map.2 ⟨x, hx, he⟩

/-- An insertion succeeds when no row has the key. -/
theorem insert?_of_free {t : Table ρ} {r : ρ} (h : t.find? (key r) = none) :
    ∃ t', t.insert? r = some t' := by
  unfold insert?
  split
  · next hk =>
    obtain ⟨x, hx, he⟩ := List.mem_map.1 hk
    exact absurd he (find?_eq_none_iff.1 h x hx)
  · exact ⟨_, rfl⟩

theorem insert?_of_taken {t : Table ρ} {r : ρ} (h : t.find? (key r) ≠ none) :
    t.insert? r = none := by
  cases hi : t.insert? r with
  | none => rfl
  | some t' => exact absurd (insert?_eq_some hi).1 h

theorem mem_of_insert? {t t' : Table ρ} {r x : ρ} (h : t.insert? r = some t') :
    x ∈ t' ↔ x ∈ t ∨ x = r := by
  rw [mem_def, (insert?_eq_some h).2, List.mem_append, List.mem_singleton]
  exact Iff.rfl

/-- The count after an insertion. -/
theorem countWhere_insert? {t t' : Table ρ} {r : ρ} {q : ρ → Bool} (h : t.insert? r = some t') :
    t'.countWhere q = t.countWhere q + if q r then 1 else 0 := by
  unfold countWhere
  rw [(insert?_eq_some h).2, List.filter_append, List.length_append]
  congr 1
  cases hr : q r <;> simp [hr]

theorem find?_of_insert? {t t' : Table ρ} {r : ρ} (h : t.insert? r = some t') (k : κ) :
    t'.find? k = if k = key r then some r else t.find? k := by
  obtain ⟨hnone, -⟩ := insert?_eq_some h
  by_cases hk : k = key r
  · rw [if_pos hk, find?_eq_some_iff]
    exact ⟨(mem_of_insert? h).2 (Or.inr rfl), hk.symm⟩
  · rw [if_neg hk]
    cases hf : t.find? k with
    | none =>
        rw [find?_eq_none_iff]
        intro x hx
        rcases (mem_of_insert? h).1 hx with hx | rfl
        · exact find?_eq_none_iff.1 hf x hx
        · exact fun e => hk e.symm
    | some x =>
        rw [find?_eq_some_iff]
        exact ⟨(mem_of_insert? h).2 (Or.inl (mem_of_find? hf)), key_of_find? hf⟩

end ByKey

/-- `DELETE ... WHERE p`. -/
def deleteWhere (t : Table ρ) (p : ρ → Bool) : Table ρ where
  rows := t.rows.filter fun r => !p r
  nodup := t.nodup.sublist (List.filter_sublist.map key)

theorem mem_deleteWhere {t : Table ρ} {p : ρ → Bool} {r : ρ} :
    r ∈ t.deleteWhere p ↔ r ∈ t ∧ p r = false := by
  show r ∈ t.rows.filter _ ↔ _
  rw [List.mem_filter]
  simp [mem_def]

/-- Where the rows that a condition matches are deleted and others that it matches inserted, the rows
that it matches are those inserted. -/
theorem forall_inserted_iff {t t' : Table ρ} {p : ρ → Bool} {rows : List ρ} {q : ρ → Prop}
    (h : t'.rows = (t.deleteWhere p).rows ++ rows) (hrows : ∀ r ∈ rows, p r = true) :
    (∀ r ∈ t', p r = true → q r) ↔ ∀ r ∈ rows, q r := by
  constructor
  · intro hall r hr
    apply hall r _ (hrows r hr)
    rw [mem_def, h]
    exact List.mem_append_right _ hr
  · intro hall r hr hp
    rw [mem_def, h] at hr
    rcases List.mem_append.1 hr with hr | hr
    · have hfree := (mem_deleteWhere.1 hr).2
      rw [hp] at hfree
      cases hfree
    · exact hall r hr

/-- A deletion that spares the rows of a condition leaves its count alone. -/
theorem countWhere_deleteWhere {t : Table ρ} {p q : ρ → Bool} (hq : ∀ r, q r = true → p r = false) :
    (t.deleteWhere p).countWhere q = t.countWhere q := by
  show ((t.rows.filter fun r => !p r).filter q).length = (t.rows.filter q).length
  rw [List.filter_filter]
  congr 2
  funext r
  cases h : q r with
  | false => rfl
  | true => rw [hq r h]; rfl

/-! ## Ordered selection -/

/-- `SELECT ... WHERE p ORDER BY le LIMIT 1`. -/
def first? (t : Table ρ) (p : ρ → Bool) (le : ρ → ρ → Prop) [DecidableRel le] : Option ρ :=
  ((t.rows.filter p).insertionSort le).head?

theorem of_first? {t : Table ρ} {p : ρ → Bool} {le : ρ → ρ → Prop} [DecidableRel le] {r : ρ}
    (h : t.first? p le = some r) : r ∈ t ∧ p r = true := by
  have hm : r ∈ (t.rows.filter p).insertionSort le := List.mem_of_mem_head? h
  rw [List.mem_insertionSort] at hm
  exact List.mem_filter.1 hm

end Table

end WheelForge.Relational
