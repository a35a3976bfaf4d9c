import WheelForge.Parser.Merging
import WheelForge.Pep440.Bounds

/-!
# Conflicting constraints

`_constraints_conflict` asks the packaging library about one or few versions. It answers whether any
version at all meets the constraints (`constraintsConflict_iff`), provided that the library decides
the clauses as PEP 440 does (`Conforms`).
-/

set_option autoImplicit false

namespace WheelForge.Parser

open WheelForge.Pep440

/-! ## Clauses -/

/-- The clause of a constraint whose operator is supported. -/
def Constraint.bound (c : Constraint) : Option Bound :=
  match c.specifier.operator with
  | .equal => some (.exactly c.version)
  | .greaterEqual => some (.atLeast c.version)
  | .lessEqual => some (.atMost c.version)
  | .compatible => some (.compatible c.version)
  | .notEqual | .greater | .less | .arbitrary => none

/-- A constraint is a clause of PEP 440, and `contains` decides it as PEP 440 does. -/
def Conforms (pk : Packaging) (c : Constraint) : Prop :=
  ∃ b, c.bound = some b ∧ b.WellFormed ∧ ∀ v, pk.contains c.specifier v = true ↔ b.Admits v

/-- Some version meets all constraints. -/
def Satisfiable (pk : Packaging) (constraints : List Constraint) : Prop :=
  ∃ v, ∀ c ∈ constraints, pk.contains c.specifier v = true

theorem Satisfiable.mono {pk : Packaging} {constraints others : List Constraint}
    (h : Satisfiable pk constraints) (hsubset : others ⊆ constraints) : Satisfiable pk others := by
  obtain ⟨v, hv⟩ := h
  exact ⟨v, fun c hc => hv c (hsubset hc)⟩

section Conflicts

variable {pk : Packaging} {constraints : List Constraint}

/-- The clauses of the constraints. -/
def boundsOf (constraints : List Constraint) : List Bound := constraints.filterMap Constraint.bound

theorem all_contains_iff (h : ∀ c ∈ constraints, Conforms pk c) (v : Version) :
    (∀ c ∈ constraints, pk.contains c.specifier v = true) ↔
      ∀ b ∈ boundsOf constraints, b.Admits v := by
  constructor
  · intro hall b hb
    obtain ⟨c, hc, hcb⟩ := List.mem_filterMap.1 hb
    obtain ⟨b', hb', -, hcontains⟩ := h c hc
    obtain rfl : b' = b := Option.some.inj (hb'.symm.trans hcb)
    exact (hcontains v).1 (hall c hc)
  · intro hall c hc
    obtain ⟨b, hb, -, hcontains⟩ := h c hc
    exact (hcontains v).2 (hall b (List.mem_filterMap.2 ⟨c, hc, hb⟩))

theorem satisfiable_iff (h : ∀ c ∈ constraints, Conforms pk c) :
    Satisfiable pk constraints ↔ ∃ v, ∀ b ∈ boundsOf constraints, b.Admits v :=
  exists_congr fun v => all_contains_iff h v

theorem wellFormed_of_conforms (h : ∀ c ∈ constraints, Conforms pk c) :
    ∀ b ∈ boundsOf constraints, b.WellFormed := by
  intro b hb
  obtain ⟨c, hc, hcb⟩ := List.mem_filterMap.1 hb
  obtain ⟨b', hb', hwell, -⟩ := h c hc
  obtain rfl : b' = b := Option.some.inj (hb'.symm.trans hcb)
  exact hwell

/-! ## The exact candidates -/

/-- The versions of the `==` constraints. -/
def exactVersions (constraints : List Constraint) : List Version :=
  (constraints.filter (·.specifier.operator = .equal)).map Constraint.version

theorem mem_exactVersions {v : Version} :
    v ∈ exactVersions constraints ↔ Bound.exactly v ∈ boundsOf constraints := by
  simp only [exactVersions, boundsOf, List.mem_map, List.mem_filter, List.mem_filterMap,
    decide_eq_true_eq]
  constructor
  · rintro ⟨c, ⟨hc, hop⟩, rfl⟩
    exact ⟨c, hc, by simp [Constraint.bound, hop]⟩
  · rintro ⟨c, hc, hbound⟩
    unfold Constraint.bound at hbound
    split at hbound <;> cases hbound
    next hop => exact ⟨c, ⟨hc, hop⟩, rfl⟩

/-! ## The lower candidates -/

/-- The versions of the `>=` and `~=` constraints. -/
def lowerVersions (constraints : List Constraint) : List Version :=
  (constraints.filter fun c =>
    c.specifier.operator = .greaterEqual ∨ c.specifier.operator = .compatible).map
      Constraint.version

theorem mem_lowerVersions {v : Version} :
    v ∈ lowerVersions constraints ↔ ∃ b ∈ boundsOf constraints, b.lower = some v := by
  simp only [lowerVersions, boundsOf, List.mem_map, List.mem_filter, List.mem_filterMap,
    decide_eq_true_eq]
  constructor
  · rintro ⟨c, ⟨hc, hop | hop⟩, rfl⟩
    · exact ⟨_, ⟨c, hc, by simp [Constraint.bound, hop]; rfl⟩, rfl⟩
    · exact ⟨_, ⟨c, hc, by simp [Constraint.bound, hop]; rfl⟩, rfl⟩
  · rintro ⟨b, ⟨c, hc, hbound⟩, hlower⟩
    unfold Constraint.bound at hbound
    split at hbound <;> cases hbound <;> cases hlower
    next hop => exact ⟨c, ⟨hc, .inl hop⟩, rfl⟩
    next hop => exact ⟨c, ⟨hc, .inr hop⟩, rfl⟩

/-- The greatest of the versions so far and the version to come. -/
theorem foldl_maxVersion (versions : List Version) (best : Version) :
    ∃ m ∈ best :: versions, versions.foldl (fun best v =>
        match best with
        | none => some v
        | some best => if best.key < v.key then some v else some best) (some best) = some m ∧
      ∀ v ∈ best :: versions, v.key ≤ m.key := by
  induction versions generalizing best with
  | nil => exact ⟨best, by simp, rfl, by simp⟩
  | cons v versions ih =>
      by_cases hlt : best.key < v.key
      · obtain ⟨m, hm, hfold, hgreatest⟩ := ih v
        refine ⟨m, List.mem_cons_of_mem _ hm, ?_, ?_⟩
        · rw [List.foldl_cons]
          dsimp only
          rw [if_pos hlt]
          exact hfold
        · intro u hu
          rcases List.mem_cons.1 hu with rfl | hu
          · exact (le_of_lt hlt).trans (hgreatest v (by simp))
          · exact hgreatest u hu
      · obtain ⟨m, hm, hfold, hgreatest⟩ := ih best
        have hbest := hgreatest best (by simp)
        refine ⟨m, ?_, ?_, ?_⟩
        · rcases List.mem_cons.1 hm with rfl | hm
          · simp
          · simp [hm]
        · rw [List.foldl_cons]
          dsimp only
          rw [if_neg hlt]
          exact hfold
        · intro u hu
          rcases List.mem_cons.1 hu with rfl | hu
          · exact hbest
          · rcases List.mem_cons.1 hu with rfl | hu
            · exact (not_lt.1 hlt).trans hbest
            · exact hgreatest u (List.mem_cons_of_mem _ hu)

/-- `max` gives a greatest version, if there is one. -/
theorem maxVersion_cons (v : Version) (versions : List Version) :
    ∃ m ∈ v :: versions, maxVersion (v :: versions) = some m ∧
      ∀ u ∈ v :: versions, u.key ≤ m.key :=
  foldl_maxVersion versions v

/-! ## The check -/

/-- The check with a `==` constraint: no exact version meets all constraints. -/
theorem constraintsConflict_exact (h : exactVersions constraints ≠ []) :
    constraintsConflict pk constraints = true ↔
      ¬ ∃ e ∈ Version.distinct (exactVersions constraints),
        ∀ c ∈ constraints, pk.contains c.specifier e = true := by
  have hne : Version.distinct (exactVersions constraints) ≠ [] := by
    obtain ⟨v, hv⟩ := List.exists_mem_of_ne_nil _ h
    obtain ⟨w, hw, -⟩ := Version.exists_same_mem_distinct hv
    exact List.ne_nil_of_mem hw
  unfold constraintsConflict
  dsimp only
  rw [show (constraints.filter (·.specifier.operator = .equal)).map Constraint.version =
    exactVersions constraints from rfl, if_pos hne]
  simp

/-- The check without a `==` constraint: the greatest lower bound meets all constraints. -/
theorem constraintsConflict_lower (h : exactVersions constraints = []) :
    constraintsConflict pk constraints = true ↔
      ∃ m, maxVersion (lowerVersions constraints) = some m ∧
        ¬ ∀ c ∈ constraints, pk.contains c.specifier m = true := by
  unfold constraintsConflict
  dsimp only
  rw [show (constraints.filter (·.specifier.operator = .equal)).map Constraint.version =
    exactVersions constraints from rfl, h, if_neg (by simp [Version.distinct]),
    show (constraints.filter fun c => c.specifier.operator = .greaterEqual ∨
      c.specifier.operator = .compatible).map Constraint.version = lowerVersions constraints
      from rfl]
  cases maxVersion (lowerVersions constraints) with
  | none => simp
  | some m => simp

theorem conflict_iff_of_exact (hconforms : ∀ c ∈ constraints, Conforms pk c)
    (h : exactVersions constraints ≠ []) :
    constraintsConflict pk constraints = true ↔ ¬ Satisfiable pk constraints := by
  obtain ⟨spec, hspec⟩ := List.exists_mem_of_ne_nil _ h
  rw [constraintsConflict_exact h, satisfiable_iff hconforms, not_iff_not,
    Bound.exists_admits_iff_exact (mem_exactVersions.1 hspec)]
  constructor
  · rintro ⟨e, he, hall⟩
    exact ⟨e, mem_exactVersions.1 (Version.mem_of_mem_distinct he),
      (all_contains_iff hconforms e).1 hall⟩
  · rintro ⟨e, he, hall⟩
    -- the set holds the version in one spelling
    obtain ⟨w, hw, hsame⟩ := Version.exists_same_mem_distinct (mem_exactVersions.2 he)
    refine ⟨w, hw, (all_contains_iff hconforms w).2 fun b hb => ?_⟩
    exact (hall b hb).congr hsame.symm

theorem conflict_iff_of_lower (hconforms : ∀ c ∈ constraints, Conforms pk c)
    (h : exactVersions constraints = []) :
    constraintsConflict pk constraints = true ↔ ¬ Satisfiable pk constraints := by
  have hexact : ∀ spec, Bound.exactly spec ∉ boundsOf constraints := by
    intro spec hspec
    have hmem := mem_exactVersions.2 hspec
    rw [h] at hmem
    cases hmem
  rw [constraintsConflict_lower h, satisfiable_iff hconforms]
  cases hlower : lowerVersions constraints with
  | nil =>
      have hupper : ∀ b ∈ boundsOf constraints, ∃ spec, b = .atMost spec := by
        intro b hb
        have hnone : ∀ spec, b.lower ≠ some spec := by
          intro spec hspec
          have hmem := mem_lowerVersions.2 ⟨b, hb, hspec⟩
          rw [hlower] at hmem
          cases hmem
        cases b with
        | exactly spec => exact absurd hb (hexact spec)
        | atMost spec => exact ⟨spec, rfl⟩
        | atLeast spec => exact absurd rfl (hnone spec)
        | compatible spec => exact absurd rfl (hnone spec)
      have hsatisfiable := Bound.exists_admits_of_upper hupper
      simp [maxVersion, hsatisfiable]
  | cons v versions =>
      obtain ⟨m, hm, hmax, hgreatest⟩ := maxVersion_cons v versions
      rw [← hlower] at hm hgreatest
      rw [Bound.exists_admits_iff_greatest (wellFormed_of_conforms hconforms) hexact
        (mem_lowerVersions.1 hm) fun b hb spec hspec =>
          hgreatest spec (mem_lowerVersions.2 ⟨b, hb, hspec⟩),
        ← all_contains_iff hconforms, hmax]
      simp

/-- The check answers whether the constraints can be satisfied. -/
theorem conflict_iff (hconforms : ∀ c ∈ constraints, Conforms pk c) :
    constraintsConflict pk constraints = true ↔ ¬ Satisfiable pk constraints := by
  by_cases h : exactVersions constraints = []
  · exact conflict_iff_of_lower hconforms h
  · exact conflict_iff_of_exact hconforms h

end Conflicts

/-! ## Result -/

/-- The constraints conflict exactly when no version meets all of them. -/
theorem constraintsConflict_iff {pk : Packaging} {constraints : List Constraint}
    (hconforms : ∀ c ∈ constraints, Conforms pk c) :
    constraintsConflict pk constraints = true ↔
      ∀ v, ∃ c ∈ constraints, pk.contains c.specifier v = false := by
  rw [conflict_iff hconforms]
  unfold Satisfiable
  push Not
  simp only [Bool.not_eq_true]

/-- What packaging reads from two versions and the lines of `demo` with one of them; a clause is
decided as PEP 440 says. -/
def clausePackaging : Packaging where
  version := readVersion
  requirement text :=
    if text = "demo>=1.0" then .ok ⟨"demo", [], [⟨.greaterEqual, "1.0"⟩], none, none⟩
    else if text = "demo<=2.0" then .ok ⟨"demo", [], [⟨.lessEqual, "2.0"⟩], none, none⟩
    else .error .invalidRequirement
  marker _ := .error .invalidRequirement
  specifier _ := none
  specifierSet _ := none
  contains specifier v :=
    match readVersion specifier.version with
    | none => false
    | some spec =>
        match (Constraint.mk specifier spec).bound with
        | none => false
        | some b => decide (b.Admits v)
  canonicalizeName name := name
where
  readVersion (text : String) : Option Version :=
    if text = "1.0" then some (.ofMajor 1)
    else if text = "2.0" then some (.ofMajor 2) else none

theorem clausePackaging_conforms {c : Constraint} {b : Bound} (hbound : c.bound = some b)
    (hversion : clausePackaging.version c.specifier.version = some c.version)
    (hwell : b.WellFormed) : Conforms clausePackaging c := by
  have hread : clausePackaging.readVersion c.specifier.version = some c.version := hversion
  refine ⟨b, hbound, hwell, fun v => ?_⟩
  show (match clausePackaging.readVersion c.specifier.version with
    | none => false
    | some spec =>
        match (Constraint.mk c.specifier spec).bound with
        | none => false
        | some b => decide (b.Admits v)) = true ↔ b.Admits v
  rw [hread]
  dsimp only
  rw [hbound]
  simp

/-- `~=1.0` and `>=2.0`. -/
def compatibleAndLater : List Constraint :=
  [⟨⟨.compatible, "1.0"⟩, .ofMajor 1⟩, ⟨⟨.greaterEqual, "2.0"⟩, .ofMajor 2⟩]

theorem compatibleAndLater_conflict :
    constraintsConflict clausePackaging compatibleAndLater = true ↔
      ∀ v, ∃ c ∈ compatibleAndLater, clausePackaging.contains c.specifier v = false := by
  apply constraintsConflict_iff
  intro c hc
  rcases List.mem_cons.1 hc with rfl | hc
  · exact clausePackaging_conforms (b := .compatible (.ofMajor 1)) rfl rfl rfl
  · obtain rfl := List.mem_singleton.1 hc
    exact clausePackaging_conforms (b := .atLeast (.ofMajor 2)) rfl rfl rfl

end WheelForge.Parser
