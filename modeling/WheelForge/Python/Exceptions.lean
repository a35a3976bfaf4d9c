import Mathlib.Data.List.Perm.Basic
import Mathlib.Tactic.Common

/-!
# Code that raises

The rules for code that returns or raises: `bind_ok` for two parts in a row, `raiseIf_ok` for a check,
`foldlM_ok` and `exists_foldlM_iff` for a loop that carries a state, `mapM_ok` for a comprehension and
`forM_ok` for a loop that only checks.
-/

set_option autoImplicit false

namespace WheelForge.Python

variable {ε σ τ ι : Type}

theorem bind_ok {x : Except ε σ} {f : σ → Except ε τ} {b : τ} :
    x >>= f = .ok b ↔ ∃ a, x = .ok a ∧ f a = .ok b := by
  cases x with
  | error e =>
      constructor
      · intro h
        cases h
      · rintro ⟨a, h, -⟩
        cases h
  | ok a =>
      constructor
      · intro h
        exact ⟨a, rfl, h⟩
      · rintro ⟨a', h, hf⟩
        cases h
        exact hf

theorem exists_ok_of_isOk {x : Except ε σ} (h : x.isOk = true) : ∃ a, x = .ok a := by
  cases x with
  | error e => cases h
  | ok a => exact ⟨a, rfl⟩

/-- `if condition: raise error`. -/
def raiseIf (condition : Prop) [Decidable condition] (error : ε) : Except ε Unit :=
  if condition then .error error else .ok ()

@[simp] theorem raiseIf_ok {condition : Prop} [Decidable condition] {error : ε} {u : Unit} :
    raiseIf condition error = .ok u ↔ ¬condition := by
  by_cases hcondition : condition <;> simp [raiseIf, hcondition]

/-- The value, or the error that is raised for its absence. -/
def orRaise (value : Option σ) (error : ε) : Except ε σ :=
  match value with
  | some a => .ok a
  | none => .error error

@[simp] theorem orRaise_ok {value : Option σ} {error : ε} {a : σ} :
    orRaise value error = .ok a ↔ value = some a := by
  cases value <;> simp [orRaise]

/-- A loop that did not raise keeps what each of its steps keeps; `inv` is about the items done and
the state after them. -/
theorem foldlM_ok (inv : List ι → σ → Prop) {f : σ → ι → Except ε σ} {items done : List ι}
    {s t : σ}
    (hstep : ∀ item ∈ items, ∀ done s s', inv done s → f s item = .ok s' → inv (done ++ [item]) s')
    (hs : inv done s) (h : items.foldlM f s = .ok t) : inv (done ++ items) t := by
  induction items generalizing done s with
  | nil =>
      cases h
      simpa using hs
  | cons item items ih =>
      rw [List.foldlM_cons] at h
      obtain ⟨s', hitem, hrest⟩ := bind_ok.1 h
      have := ih (fun other hother => hstep other (List.mem_cons_of_mem _ hother))
        (hstep item List.mem_cons_self done s s' hs hitem) hrest
      simpa using this

/-- A loop whose step succeeds exactly when the items up to it are good succeeds exactly when all of
them are. -/
theorem exists_foldlM_iff (inv : List ι → σ → Prop) (good : List ι → Prop) (items : List ι)
    {f : σ → ι → Except ε σ}
    (hstep : ∀ done item s, inv done s → good done →
      ((∃ s', f s item = .ok s') ↔ good (done ++ [item])))
    (hinv : ∀ done item s s', inv done s → f s item = .ok s' → inv (done ++ [item]) s')
    (hlead : ∀ done rest, good (done ++ rest) → good done) {done : List ι} {s : σ}
    (hs : inv done s) (hdone : good done) :
    (∃ t, items.foldlM f s = .ok t) ↔ good (done ++ items) := by
  induction items generalizing done s with
  | nil =>
      rw [List.append_nil]
      exact ⟨fun _ => hdone, fun _ => ⟨s, rfl⟩⟩
  | cons item items ih =>
      have hsplit : done ++ item :: items = (done ++ [item]) ++ items := by simp
      rw [hsplit, List.foldlM_cons]
      constructor
      · rintro ⟨t, h⟩
        obtain ⟨s', hitem, hrest⟩ := bind_ok.1 h
        have hgood := (hstep done item s hs hdone).1 ⟨s', hitem⟩
        exact (ih (hinv done item s s' hs hitem) hgood).1 ⟨t, hrest⟩
      · intro hall
        have hgood := hlead _ _ hall
        obtain ⟨s', hitem⟩ := (hstep done item s hs hdone).2 hgood
        obtain ⟨t, hrest⟩ := (ih (hinv done item s s' hs hitem) hgood).2 hall
        exact ⟨t, bind_ok.2 ⟨s', hitem, hrest⟩⟩

/-- Each result of a comprehension that did not raise is that of its item. -/
theorem mapM_ok {f : ι → Except ε σ} {items : List ι} {results : List σ}
    (h : items.mapM f = .ok results) :
    List.Forall₂ (fun item result => f item = .ok result) items results := by
  induction items generalizing results with
  | nil =>
      cases h
      exact .nil
  | cons item items ih =>
      rw [List.mapM_cons] at h
      obtain ⟨result, hitem, h⟩ := bind_ok.1 h
      obtain ⟨rest, hrest, h⟩ := bind_ok.1 h
      cases h
      exact .cons hitem (ih hrest)

/-- A comprehension whose items do not raise has a result. -/
theorem exists_mapM_ok {f : ι → Except ε σ} {items : List ι}
    (h : ∀ item ∈ items, ∃ result, f item = .ok result) :
    ∃ results, items.mapM f = .ok results := by
  induction items with
  | nil => exact ⟨[], rfl⟩
  | cons item items ih =>
      obtain ⟨result, hitem⟩ := h item List.mem_cons_self
      obtain ⟨rest, hrest⟩ := ih fun other hother => h other (List.mem_cons_of_mem _ hother)
      refine ⟨result :: rest, ?_⟩
      rw [List.mapM_cons, hitem]
      exact bind_ok.2 ⟨result, rfl, bind_ok.2 ⟨rest, hrest, rfl⟩⟩

theorem exists_mem_of_forall₂ {α β : Type} {R : α → β → Prop} {l : List α} {l' : List β}
    (h : List.Forall₂ R l l') : ∀ a ∈ l, ∃ b ∈ l', R a b := by
  induction h with
  | nil => simp
  | cons hab _ ih =>
      intro a ha
      rcases List.mem_cons.1 ha with rfl | ha
      · exact ⟨_, List.mem_cons_self, hab⟩
      · obtain ⟨b, hb, hrel⟩ := ih a ha
        exact ⟨b, List.mem_cons_of_mem _ hb, hrel⟩

/-- A comprehension over permuted items has the permuted results. -/
theorem mapM_perm {f : ι → Except ε σ} {items others : List ι} {results : List σ}
    (hperm : items.Perm others) (h : items.mapM f = .ok results) :
    ∃ results', others.mapM f = .ok results' ∧ results.Perm results' := by
  have hvalues : ∀ (items : List ι) (results : List σ), items.mapM f = .ok results →
      results.map some = items.map fun item => (f item).toOption := by
    intro items results h
    induction mapM_ok h with
    | nil => rfl
    | cons hitem hrest ih =>
        rw [List.mapM_cons, hitem] at h
        obtain ⟨_, -, h⟩ := bind_ok.1 h
        obtain ⟨rest, hrest', h⟩ := bind_ok.1 h
        cases h
        rw [List.map_cons, List.map_cons, ih hrest', hitem]
        rfl
  obtain ⟨results', h'⟩ : ∃ results', others.mapM f = .ok results' := by
    refine exists_mapM_ok fun item hitem => ?_
    obtain ⟨result, -, hresult⟩ := exists_mem_of_forall₂ (mapM_ok h) item (hperm.mem_iff.2 hitem)
    exact ⟨result, hresult⟩
  refine ⟨results', h', ?_⟩
  rw [← List.map_perm_map_iff (fun _ _ => Option.some.inj : Function.Injective (some : σ → Option σ)), hvalues _ _ h, hvalues _ _ h']
  exact hperm.map _

/-- A loop of checks that did not raise made each of them. -/
theorem forM_ok {f : ι → Except ε Unit} {items : List ι} {r : Unit}
    (h : forM items f = .ok r) : ∀ item ∈ items, f item = .ok ⟨⟩ := by
  induction items with
  | nil => simp
  | cons item items ih =>
      rw [List.forM_cons] at h
      obtain ⟨⟨⟩, hitem, hrest⟩ := bind_ok.1 h
      intro other hother
      rcases List.mem_cons.1 hother with rfl | hother
      · exact hitem
      · exact ih hrest other hother

theorem forM_of_ok {f : ι → Except ε Unit} {items : List ι}
    (h : ∀ item ∈ items, f item = .ok ⟨⟩) : forM items f = .ok ⟨⟩ := by
  induction items with
  | nil => rfl
  | cons item items ih =>
      rw [List.forM_cons, h item List.mem_cons_self]
      exact ih fun other hother => h other (List.mem_cons_of_mem _ hother)

end WheelForge.Python
