import Mathlib.Logic.Relation

/-!
# Labelled transition systems and invariants of runs

A transition system has initial states and labelled steps. Runs are taken under a condition `C` on
the state before a step and its label, so that a result about every run and a result about the runs
whose steps all meet a condition are instances of one rule. `Reachable.invariant` is the induction
rule for invariants, `Steps.preserves` the rule for a property that holds from some state on, and
`Steps.simulate` transports a run along an abstraction function to another system.
-/

set_option autoImplicit false

namespace WheelForge.Transition

universe u v w x

/-- A labelled transition system. -/
structure System (σ : Type u) (α : Type v) where
  /-- Initial states. -/
  init : σ → Prop
  /-- `step s a t`: the label `a` takes `s` to `t`. -/
  step : σ → α → σ → Prop

namespace System

variable {σ : Type u} {α : Type v} {τ : Type w} {β : Type x}

/-- The condition that every step meets. -/
def Any : σ → α → Prop := fun _ _ => True

/-- A run from `s` to `t` whose steps all meet `C`. -/
def Steps (S : System σ α) (C : σ → α → Prop) : σ → σ → Prop :=
  Relation.ReflTransGen fun s t => ∃ a, C s a ∧ S.step s a t

/-- The states reached from an initial state by steps that meet `C`. -/
def Reachable (S : System σ α) (C : σ → α → Prop) (s : σ) : Prop :=
  ∃ s₀, S.init s₀ ∧ S.Steps C s₀ s

variable {S : System σ α} {C D : σ → α → Prop} {s t u : σ}

theorem Steps.refl (s : σ) : S.Steps C s s := Relation.ReflTransGen.refl

theorem Steps.tail {a : α} (h : S.Steps C s t) (hc : C t a) (hs : S.step t a u) : S.Steps C s u :=
  Relation.ReflTransGen.tail h ⟨a, hc, hs⟩

theorem Steps.trans (h : S.Steps C s t) (h' : S.Steps C t u) : S.Steps C s u :=
  Relation.ReflTransGen.trans h h'

theorem Steps.single {a : α} (hc : C s a) (hs : S.step s a t) : S.Steps C s t :=
  (Steps.refl s).tail hc hs

/-- A run under a stronger condition is a run under a weaker one. -/
theorem Steps.mono (hCD : ∀ s a, C s a → D s a) (h : S.Steps C s t) : S.Steps D s t :=
  Relation.ReflTransGen.mono (fun s _ ⟨a, hc, hs⟩ => ⟨a, hCD s a hc, hs⟩) _ _ h

theorem Reachable.of_init (h : S.init s) : S.Reachable C s := ⟨s, h, Steps.refl s⟩

theorem Reachable.steps (h : S.Reachable C s) (h' : S.Steps C s t) : S.Reachable C t := by
  obtain ⟨s₀, hi, hs⟩ := h
  exact ⟨s₀, hi, hs.trans h'⟩

theorem Reachable.step {a : α} (h : S.Reachable C s) (hc : C s a) (hs : S.step s a t) :
    S.Reachable C t :=
  h.steps (Steps.single hc hs)

theorem Reachable.mono (hCD : ∀ s a, C s a → D s a) (h : S.Reachable C s) : S.Reachable D s := by
  obtain ⟨s₀, hi, hs⟩ := h
  exact ⟨s₀, hi, hs.mono hCD⟩

/-- The invariant rule: what holds initially and is kept by every step that meets `C` holds of
every reachable state. -/
theorem Reachable.invariant {P : σ → Prop} (hinit : ∀ s, S.init s → P s)
    (hstep : ∀ s a t, P s → C s a → S.step s a t → P t) (h : S.Reachable C s) : P s := by
  obtain ⟨s₀, hi, hs⟩ := h
  induction hs with
  | refl => exact hinit _ hi
  | tail _ hlast ih =>
      obtain ⟨a, hc, ha⟩ := hlast
      exact hstep _ a _ ih hc ha

/-- A property kept by every step persists along a run. -/
theorem Steps.preserves {P : σ → Prop} (hstep : ∀ s a t, P s → C s a → S.step s a t → P t)
    (h : S.Steps C s t) (hs : P s) : P t := by
  induction h with
  | refl => exact hs
  | tail _ hlast ih =>
      obtain ⟨a, hc, ha⟩ := hlast
      exact hstep _ a _ ih hc ha

/-- A property kept by every step from a reachable state persists along a run from one. -/
theorem Steps.preserves_of_reachable {P : σ → Prop}
    (hstep : ∀ s a t, S.Reachable C s → P s → C s a → S.step s a t → P t)
    (h : S.Steps C s t) (hr : S.Reachable C s) (hs : P s) : P t := by
  have key : S.Reachable C t ∧ P t :=
    h.preserves (P := fun u => S.Reachable C u ∧ P u)
      (fun v a w hv hc ha => ⟨hv.1.step hc ha, hstep v a w hv.1 hv.2 hc ha⟩) ⟨hr, hs⟩
  exact key.2

/-- Simulation: if every step from a reachable state is matched by a run of `T` between the
abstractions, a run of `S` is abstracted by a run of `T`. -/
theorem Steps.simulate {T : System τ β} {E : τ → β → Prop} (f : σ → τ)
    (hstep : ∀ s a t, S.Reachable C s → C s a → S.step s a t → T.Steps E (f s) (f t))
    (h : S.Steps C s t) (hr : S.Reachable C s) : T.Steps E (f s) (f t) := by
  induction h with
  | refl => exact Steps.refl _
  | tail hpre hlast ih =>
      obtain ⟨a, hc, ha⟩ := hlast
      exact ih.trans (hstep _ a _ (hr.steps hpre) hc ha)

/-- Each action of a list has a property in the state that the actions before it lead to. -/
def Along (f : σ → α → σ) (P : σ → α → Prop) : σ → List α → Prop
  | _, [] => True
  | s, a :: rest => P s a ∧ Along f P (f s a) rest

/-- Actions in a row, each of them a step that meets `C`. -/
theorem Reachable.foldl {f : σ → α → σ} {P : σ → α → Prop}
    (hstep : ∀ s a, P s a → C s a ∧ S.step s a (f s a)) {actions : List α}
    (h : S.Reachable C s) (halong : Along f P s actions) : S.Reachable C (actions.foldl f s) := by
  induction actions generalizing s with
  | nil => exact h
  | cons a rest ih =>
      obtain ⟨hc, ha⟩ := hstep s a halong.1
      exact ih (h.step hc ha) halong.2

/-- A run of a partial step function whose steps are steps. -/
theorem Reachable.foldlM {next : σ → α → Option σ}
    (hnext : ∀ s a t, next s a = some t → S.step s a t)
    {actions : List α} (h : S.Reachable Any s) (hrun : actions.foldlM next s = some t) :
    S.Reachable Any t := by
  induction actions generalizing s with
  | nil =>
      obtain rfl := Option.some.inj hrun
      exact h
  | cons a rest ih =>
      rw [List.foldlM_cons] at hrun
      obtain ⟨u, hu, hrest⟩ := Option.bind_eq_some_iff.1 hrun
      exact ih (h.step trivial (hnext s a u hu)) hrest

end System

end WheelForge.Transition
