import WheelForge.Interaction.Program

/-!
# Triples over a view of the state

`view v s` says that the state `s` looks like `v`: `v` is what a proof knows of the state, and other
parts of the state may change freely. `Shows` is the triple of a program over views. Its rules
follow the constructs of programs, so that a proof about a part of the state never mentions the
rest.
-/

set_option autoImplicit false

namespace WheelForge.Interaction.Program

variable {O : Type} {R : O → Type} {ε α β σ V : Type} {A : σ → O → Prop}
  {T : σ → (o : O) → Except ε (R o) → σ → Prop} {view : V → σ → Prop} {v : V}

/-- From every state that looks like `v`, every call of the program is allowed, and at its end the
state looks like some `w` that fits the outcome. -/
def Shows (A : σ → O → Prop) (T : σ → (o : O) → Except ε (R o) → σ → Prop) (view : V → σ → Prop)
    (v : V) (p : Program O R ε α) (Q : Except ε α → V → Prop) : Prop :=
  ∀ s, view v s → Meets A T p s fun t x => ∃ w, view w t ∧ Q x w

/-- A postcondition for each way to end. -/
def Ending (P : α → V → Prop) (E : ε → V → Prop) : Except ε α → V → Prop
  | .ok a, w => P a w
  | .error e, w => E e w

theorem shows_ret {a : α} {Q : Except ε α → V → Prop} (h : Q (.ok a) v) :
    Shows A T view v (ret a : Program O R ε α) Q :=
  fun _ hs => ⟨v, hs, h⟩

theorem shows_pure {a : α} {Q : Except ε α → V → Prop} (h : Q (.ok a) v) :
    Shows A T view v (pure a : Program O R ε α) Q :=
  shows_ret h

theorem shows_raise {e : ε} {Q : Except ε α → V → Prop} (h : Q (.error e) v) :
    Shows A T view v (raise e : Program O R ε α) Q :=
  fun _ hs => ⟨v, hs, h⟩

theorem Shows.mono {p : Program O R ε α} {Q Q' : Except ε α → V → Prop}
    (h : Shows A T view v p Q) (hQ : ∀ x w, Q x w → Q' x w) : Shows A T view v p Q' :=
  fun s hs => (h s hs).mono fun _ x ⟨w, hw, hx⟩ => ⟨w, hw, hQ x w hx⟩

/-- One call: it is allowed, and every answer leads to a view. -/
theorem shows_op {o : O} {Q : Except ε (R o) → V → Prop} (hA : ∀ s, view v s → A s o)
    (hT : ∀ s r t, view v s → T s o r t → ∃ w, view w t ∧ Q r w) :
    Shows A T view v (op o) Q :=
  fun s hs => meets_op.2 ⟨hA s hs, fun r t hr => hT s r t hs hr⟩

theorem shows_bind {p : Program O R ε α} {f : α → Program O R ε β} {P : Except ε α → V → Prop}
    {Q : Except ε β → V → Prop} (hp : Shows A T view v p P)
    (hf : ∀ a w, P (.ok a) w → Shows A T view w (f a) Q)
    (he : ∀ e w, P (.error e) w → Q (.error e) w) : Shows A T view v (p >>= f) Q := by
  intro s hs
  apply meets_bind.2
  apply (hp s hs).mono
  rintro t (e | a) ⟨w, hw, hx⟩
  · exact ⟨w, hw, he e w hx⟩
  · exact hf a w hx t hw

theorem shows_handle {p : Program O R ε α} {h : ε → Program O R ε α} {P Q : Except ε α → V → Prop}
    (hp : Shows A T view v p P) (ha : ∀ a w, P (.ok a) w → Q (.ok a) w)
    (hh : ∀ e w, P (.error e) w → Shows A T view w (h e) Q) :
    Shows A T view v (handle p h) Q := by
  intro s hs
  apply meets_handle.2
  apply (hp s hs).mono
  rintro t (e | a) ⟨w, hw, hx⟩
  · exact hh e w hx t hw
  · exact ⟨w, hw, ha a w hx⟩

theorem shows_attempt {p : Program O R ε α} {Q : Except ε (Except ε α) → V → Prop}
    (hp : Shows A T view v p fun x w => Q (.ok x) w) : Shows A T view v (attempt p) Q :=
  fun s hs => meets_attempt.2 (hp s hs)

/-- Where a program stops, what `A` demands and what every view shows holds. -/
theorem Shows.stops {p : Program O R ε α} {Q : Except ε α → V → Prop} {C : σ → Prop} {s t : σ}
    (h : Shows A T view v p Q) (hs : view v s) (hstop : Stops T p s t)
    (hA : ∀ u o, A u o → C u) (hview : ∀ u w, view w u → C u) : C t :=
  hstop.meets (h s hs) hA fun u _ ⟨w, hw, _⟩ => hview u w hw

theorem Shows.run {p : Program O R ε α} {Q : Except ε α → V → Prop} {s t : σ} {x : Except ε α}
    (h : Shows A T view v p Q) (hs : view v s) (hrun : Run T p s x t) : ∃ w, view w t ∧ Q x w :=
  hrun.meets (h s hs)

section Mono

variable {T' : σ → (o : O) → Except ε (R o) → σ → Prop} {p : Program O R ε α} {s t : σ}

/-- A run against fewer answers is a run against more. -/
theorem Run.mono (hT : ∀ s o r t, T s o r t → T' s o r t) {x : Except ε α} (h : Run T p s x t) :
    Run T' p s x t := by
  induction h with
  | ret a s => exact .ret a s
  | raise e s => exact .raise e s
  | call hcall _ ih => exact .call (hT _ _ _ _ hcall) ih

theorem Stops.mono (hT : ∀ s o r t, T s o r t → T' s o r t) (h : Stops T p s t) :
    Stops T' p s t := by
  induction h with
  | here p s => exact .here p s
  | later hcall _ ih => exact .later (hT _ _ _ _ hcall) ih

end Mono

end WheelForge.Interaction.Program
