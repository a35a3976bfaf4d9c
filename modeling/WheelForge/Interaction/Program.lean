import Mathlib.Logic.Basic

/-!
# Programs that make calls and raise exceptions

A `Program` makes calls to its surroundings. A call answers with a value or with an exception, and
the program ends with a value or with an exception; `attempt` catches. `Run` executes a program
against a relation that says how a state answers the calls. `Meets` is the weakest precondition of a
program: every call is allowed where it is made, and however the calls are answered the
postcondition holds at the end. It is computed by recursion on the program, it composes along `bind`
and `attempt` (`meets_bind`, `meets_attempt`), and it is sound for `Run` (`Run.meets`).

A program may also stop between two calls. `Stops` reaches the states in which it may, and a
condition that `A` demands at every call holds there (`Stops.meets`). `exec` runs a program whose
calls have one answer each.
-/

set_option autoImplicit false

namespace WheelForge.Interaction

/-- A program that makes calls `o : O` with answers in `R o`. -/
inductive Program (O : Type) (R : O → Type) (ε : Type) (α : Type) where
  | ret (a : α)
  | raise (e : ε)
  | call (o : O) (k : Except ε (R o) → Program O R ε α)

namespace Program

variable {O : Type} {R : O → Type} {ε : Type} {α β σ : Type}

/-- Sequencing; an exception skips the rest. -/
def bind : Program O R ε α → (α → Program O R ε β) → Program O R ε β
  | ret a, f => f a
  | raise e, _ => raise e
  | call o k, f => call o fun r => bind (k r) f

instance : Monad (Program O R ε) where
  pure := ret
  bind := bind

/-- One call, with its exception raised again. -/
def op (o : O) : Program O R ε (R o) :=
  call o fun
    | .ok v => ret v
    | .error e => raise e

/-- The outcome of a program as a value. -/
def attempt : Program O R ε α → Program O R ε (Except ε α)
  | ret a => ret (.ok a)
  | raise e => ret (.error e)
  | call o k => call o fun r => attempt (k r)

/-- An outcome as a program. -/
def ofExcept : Except ε α → Program O R ε α
  | .ok a => ret a
  | .error e => raise e

/-- `try p except e: h e`. -/
def handle (p : Program O R ε α) (h : ε → Program O R ε α) : Program O R ε α :=
  bind (attempt p) fun
    | .ok a => ret a
    | .error e => h e

/-- `try: p finally: cleanup`. -/
def ensuring (p : Program O R ε α) (cleanup : Program O R ε Unit) : Program O R ε α :=
  bind (attempt p) fun x => bind cleanup fun _ => ofExcept x

/-- A program inside a larger one: its calls become calls whose answers are what the call answered,
an exception of the larger program ends it, and its own exception is translated. -/
def embed {O' : Type} {R' : O' → Type} {ε' : Type} (lift : O → O')
    (answer : ∀ o, R' (lift o) → Except ε (R o)) (g : ε → ε') :
    Program O R ε α → Program O' R' ε' α
  | ret a => ret a
  | raise e => raise (g e)
  | call o k => call (lift o) fun
      | .ok r => embed lift answer g (k (answer o r))
      | .error e => raise e

/-! ## Execution -/

/-- `Run T p s x t`: the program runs from state `s` to state `t` and ends with `x`. `T` says how a
state answers a call. -/
inductive Run (T : σ → (o : O) → Except ε (R o) → σ → Prop) :
    Program O R ε α → σ → Except ε α → σ → Prop
  | ret (a : α) (s : σ) : Run T (ret a) s (.ok a) s
  | raise (e : ε) (s : σ) : Run T (raise e) s (.error e) s
  | call {o : O} {k : Except ε (R o) → Program O R ε α} {s s' t : σ} {r : Except ε (R o)}
      {x : Except ε α} (h : T s o r s') (hk : Run T (k r) s' x t) : Run T (call o k) s x t

/-- A program run by a partial function that answers its calls. -/
def replay (answer : σ → (o : O) → Option (Except ε (R o) × σ)) :
    Program O R ε α → σ → Option (Except ε α × σ)
  | ret a, s => some (.ok a, s)
  | raise e, s => some (.error e, s)
  | call o k, s =>
      match answer s o with
      | some (r, s') => replay answer (k r) s'
      | none => none

/-- The value that a replayed program returned. -/
def returned : Option (Except ε α × σ) → Option α
  | some (.ok a, _) => some a
  | _ => none

theorem exists_of_returned {result : Option (Except ε α × σ)} {a : α}
    (h : returned result = some a) : ∃ t, result = some (.ok a, t) := by
  unfold returned at h
  split at h
  · next b t =>
      cases h
      exact ⟨t, rfl⟩
  · cases h

/-- The error that a replayed program raised. -/
def raised : Option (Except ε α × σ) → Option ε
  | some (.error e, _) => some e
  | _ => none

theorem exists_of_raised {result : Option (Except ε α × σ)} {e : ε}
    (h : raised result = some e) : ∃ t, result = some (.error e, t) := by
  unfold raised at h
  split at h
  · next f t =>
      cases h
      exact ⟨t, rfl⟩
  · cases h

theorem replay_run {T : σ → (o : O) → Except ε (R o) → σ → Prop}
    {answer : σ → (o : O) → Option (Except ε (R o) × σ)}
    (hT : ∀ s o r s', answer s o = some (r, s') → T s o r s') {p : Program O R ε α} {s t : σ}
    {x : Except ε α} (h : replay answer p s = some (x, t)) : Run T p s x t := by
  induction p generalizing s with
  | ret a =>
      cases h
      exact .ret a _
  | raise e =>
      cases h
      exact .raise e _
  | call o k ih =>
      unfold replay at h
      split at h
      · next r s' hr => exact .call (hT s o r s' hr) (ih r h)
      · cases h

theorem Run.bind {T : σ → (o : O) → Except ε (R o) → σ → Prop} {p : Program O R ε α}
    {f : α → Program O R ε β} {s t u : σ} {a : α} {x : Except ε β} (hp : Run T p s (.ok a) t)
    (hf : Run T (f a) t x u) : Run T (p >>= f) s x u := by
  change Run T (Program.bind p f) s x u
  induction p generalizing s with
  | ret b =>
      cases hp
      exact hf
  | raise e => cases hp
  | call o k ih =>
      cases hp with
      | call h hk => exact .call h (ih _ hk)

theorem Run.attempt {T : σ → (o : O) → Except ε (R o) → σ → Prop} {p : Program O R ε α}
    {s t : σ} {x : Except ε α} (hp : Run T p s x t) : Run T (attempt p) s (.ok x) t := by
  induction hp with
  | ret a s => exact .ret _ s
  | raise e s => exact .ret _ s
  | call h _ ih => exact .call h ih

theorem Run.op {T : σ → (o : O) → Except ε (R o) → σ → Prop} {o : O} {s t : σ} {v : R o}
    (h : T s o (.ok v) t) : Run T (op o) s (.ok v) t :=
  .call h (.ret v t)

/-- `Stops T p s t`: the program, started in `s`, may stop in `t` before its end or at its end. -/
inductive Stops (T : σ → (o : O) → Except ε (R o) → σ → Prop) :
    Program O R ε α → σ → σ → Prop
  | here (p : Program O R ε α) (s : σ) : Stops T p s s
  | later {o : O} {k : Except ε (R o) → Program O R ε α} {s s' t : σ} {r : Except ε (R o)}
      (h : T s o r s') (hk : Stops T (k r) s' t) : Stops T (call o k) s t

/-- The answers of a function. -/
def Answered (answer : σ → (o : O) → Except ε (R o) × σ) (s : σ) (o : O) (r : Except ε (R o))
    (s' : σ) : Prop :=
  answer s o = (r, s')

/-- A program run by a function that answers its calls. -/
def exec (answer : σ → (o : O) → Except ε (R o) × σ) : Program O R ε α → σ → Except ε α × σ
  | ret a, s => (.ok a, s)
  | raise e, s => (.error e, s)
  | call o k, s => exec answer (k (answer s o).1) (answer s o).2

/-- The state after the given number of calls, or at the end. -/
def stopAfter (answer : σ → (o : O) → Except ε (R o) × σ) : Nat → Program O R ε α → σ → σ
  | n + 1, call o k, s => stopAfter answer n (k (answer s o).1) (answer s o).2
  | _, _, s => s

theorem stopAfter_stops (answer : σ → (o : O) → Except ε (R o) × σ) (n : Nat)
    (p : Program O R ε α) (s : σ) : Stops (Answered answer) p s (stopAfter answer n p s) := by
  induction n generalizing p s with
  | zero => exact .here p s
  | succ n ih =>
      cases p with
      | ret a => exact .here _ s
      | raise e => exact .here _ s
      | call o k => exact .later rfl (ih _ _)

/-- A loop over a list with an accumulator; an exception ends it. -/
def loop {γ : Type} (body : β → γ → Program O R ε β) : List γ → β → Program O R ε β
  | [], b => ret b
  | c :: cs, b => bind (body b c) fun b' => loop body cs b'

/-! ## Weakest preconditions -/

/-- Every call of the program is allowed (`A`) where it is made, and the postcondition `Q` holds
however the calls are answered (`T`). -/
def Meets (A : σ → O → Prop) (T : σ → (o : O) → Except ε (R o) → σ → Prop) :
    Program O R ε α → σ → (σ → Except ε α → Prop) → Prop
  | ret a, s, Q => Q s (.ok a)
  | raise e, s, Q => Q s (.error e)
  | call o k, s, Q => A s o ∧ ∀ r s', T s o r s' → Meets A T (k r) s' Q

section Rules

variable {A : σ → O → Prop} {T : σ → (o : O) → Except ε (R o) → σ → Prop} {s : σ}

@[simp] theorem meets_ret {a : α} {Q : σ → Except ε α → Prop} :
    Meets A T (ret a) s Q ↔ Q s (.ok a) := Iff.rfl

@[simp] theorem meets_raise {e : ε} {Q : σ → Except ε α → Prop} :
    Meets A T (raise e) s Q ↔ Q s (.error e) := Iff.rfl

@[simp] theorem meets_pure {a : α} {Q : σ → Except ε α → Prop} :
    Meets A T (pure a : Program O R ε α) s Q ↔ Q s (.ok a) := Iff.rfl

theorem meets_call {o : O} {k : Except ε (R o) → Program O R ε α} {Q : σ → Except ε α → Prop} :
    Meets A T (call o k) s Q ↔ A s o ∧ ∀ r s', T s o r s' → Meets A T (k r) s' Q := Iff.rfl

/-- The consequence rule. -/
theorem Meets.mono {p : Program O R ε α} {Q Q' : σ → Except ε α → Prop} (h : Meets A T p s Q)
    (hQ : ∀ t x, Q t x → Q' t x) : Meets A T p s Q' := by
  induction p generalizing s with
  | ret a => exact hQ _ _ h
  | raise e => exact hQ _ _ h
  | call o k ih =>
      obtain ⟨ha, hk⟩ := h
      refine ⟨ha, ?_⟩
      intro r s' hT
      apply ih r
      exact hk r s' hT

/-- The consequence rule with a weaker demand on the calls. -/
theorem Meets.weaken {A' : σ → O → Prop} {p : Program O R ε α} {Q Q' : σ → Except ε α → Prop}
    (h : Meets A T p s Q) (hA : ∀ t o, A t o → A' t o) (hQ : ∀ t x, Q t x → Q' t x) :
    Meets A' T p s Q' := by
  induction p generalizing s with
  | ret a => exact hQ _ _ h
  | raise e => exact hQ _ _ h
  | call o k ih =>
      obtain ⟨ha, hk⟩ := h
      refine ⟨hA _ _ ha, ?_⟩
      intro r s' hT
      apply ih r
      exact hk r s' hT

/-- Sequencing: the first program establishes what the rest needs, or the postcondition with its
exception. -/
theorem meets_bind {p : Program O R ε α} {f : α → Program O R ε β}
    {Q : σ → Except ε β → Prop} :
    Meets A T (p >>= f) s Q ↔
      Meets A T p s fun t x =>
        match x with
        | .ok a => Meets A T (f a) t Q
        | .error e => Q t (.error e) := by
  change Meets A T (bind p f) s Q ↔ _
  induction p generalizing s with
  | ret a => exact Iff.rfl
  | raise e => exact Iff.rfl
  | call o k ih =>
      constructor
      · rintro ⟨ha, hk⟩
        exact ⟨ha, fun r s' hT => (ih r).1 (hk r s' hT)⟩
      · rintro ⟨ha, hk⟩
        exact ⟨ha, fun r s' hT => (ih r).2 (hk r s' hT)⟩

/-- Catching: the outcome becomes the result. -/
theorem meets_attempt {p : Program O R ε α} {Q : σ → Except ε (Except ε α) → Prop} :
    Meets A T (attempt p) s Q ↔ Meets A T p s fun t x => Q t (.ok x) := by
  induction p generalizing s with
  | ret a => exact Iff.rfl
  | raise e => exact Iff.rfl
  | call o k ih =>
      constructor
      · rintro ⟨ha, hk⟩
        exact ⟨ha, fun r s' hT => (ih r).1 (hk r s' hT)⟩
      · rintro ⟨ha, hk⟩
        exact ⟨ha, fun r s' hT => (ih r).2 (hk r s' hT)⟩

/-- Handling: an exception continues in the handler. -/
theorem meets_handle {p : Program O R ε α} {h : ε → Program O R ε α}
    {Q : σ → Except ε α → Prop} :
    Meets A T (handle p h) s Q ↔
      Meets A T p s fun t x =>
        match x with
        | .ok a => Q t (.ok a)
        | .error e => Meets A T (h e) t Q := by
  unfold handle
  change Meets A T (attempt p >>= _) s Q ↔ _
  rw [meets_bind, meets_attempt]
  constructor
  · intro hp
    apply hp.mono
    rintro t (e | a) ht <;> exact ht
  · intro hp
    apply hp.mono
    rintro t (e | a) ht <;> exact ht

/-- One call: what its answers give. -/
theorem meets_op {o : O} {Q : σ → Except ε (R o) → Prop} :
    Meets A T (op o) s Q ↔ A s o ∧ ∀ r s', T s o r s' → Q s' r := by
  constructor
  · rintro ⟨ha, hk⟩
    refine ⟨ha, ?_⟩
    rintro (e | v) s' hT
    · exact hk (.error e) s' hT
    · exact hk (.ok v) s' hT
  · rintro ⟨ha, hk⟩
    refine ⟨ha, ?_⟩
    rintro (e | v) s' hT
    · exact hk (.error e) s' hT
    · exact hk (.ok v) s' hT

theorem meets_ofExcept {x : Except ε α} {Q : σ → Except ε α → Prop} :
    Meets A T (ofExcept x) s Q ↔ Q s x := by
  cases x <;> exact Iff.rfl

/-- Cleaning up: the clean-up runs however the program ended, and its own exception wins. -/
theorem meets_ensuring {p : Program O R ε α} {cleanup : Program O R ε Unit}
    {Q : σ → Except ε α → Prop} :
    Meets A T (ensuring p cleanup) s Q ↔
      Meets A T p s fun t x =>
        Meets A T cleanup t fun u y =>
          match y with
          | .ok _ => Q u x
          | .error e => Q u (.error e) := by
  unfold ensuring
  change Meets A T (attempt p >>= fun x => cleanup >>= fun _ => ofExcept x) s Q ↔ _
  rw [meets_bind, meets_attempt]
  constructor
  · intro h
    apply h.mono
    intro t x ht
    apply (meets_bind.1 ht).mono
    rintro u (e | a) hu
    · exact hu
    · exact meets_ofExcept.1 hu
  · intro h
    apply h.mono
    intro t x ht
    apply meets_bind.2
    apply ht.mono
    rintro u (e | a) hu
    · exact hu
    · exact meets_ofExcept.2 hu

/-- Two postconditions at once. -/
theorem Meets.and {p : Program O R ε α} {Q Q' : σ → Except ε α → Prop} (h : Meets A T p s Q)
    (h' : Meets A T p s Q') : Meets A T p s fun t x => Q t x ∧ Q' t x := by
  induction p generalizing s with
  | ret a => exact ⟨h, h'⟩
  | raise e => exact ⟨h, h'⟩
  | call o k ih =>
      refine ⟨h.1, ?_⟩
      intro r s' hT
      exact ih r (h.2 r s' hT) (h'.2 r s' hT)

/-- Soundness: a run of a program ends as its weakest precondition says. -/
theorem Run.meets {p : Program O R ε α} {x : Except ε α} {t : σ}
    {Q : σ → Except ε α → Prop} (hrun : Run T p s x t) (h : Meets A T p s Q) : Q t x := by
  induction hrun with
  | ret a s => exact h
  | raise e s => exact h
  | call hT _ ih => exact ih (h.2 _ _ hT)

/-- A condition that holds at every call and at the end holds wherever the program stops. -/
theorem Stops.meets {p : Program O R ε α} {t : σ} {Q : σ → Except ε α → Prop} {C : σ → Prop}
    (hstop : Stops T p s t) (h : Meets A T p s Q) (hA : ∀ u o, A u o → C u)
    (hQ : ∀ u x, Q u x → C u) : C t := by
  induction hstop with
  | here p s =>
      cases p with
      | ret a => exact hQ _ _ h
      | raise e => exact hQ _ _ h
      | call o k => exact hA _ _ h.1
  | later hT _ ih => exact ih (h.2 _ _ hT)

theorem exec_run (answer : σ → (o : O) → Except ε (R o) × σ) (p : Program O R ε α) (s : σ) :
    Run (Answered answer) p s (exec answer p s).1 (exec answer p s).2 := by
  induction p generalizing s with
  | ret a => exact .ret a s
  | raise e => exact .raise e s
  | call o k ih => exact .call rfl (ih _ _)

/-- A call with one answer, a value, and what follows it. -/
theorem meets_op_answered {answer : σ → (o : O) → Except ε (R o) × σ} {o : O} {v : R o} {t : σ}
    {f : R o → Program O R ε α} {Q : σ → Except ε α → Prop} (ha : A s o)
    (hanswer : answer s o = (.ok v, t)) (h : Meets A (Answered answer) (f v) t Q) :
    Meets A (Answered answer) (op o >>= f) s Q := by
  rw [meets_bind, meets_op]
  refine ⟨ha, ?_⟩
  rintro r t' hr
  obtain ⟨rfl, rfl⟩ := Prod.mk.inj (hanswer.symm.trans hr)
  exact h

/-- The postcondition of a program whose calls have one answer each is about one end. -/
theorem Meets.exact {answer : σ → (o : O) → Except ε (R o) × σ} {p : Program O R ε α}
    {Q : σ → Except ε α → Prop} (h : Meets A (Answered answer) p s Q) :
    Meets A (Answered answer) p s fun t x => x = (exec answer p s).1 ∧ t = (exec answer p s).2 := by
  induction p generalizing s with
  | ret a => exact ⟨rfl, rfl⟩
  | raise e => exact ⟨rfl, rfl⟩
  | call o k ih =>
      obtain ⟨ha, hk⟩ := h
      refine ⟨ha, ?_⟩
      rintro r s' hr
      obtain rfl : r = (answer s o).1 := congrArg Prod.fst (Eq.symm hr)
      obtain rfl : s' = (answer s o).2 := congrArg Prod.snd (Eq.symm hr)
      exact ih _ (hk _ _ hr)

/-- Sequencing in an execution. -/
theorem exec_bind (answer : σ → (o : O) → Except ε (R o) × σ) (p : Program O R ε α)
    (f : α → Program O R ε β) (s : σ) :
    exec answer (p >>= f) s =
      match exec answer p s with
      | (.ok a, t) => exec answer (f a) t
      | (.error e, t) => (.error e, t) := by
  change exec answer (bind p f) s = _
  induction p generalizing s with
  | ret a => rfl
  | raise e => rfl
  | call o k ih => exact ih _ _

theorem exec_op (answer : σ → (o : O) → Except ε (R o) × σ) (o : O) (s : σ) :
    exec answer (op o) s = answer s o := by
  simp only [op, exec]
  rcases answer s o with ⟨_ | _, _⟩ <;> rfl

theorem exec_attempt (answer : σ → (o : O) → Except ε (R o) × σ) (p : Program O R ε α) (s : σ) :
    exec answer (attempt p) s = (.ok (exec answer p s).1, (exec answer p s).2) := by
  induction p generalizing s with
  | ret a => rfl
  | raise e => rfl
  | call o k ih => exact ih _ _

theorem exec_handle (answer : σ → (o : O) → Except ε (R o) × σ) (p : Program O R ε α)
    (h : ε → Program O R ε α) (s : σ) :
    exec answer (handle p h) s =
      match exec answer p s with
      | (.ok a, t) => (.ok a, t)
      | (.error e, t) => exec answer (h e) t := by
  refine (exec_bind answer (attempt p) _ s).trans ?_
  rw [exec_attempt]
  rcases exec answer p s with ⟨_ | _, _⟩ <;> rfl

/-- The loop rule: `I cs b` holds before the elements `cs` are processed with the accumulator `b`. -/
theorem meets_loop {γ : Type} {body : β → γ → Program O R ε β} {I : List γ → β → σ → Prop}
    {E : σ → ε → Prop}
    (hbody : ∀ c cs b s, I (c :: cs) b s → Meets A T (body b c) s fun t x =>
      match x with
      | .ok b' => I cs b' t
      | .error e => E t e) {cs : List γ} {b : β} (h : I cs b s) :
    Meets A T (loop body cs b) s fun t x =>
      match x with
      | .ok b' => I [] b' t
      | .error e => E t e := by
  induction cs generalizing b s with
  | nil => exact h
  | cons c cs ih =>
      apply meets_bind.2
      apply (hbody c cs b s h).mono
      rintro t (e | b') ht
      · exact ht
      · exact ih ht

end Rules

/-! ## Invariants -/

/-- However its calls are answered, the program keeps `I`. -/
def Keeps (T : σ → (o : O) → Except ε (R o) → σ → Prop) (I : σ → Prop) (p : Program O R ε α) :
    Prop :=
  ∀ s, I s → Meets (fun _ _ => True) T p s fun t _ => I t

section Invariants

variable {T : σ → (o : O) → Except ε (R o) → σ → Prop} {I : σ → Prop}

theorem keeps_pure {a : α} : Keeps T I (pure a : Program O R ε α) := fun _ h => h

theorem keeps_raise {e : ε} : Keeps T I (raise e : Program O R ε α) := fun _ h => h

theorem keeps_op {o : O} (h : ∀ s r t, I s → T s o r t → I t) : Keeps T I (op o) :=
  fun s hs => meets_op.2 ⟨trivial, fun r t ht => h s r t hs ht⟩

theorem Keeps.bind {p : Program O R ε α} {f : α → Program O R ε β} (hp : Keeps T I p)
    (hf : ∀ a, Keeps T I (f a)) : Keeps T I (p >>= f) := by
  intro s hs
  rw [meets_bind]
  apply (hp s hs).mono
  rintro t (e | a) ht
  · exact ht
  · exact hf a t ht

theorem Keeps.attempt {p : Program O R ε α} (hp : Keeps T I p) : Keeps T I (attempt p) :=
  fun s hs => meets_attempt.2 (hp s hs)

theorem Keeps.handle {p : Program O R ε α} {h : ε → Program O R ε α} (hp : Keeps T I p)
    (hh : ∀ e, Keeps T I (h e)) : Keeps T I (handle p h) := by
  intro s hs
  rw [meets_handle]
  apply (hp s hs).mono
  rintro t (e | a) ht
  · exact hh e t ht
  · exact ht

/-- An embedded program keeps what its calls keep. -/
theorem Keeps.embed {O' : Type} {R' : O' → Type} {ε' : Type} {lift : O → O'}
    {answer : ∀ o, R' (lift o) → Except ε (R o)} {g : ε → ε'}
    {T' : σ → (o : O') → Except ε' (R' o) → σ → Prop} (p : Program O R ε α)
    (h : ∀ s o r t, I s → T' s (lift o) r t → I t) :
    Keeps T' I (Program.embed lift answer g p) := by
  induction p with
  | ret a => exact keeps_pure
  | raise e => exact keeps_raise
  | call o k ih =>
      intro s hs
      rw [Program.embed, meets_call]
      refine ⟨trivial, ?_⟩
      rintro (e | r) t ht
      · exact h s o _ t hs ht
      · exact ih _ t (h s o _ t hs ht)

theorem Run.keeps {p : Program O R ε α} {x : Except ε α} {s t : σ} (hrun : Run T p s x t)
    (hp : Keeps T I p) (hs : I s) : I t :=
  hrun.meets (hp s hs)

end Invariants

/-! ## Partial correctness -/

/-- If the program returns a value, the value and the state satisfy `Q`. -/
def Returns (T : σ → (o : O) → Except ε (R o) → σ → Prop) (p : Program O R ε α) (s : σ)
    (Q : σ → α → Prop) : Prop :=
  Meets (fun _ _ => True) T p s fun t x => ∀ a, x = .ok a → Q t a

section Partiality

variable {T : σ → (o : O) → Except ε (R o) → σ → Prop} {s : σ} {Q : σ → α → Prop}

@[simp] theorem returns_ret {a : α} : Returns T (ret a) s Q ↔ Q s a := by
  constructor
  · intro h
    exact h a rfl
  · rintro h b ⟨⟩
    exact h

@[simp] theorem returns_pure {a : α} : Returns T (pure a : Program O R ε α) s Q ↔ Q s a :=
  returns_ret

@[simp] theorem returns_raise {e : ε} : Returns T (raise e : Program O R ε α) s Q := by
  rintro a ⟨⟩

theorem Returns.mono {p : Program O R ε α} {Q' : σ → α → Prop} (h : Returns T p s Q)
    (hQ : ∀ t a, Q t a → Q' t a) : Returns T p s Q' := by
  apply Meets.mono h
  intro t x hx a ha
  exact hQ t a (hx a ha)

theorem Returns.of_forall {p : Program O R ε α} (hQ : ∀ t a, Q t a) : Returns T p s Q := by
  induction p generalizing s with
  | ret a => exact returns_ret.2 (hQ s a)
  | raise e => exact returns_raise
  | call o k ih => exact ⟨trivial, fun r s' _ => ih r⟩

theorem returns_bind {p : Program O R ε α} {f : α → Program O R ε β} {Q : σ → β → Prop} :
    Returns T (p >>= f) s Q ↔ Returns T p s fun t a => Returns T (f a) t Q := by
  unfold Returns
  rw [meets_bind]
  constructor
  · intro h
    apply h.mono
    rintro t x hx a rfl
    exact hx
  · intro h
    apply h.mono
    rintro t (e | a) hx
    · rintro b ⟨⟩
    · exact hx a rfl

theorem returns_op {o : O} {Q : σ → R o → Prop} :
    Returns T (op o) s Q ↔ ∀ v s', T s o (.ok v) s' → Q s' v := by
  unfold Returns
  rw [meets_op]
  constructor
  · intro h v s' hT
    exact h.2 _ s' hT v rfl
  · intro h
    refine ⟨trivial, ?_⟩
    rintro r s' hT v rfl
    exact h v s' hT

theorem returns_attempt {p : Program O R ε α} {Q : σ → Except ε α → Prop} :
    Returns T (attempt p) s Q ↔ Meets (fun _ _ => True) T p s Q := by
  unfold Returns
  rw [meets_attempt]
  constructor
  · intro h
    apply h.mono
    intro t x hx
    exact hx x rfl
  · intro h
    apply h.mono
    rintro t x hx y ⟨⟩
    exact hx

theorem Run.returns {p : Program O R ε α} {a : α} {t : σ} (hrun : Run T p s (.ok a) t)
    (h : Returns T p s Q) : Q t a :=
  hrun.meets h a rfl

/-- If the program returns a value, however its calls are answered, the value satisfies `Q`. -/
def Yields (p : Program O R ε α) (Q : α → Prop) : Prop :=
  Returns (fun (_ : Unit) _ _ _ => True) p () fun _ a => Q a

/-- An embedded program: its calls keep `I`, and it returns what its own program can return. -/
theorem Yields.embed {O' : Type} {R' : O' → Type} {ε' : Type} {lift : O → O'}
    {answer : ∀ o, R' (lift o) → Except ε (R o)} {g : ε → ε'}
    {T' : σ → (o : O') → Except ε' (R' o) → σ → Prop} {I : σ → Prop} {Q : α → Prop}
    {p : Program O R ε α} (hp : Yields p Q) (hT : ∀ t o r t', I t → T' t (lift o) r t' → I t')
    (hI : I s) : Returns T' (Program.embed lift answer g p) s fun t a => I t ∧ Q a := by
  induction p generalizing s with
  | ret a => exact returns_ret.2 ⟨hI, returns_ret.1 hp⟩
  | raise e => exact returns_raise
  | call o k ih =>
      unfold Returns
      rw [Program.embed, meets_call]
      refine ⟨trivial, ?_⟩
      rintro (e | r) s' hr
      · exact returns_raise
      · exact ih _ (hp.2 _ () trivial) (hT s o _ s' hI hr)

theorem yields_pure {a : α} {Q : α → Prop} : Yields (pure a : Program O R ε α) Q ↔ Q a :=
  returns_pure

theorem yields_raise {e : ε} {Q : α → Prop} : Yields (raise e : Program O R ε α) Q := returns_raise

theorem Yields.of_forall {p : Program O R ε α} {Q : α → Prop} (hQ : ∀ a, Q a) : Yields p Q :=
  Returns.of_forall fun _ => hQ

theorem Yields.mono {p : Program O R ε α} {Q Q' : α → Prop} (hp : Yields p Q)
    (hQ : ∀ a, Q a → Q' a) : Yields p Q' :=
  Returns.mono hp fun _ => hQ

theorem Yields.bind {p : Program O R ε α} {f : α → Program O R ε β} {P : α → Prop} {Q : β → Prop}
    (hp : Yields p P) (hf : ∀ a, P a → Yields (f a) Q) : Yields (p >>= f) Q := by
  unfold Yields
  rw [returns_bind]
  apply Returns.mono hp
  intro _ a ha
  exact hf a ha

/-- What follows a program whose value does not matter. -/
theorem yields_after {p : Program O R ε α} {f : α → Program O R ε β} {Q : β → Prop}
    (hf : ∀ a, Yields (f a) Q) : Yields (p >>= f) Q :=
  Yields.bind (P := fun _ => True) (.of_forall fun _ => trivial) fun a _ => hf a

theorem Yields.embedded {O' : Type} {R' : O' → Type} {ε' : Type} {lift : O → O'}
    {answer : ∀ o, R' (lift o) → Except ε (R o)} {g : ε → ε'} {Q : α → Prop}
    {p : Program O R ε α} (hp : Yields p Q) : Yields (Program.embed lift answer g p) Q := by
  apply (hp.embed (I := fun _ => True) (fun _ _ _ _ _ _ => trivial) trivial).mono
  rintro _ a ⟨-, ha⟩
  exact ha

/-- What a program yields, it yields in every run. -/
theorem Yields.meets {p : Program O R ε α} {Q : α → Prop} (hp : Yields p Q) :
    Meets (fun _ _ => True) T p s fun _ x => ∀ a, x = .ok a → Q a := by
  induction p generalizing s with
  | ret b => exact returns_ret.2 (yields_pure.1 hp)
  | raise e => exact returns_raise
  | call o k ih => exact ⟨trivial, fun r s' _ => ih r (hp.2 r () trivial)⟩

theorem Run.yields {p : Program O R ε α} {a : α} {t : σ} {Q : α → Prop}
    (hrun : Run T p s (.ok a) t) (hp : Yields p Q) : Q a :=
  hrun.returns hp.meets

end Partiality

end Program

end WheelForge.Interaction
