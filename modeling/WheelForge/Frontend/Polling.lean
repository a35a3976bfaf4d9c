import WheelForge.Transition.System

/-!
# Polling

`usePolling` calls a loader again and again while it is active. A controller is a state machine: a
synchronous block of `start`, `stop` or `tick` is one step, promises settle and timeouts fire in any
order, and the callbacks may call `start` and `stop` at any time.

At most one call of `tick` is suspended, and every load and callback belongs to the run that is
active then (`callbacks_of_current_run`). A run that starts while no call is suspended is served
until a terminal value stops it; a run that starts while one is suspended never loads
(`start_is_served_unless_inFlight`).
-/

set_option autoImplicit false

namespace WheelForge.Frontend

open WheelForge.Transition

universe u

variable {T : Type u}

/-! ## The controller -/

/-- Where a call of `tick` is suspended. -/
inductive TickPoint (T : Type u) where
  /-- `await load()` -/
  | loading
  /-- `await options.onData?.(value)` -/
  | handling (value : T)
  /-- in `options.onError?.(error)`, which may call `start` and `stop` -/
  | reporting
deriving DecidableEq, Repr

/-- A suspended call of `tick`. -/
structure Tick (T : Type u) where
  run : Nat
  point : TickPoint T
deriving DecidableEq, Repr

/-- What the controller did, for the statements about it. -/
inductive PollEvent (T : Type u) where
  | started (run : Nat)
  | stopped
  | loadCalled (run : Nat)
  | dataGiven (run : Nat) (value : T)
  | errorGiven (run : Nat)
  | reporterThrew (run : Nat)
deriving DecidableEq, Repr

/-- The variables of one `usePolling`, its pending timeouts and its suspended calls. -/
structure PollingController (T : Type u) where
  active : Bool
  inFlight : Bool
  /-- The handle in `timer`; it stays there after the timeout has fired. -/
  timer : Option Nat
  generation : Nat
  /-- Pending timeouts: their handle and the run that they pass to `tick`. -/
  timeouts : List (Nat × Nat)
  nextHandle : Nat
  ticks : List (Tick T)
  /-- The events so far, in order; the code has no such field. -/
  events : List (PollEvent T)
deriving DecidableEq, Repr

namespace PollingController

variable (s : PollingController T)

def initial : PollingController T := ⟨false, false, none, 0, [], 0, [], []⟩

def log (event : PollEvent T) : PollingController T := { s with events := s.events ++ [event] }

def clearTimer : PollingController T :=
  { s with
    timeouts := s.timeouts.filter fun entry => some entry.1 ≠ s.timer
    timer := none }

def stop : PollingController T :=
  (clearTimer { s with generation := s.generation + 1, active := false }).log .stopped

/-- `tick` up to its first suspension. -/
def tick (run : Nat) : PollingController T :=
  if s.active = false ∨ run ≠ s.generation ∨ s.inFlight = true then s
  else
    log { s with inFlight := true, ticks := s.ticks ++ [⟨run, .loading⟩] } (.loadCalled run)

def start : PollingController T :=
  let stopped := s.stop
  let run := stopped.generation
  (log { stopped with active := true } (.started run)).tick run

/-- `inFlight.value = false` in the `finally` block. -/
def release : PollingController T := { s with inFlight := false }

/-- The `finally` block and the last line of `tick`. -/
def finish (run : Nat) : PollingController T :=
  if s.active = true ∧ run = s.generation then
    { s.release with
      timer := some s.nextHandle
      timeouts := s.timeouts ++ [(s.nextHandle, run)]
      nextHandle := s.nextHandle + 1 }
  else s.release

def suspend (run : Nat) (point : TickPoint T) : PollingController T :=
  { s with ticks := s.ticks ++ [⟨run, point⟩] }

/-- `tick` from `const value = await load()`. -/
def loaded (run : Nat) (value : T) : PollingController T :=
  if s.active = false ∨ run ≠ s.generation then s.release
  else (s.log (.dataGiven run value)).suspend run (.handling value)

/-- The `catch` block. -/
def failed (run : Nat) : PollingController T :=
  if s.active = true ∧ run = s.generation then (s.log (.errorGiven run)).suspend run .reporting
  else s.finish run

variable (isTerminal : T → Option Bool)

/-- `tick` after `onData`; `isTerminal` has no value where it throws. -/
def handled (run : Nat) (value : T) : PollingController T :=
  match isTerminal value with
  | some true => s.stop.release
  | some false => s.finish run
  | none => s.failed run

end PollingController

/-! ## Steps -/

/-- What a suspended call goes on with. -/
inductive Settlement (T : Type u) where
  /-- The loader's promise is fulfilled. -/
  | resolved (value : T)
  /-- The callback returned. -/
  | returned
  /-- The promise is rejected, or the callback threw. -/
  | rejected
deriving DecidableEq, Repr

inductive PollAction (T : Type u) where
  | start
  | stop
  | timeout (handle : Nat)
  | settle (index : Nat) (outcome : Settlement T)
deriving DecidableEq, Repr

namespace PollingController

variable (isTerminal : T → Option Bool)

/-- A call of `tick` goes on. -/
def resume (s : PollingController T) : Tick T → Settlement T → Option (PollingController T)
  | ⟨run, .loading⟩, .resolved value => some (s.loaded run value)
  | ⟨run, .loading⟩, .rejected => some (s.failed run)
  | ⟨run, .handling value⟩, .returned => some (s.handled isTerminal run value)
  | ⟨run, .handling _⟩, .rejected => some (s.failed run)
  | ⟨run, .reporting⟩, .returned => some (s.finish run)
  -- an exception of `onError` leaves `tick` through its `finally` block
  | ⟨run, .reporting⟩, .rejected => some (s.release.log (.reporterThrew run))
  | _, _ => none

def next (s : PollingController T) : PollAction T → Option (PollingController T)
  | .start => some s.start
  | .stop => some s.stop
  | .timeout handle =>
      (s.timeouts.lookup handle).map fun run =>
        tick { s with timeouts := s.timeouts.filter fun entry => entry.1 ≠ handle } run
  | .settle index outcome =>
      s.ticks[index]?.bind fun tick =>
        resume isTerminal { s with ticks := s.ticks.eraseIdx index } tick outcome

/-- One `usePolling` from its call on. -/
def system : System (PollingController T) (PollAction T) where
  init s := s = initial
  step s a t := s.next isTerminal a = some t

end PollingController

/-! ## The log -/

/-- The run that an event leaves active. -/
def PollEvent.runAfter (current : Option Nat) : PollEvent T → Option Nat
  | .started run => some run
  | .stopped => none
  | _ => current

/-- The run that is active after some events. -/
def currentRun (events : List (PollEvent T)) : Option Nat :=
  events.foldl PollEvent.runAfter none

/-- The run whose loader or callback an event is a call of. -/
def PollEvent.callRun : PollEvent T → Option Nat
  | .loadCalled run => some run
  | .dataGiven run _ => some run
  | .errorGiven run => some run
  | _ => none

/-- Each call of the loader and of a callback is made for the run that is active at the time. -/
def CallsAreCurrent (events : List (PollEvent T)) : Prop :=
  ∀ before event after run, events = before ++ event :: after → event.callRun = some run →
    currentRun before = some run

section Log

variable {events : List (PollEvent T)} {event : PollEvent T}

@[simp] theorem currentRun_nil : currentRun ([] : List (PollEvent T)) = none := rfl

@[simp] theorem currentRun_concat :
    currentRun (events ++ [event]) = event.runAfter (currentRun events) := by
  simp [currentRun]

theorem callsAreCurrent_nil : CallsAreCurrent ([] : List (PollEvent T)) := by
  intro before event after run h
  simp at h

theorem CallsAreCurrent.concat (h : CallsAreCurrent events)
    (hcurrent : ∀ run, event.callRun = some run → currentRun events = some run) :
    CallsAreCurrent (events ++ [event]) := by
  intro before e after run hsplit he
  rcases List.eq_nil_or_concat after with rfl | ⟨rest, last, rfl⟩
  · -- the event at the end is the new one
    obtain ⟨rfl, hlast⟩ := List.append_inj' hsplit rfl
    obtain rfl : event = e := by simpa using hlast
    exact hcurrent run he
  · rw [List.concat_eq_append, ← List.cons_append, ← List.append_assoc] at hsplit
    obtain ⟨hbefore, -⟩ := List.append_inj' hsplit rfl
    exact h before e rest run hbefore he

end Log

namespace PollingController

/-! ## The invariant -/

/-- What every controller keeps, also within a step. -/
structure Lawful (s : PollingController T) : Prop where
  current : currentRun s.events = if s.active then some s.generation else none
  calls : CallsAreCurrent s.events
  loads : ∀ run, .loadCalled run ∈ s.events → run ≤ s.generation

/-- The state between two steps. -/
structure WellFormed (s : PollingController T) : Prop extends Lawful s where
  flight : s.ticks.length = if s.inFlight then 1 else 0
  older : ∀ tick ∈ s.ticks, tick.run ≤ s.generation
  single : s.timeouts.length ≤ 1
  pending : ∀ entry ∈ s.timeouts, s.timer = some entry.1 ∧ entry.2 = s.generation ∧
    s.active = true ∧ s.inFlight = false

/-- The state while the only suspended call of `tick` goes on. -/
structure Resumed (s : PollingController T) : Prop extends Lawful s where
  inFlight : s.inFlight = true
  ticks : s.ticks = []
  timeouts : s.timeouts = []

section Invariant

variable {s t : PollingController T} {run : Nat} {point : TickPoint T} {event : PollEvent T}
  {isTerminal : T → Option Bool}

theorem Lawful.of_eq (h : Lawful s) (hevents : t.events = s.events) (hactive : t.active = s.active)
    (hgeneration : t.generation = s.generation) : Lawful t where
  current := by rw [hevents, hactive, hgeneration, h.current]
  calls := hevents ▸ h.calls
  loads := by
    rw [hevents, hgeneration]
    exact h.loads

/-- A call for the current run of an active controller. -/
theorem Lawful.call (h : Lawful s) (hactive : s.active = true)
    (hevent : event.callRun = some s.generation)
    (hafter : event.runAfter (currentRun s.events) = currentRun s.events) :
    Lawful (s.log event) where
  current := by
    show currentRun (s.events ++ [event]) = if s.active then some s.generation else none
    rw [currentRun_concat, hafter, h.current]
  calls := by
    refine h.calls.concat fun run hrun => ?_
    rw [h.current, hactive, ← hrun, hevent]
    rfl
  loads := by
    intro run hmem
    rcases List.mem_append.1 hmem with hold | hnew
    · exact h.loads run hold
    · obtain rfl : .loadCalled run = event := by simpa using hnew
      exact Nat.le_of_eq (Option.some.inj hevent)

theorem Lawful.stop (h : Lawful s) : Lawful s.stop where
  current := by simp [PollingController.stop, log, clearTimer, PollEvent.runAfter]
  calls := h.calls.concat fun run hrun => by simp [PollEvent.callRun] at hrun
  loads := by
    intro run hmem
    have hold : .loadCalled run ∈ s.events := by
      simpa [PollingController.stop, log, clearTimer] using hmem
    exact Nat.le_succ_of_le (h.loads run hold)

/-! ### Ends of a resumed call -/

theorem WellFormed.timeouts_stop (h : WellFormed s) : s.stop.timeouts = [] := by
  show s.timeouts.filter (fun entry => some entry.1 ≠ s.timer) = []
  refine List.filter_eq_nil_iff.2 fun entry hentry => ?_
  simp [(h.pending entry hentry).1]

theorem Resumed.stop (h : Resumed s) : Resumed s.stop where
  toLawful := h.toLawful.stop
  inFlight := h.inFlight
  ticks := h.ticks
  timeouts := by simp [PollingController.stop, log, clearTimer, h.timeouts]

theorem Resumed.release (h : Resumed s) : WellFormed s.release where
  toLawful := h.toLawful.of_eq rfl rfl rfl
  flight := by simp [PollingController.release, h.ticks]
  older := by simp [PollingController.release, h.ticks]
  single := by simp [PollingController.release, h.timeouts]
  pending := by simp [PollingController.release, h.timeouts]

theorem Resumed.finish (h : Resumed s) : WellFormed (s.finish run) := by
  unfold PollingController.finish
  split
  · next hcurrent =>
      exact {
        toLawful := h.toLawful.of_eq rfl rfl rfl
        flight := by simp [PollingController.release, h.ticks]
        older := by simp [PollingController.release, h.ticks]
        single := by simp [h.timeouts]
        pending := by simp [h.timeouts, hcurrent.1, hcurrent.2, PollingController.release] }
  · exact h.release

theorem Resumed.suspend (h : Resumed s) (hrun : run ≤ s.generation) :
    WellFormed (s.suspend run point) where
  toLawful := h.toLawful.of_eq rfl rfl rfl
  flight := by simp [PollingController.suspend, h.ticks, h.inFlight]
  older := by simp [PollingController.suspend, h.ticks, hrun]
  single := by simp [PollingController.suspend, h.timeouts]
  pending := by simp [PollingController.suspend, h.timeouts]

theorem Resumed.log (h : Resumed s) (hlawful : Lawful (s.log event)) : Resumed (s.log event) :=
  ⟨hlawful, h.inFlight, h.ticks, h.timeouts⟩

theorem Resumed.loaded (h : Resumed s) {value : T} : WellFormed (s.loaded run value) := by
  unfold PollingController.loaded
  split
  · exact h.release
  · next hcurrent =>
      obtain ⟨hactive, rfl⟩ : s.active = true ∧ run = s.generation := by simpa using hcurrent
      exact (h.log (h.toLawful.call hactive rfl rfl)).suspend (Nat.le_refl _)

theorem Resumed.failed (h : Resumed s) : WellFormed (s.failed run) := by
  unfold PollingController.failed
  split
  · next hcurrent =>
      obtain ⟨hactive, rfl⟩ := hcurrent
      exact (h.log (h.toLawful.call hactive rfl rfl)).suspend (Nat.le_refl _)
  · exact h.finish

theorem Resumed.handled (h : Resumed s) {value : T} :
    WellFormed (s.handled isTerminal run value) := by
  unfold PollingController.handled
  split
  · exact h.stop.release
  · exact h.finish
  · exact h.failed

theorem Resumed.resume (h : Resumed s) {tick : Tick T} {outcome : Settlement T}
    (hresume : s.resume isTerminal tick outcome = some t) : WellFormed t := by
  obtain ⟨run, point⟩ := tick
  cases point <;> cases outcome <;> simp only [PollingController.resume, Option.some.injEq,
    reduceCtorEq] at hresume <;> subst hresume
  case loading.resolved value => exact h.loaded
  case loading.rejected => exact h.failed
  case handling.returned value => exact h.handled
  case handling.rejected value => exact h.failed
  case reporting.returned => exact h.finish
  case reporting.rejected =>
    obtain ⟨⟨hcurrent, hcalls, hloads⟩, hflight, holder, hsingle, hpending⟩ := h.release
    refine ⟨⟨?_, ?_, ?_⟩, hflight, holder, hsingle, hpending⟩
    · show currentRun (s.events ++ [_]) = _
      rw [currentRun_concat]
      exact hcurrent
    · exact hcalls.concat fun run hrun => by simp [PollEvent.callRun] at hrun
    · simpa [PollingController.log] using hloads

/-! ### Steps -/

theorem WellFormed.tick (h : WellFormed s) (htimeouts : s.timeouts = []) :
    WellFormed (s.tick run) := by
  unfold PollingController.tick
  split
  · exact h
  · next hcurrent =>
      obtain ⟨hactive, rfl, hinFlight⟩ :
          s.active = true ∧ run = s.generation ∧ s.inFlight = false := by simpa using hcurrent
      have hticks : s.ticks = [] := by simpa [hinFlight] using h.flight
      exact {
        toLawful := Lawful.call (h.toLawful.of_eq rfl rfl rfl) hactive rfl rfl
        flight := by simp [log, hticks]
        older := by simp [log, hticks]
        single := by simp [log, htimeouts]
        pending := by simp [log, htimeouts] }

theorem WellFormed.stop (h : WellFormed s) : WellFormed s.stop where
  toLawful := h.toLawful.stop
  flight := h.flight
  older := fun tick htick => Nat.le_succ_of_le (h.older tick htick)
  single := by simp [h.timeouts_stop]
  pending := by simp [h.timeouts_stop]

theorem WellFormed.activated (h : WellFormed s) (htimeouts : s.timeouts = []) :
    WellFormed (log { s with active := true } (.started s.generation)) where
  current := by simp [log, PollEvent.runAfter]
  calls := h.calls.concat fun run hrun => by simp [PollEvent.callRun] at hrun
  loads := by simpa [log] using h.loads
  flight := h.flight
  older := h.older
  single := h.single
  pending := by simp [log, htimeouts]

theorem WellFormed.start (h : WellFormed s) : WellFormed s.start :=
  (h.stop.activated h.timeouts_stop).tick h.timeouts_stop

/-- The only suspended call, when one goes on. -/
theorem WellFormed.ticks_eq (h : WellFormed s) {index : Nat} {tick : Tick T}
    (hindex : s.ticks[index]? = some tick) : index = 0 ∧ s.ticks = [tick] ∧ s.inFlight = true := by
  obtain ⟨hlt, hget⟩ := List.getElem?_eq_some_iff.1 hindex
  have hflight := h.flight
  cases hin : s.inFlight with
  | false => simp [hin] at hflight; simp [hflight] at hlt
  | true =>
      obtain ⟨only, honly⟩ := List.length_eq_one_iff.1 (by simpa [hin] using hflight)
      obtain rfl : index = 0 := by simp [honly] at hlt; exact hlt
      simp only [honly, List.getElem_cons_zero] at hget
      exact ⟨rfl, by rw [honly, hget], rfl⟩

theorem WellFormed.resumed (h : WellFormed s) {index : Nat} {tick : Tick T}
    (hindex : s.ticks[index]? = some tick) :
    Resumed { s with ticks := s.ticks.eraseIdx index } := by
  obtain ⟨rfl, hticks, hinFlight⟩ := h.ticks_eq hindex
  refine ⟨h.toLawful.of_eq rfl rfl rfl, hinFlight, by simp [hticks], ?_⟩
  refine List.eq_nil_iff_forall_not_mem.2 fun entry hentry => ?_
  exact absurd hinFlight (by simp [(h.pending entry hentry).2.2.2])

/-- The only pending timeout, when it fires. -/
theorem WellFormed.timeouts_eq (h : WellFormed s) {handle : Nat}
    (hhandle : s.timeouts.lookup handle = some run) :
    s.timeouts = [(handle, run)] ∧ run = s.generation ∧ s.active = true ∧ s.inFlight = false := by
  obtain ⟨before, after, hsplit, -⟩ := List.lookup_eq_some_iff.1 hhandle
  have hmem : (handle, run) ∈ s.timeouts := by simp [hsplit]
  obtain ⟨-, hrun, hactive, hinFlight⟩ := h.pending _ hmem
  refine ⟨?_, hrun, hactive, hinFlight⟩
  obtain ⟨entry, hentry⟩ : ∃ entry, s.timeouts = [entry] :=
    List.length_eq_one_iff.1 (Nat.le_antisymm h.single (List.length_pos_of_mem hmem))
  rw [hentry, List.mem_singleton] at hmem
  rw [hentry, hmem]

theorem WellFormed.fired (h : WellFormed s) {handle : Nat}
    (hhandle : s.timeouts.lookup handle = some run) :
    WellFormed { s with timeouts := s.timeouts.filter fun entry => entry.1 ≠ handle } := by
  obtain ⟨htimeouts, -⟩ := h.timeouts_eq hhandle
  exact {
    toLawful := h.toLawful.of_eq rfl rfl rfl
    flight := h.flight
    older := h.older
    single := by simp [htimeouts]
    pending := by simp [htimeouts] }

theorem WellFormed.step {action : PollAction T} (h : WellFormed s)
    (hstep : s.next isTerminal action = some t) : WellFormed t := by
  cases action with
  | start =>
      obtain rfl : s.start = t := Option.some.inj hstep
      exact h.start
  | stop =>
      obtain rfl : s.stop = t := Option.some.inj hstep
      exact h.stop
  | timeout handle =>
      obtain ⟨run, hhandle, rfl⟩ := Option.map_eq_some_iff.1 hstep
      refine (h.fired hhandle).tick ?_
      simp [(h.timeouts_eq hhandle).1]
  | settle index outcome =>
      obtain ⟨tick, hindex, hresume⟩ := Option.bind_eq_some_iff.1 hstep
      exact (h.resumed hindex).resume hresume

theorem wellFormed_initial : WellFormed (initial : PollingController T) where
  current := rfl
  calls := callsAreCurrent_nil
  loads := by simp [initial]
  flight := rfl
  older := by simp [initial]
  single := by simp [initial]
  pending := by simp [initial]

theorem wellFormed_of_reachable (h : (system isTerminal).Reachable System.Any s) :
    WellFormed s :=
  h.invariant (by rintro _ rfl; exact wellFormed_initial) fun _ _ _ hs _ hstep => hs.step hstep

/-- In every reachable state at most one call of `tick` is suspended and at most one timeout is
pending, the latter only for the active run while no call is suspended; and each call of the loader
or of a callback so far was made for the run that was active then. -/
theorem callbacks_of_current_run (h : (system isTerminal).Reachable System.Any s) :
    s.ticks.length ≤ 1 ∧ s.timeouts.length ≤ 1 ∧
      (∀ entry ∈ s.timeouts, s.active = true ∧ entry.2 = s.generation ∧ s.ticks = []) ∧
      CallsAreCurrent s.events := by
  have hs := wellFormed_of_reachable h
  refine ⟨?_, hs.single, fun entry hentry => ?_, hs.calls⟩
  · rw [hs.flight]
    split <;> omega
  · obtain ⟨-, hrun, hactive, hinFlight⟩ := hs.pending entry hentry
    exact ⟨hactive, hrun, by simpa [hinFlight] using hs.flight⟩

/-- A loader of numbers, with `0` terminal. -/
def zeroIsTerminal (value : Nat) : Option Bool := some (value == 0)

/-- A first load is answered and handed to `onData`. -/
def answered : PollingController Nat :=
  ({ (initial : PollingController Nat).start with ticks := [] }).loaded 1 3

theorem answered_reachable : (system zeroIsTerminal).Reachable System.Any answered :=
  System.Reachable.foldlM (fun _ _ _ hnext => hnext)
    (System.Reachable.of_init rfl) (show [.start, .settle 0 (.resolved 3)].foldlM
      (PollingController.next zeroIsTerminal) initial = some answered from rfl)

theorem callbacks_of_current_run_answered :
    answered.ticks.length ≤ 1 ∧ answered.timeouts.length ≤ 1 ∧
      (∀ entry ∈ answered.timeouts,
        answered.active = true ∧ entry.2 = answered.generation ∧ answered.ticks = []) ∧
      CallsAreCurrent answered.events :=
  callbacks_of_current_run answered_reachable

/-! ## Served runs -/

/-- No `start` or `stop` is called, and `onError` does not throw. -/
def Undisturbed (s : PollingController T) : PollAction T → Prop
  | .start => False
  | .stop => False
  | .timeout _ => True
  | .settle index outcome => ∀ tick, s.ticks[index]? = some tick → tick.point = .reporting →
      outcome ≠ .rejected

/-- A run is active, and a call of `tick` or a timeout for it is pending. -/
def Serves (run : Nat) (s : PollingController T) : Prop :=
  s.active = true ∧ s.generation = run ∧
    ((∃ tick ∈ s.ticks, tick.run = run) ∨ ∃ entry ∈ s.timeouts, entry.2 = run)

/-- A run was stopped by a terminal value that it handed to `onData`. -/
def EndedBy (isTerminal : T → Option Bool) (run : Nat) (s : PollingController T) : Prop :=
  s.active = false ∧ ∃ value, .dataGiven run value ∈ s.events ∧ isTerminal value = some true

/-- A run in progress, with all that is pending its own. -/
structure InProgress (run : Nat) (s : PollingController T) : Prop where
  active : s.active = true
  generation : s.generation = run
  own : ∀ tick ∈ s.ticks, tick.run = run
  given : ∀ tick ∈ s.ticks, ∀ value, tick.point = .handling value →
    .dataGiven run value ∈ s.events
  pending : s.ticks ≠ [] ∨ s.timeouts ≠ []

/-- Nothing is pending after the end of a run. -/
structure Over (isTerminal : T → Option Bool) (run : Nat) (s : PollingController T) : Prop where
  ended : EndedBy isTerminal run s
  ticks : s.ticks = []
  timeouts : s.timeouts = []

theorem InProgress.serves (h : InProgress run s) (hs : WellFormed s) : Serves run s := by
  refine ⟨h.active, h.generation, ?_⟩
  rcases h.pending with hticks | htimeouts
  · obtain ⟨tick, htick⟩ := List.exists_mem_of_ne_nil _ hticks
    exact .inl ⟨tick, htick, h.own tick htick⟩
  · obtain ⟨entry, hentry⟩ := List.exists_mem_of_ne_nil _ htimeouts
    exact .inr ⟨entry, hentry, (hs.pending entry hentry).2.1.trans h.generation⟩

/-- The run while its only call of `tick` goes on. -/
structure Resuming (run : Nat) (s : PollingController T) : Prop where
  active : s.active = true
  generation : s.generation = run
  ticks : s.ticks = []
  timeouts : s.timeouts = []

theorem Resuming.finish (h : Resuming run s) : InProgress run (s.finish run) := by
  rw [PollingController.finish, if_pos ⟨h.active, h.generation.symm⟩]
  exact {
    active := h.active
    generation := h.generation
    own := by simp [PollingController.release, h.ticks]
    given := by simp [PollingController.release, h.ticks]
    pending := .inr (by simp) }

theorem Resuming.suspend (h : Resuming run s)
    (hgiven : ∀ value, point = .handling value → .dataGiven run value ∈ s.events) :
    InProgress run (s.suspend run point) where
  active := h.active
  generation := h.generation
  own := by simp [PollingController.suspend, h.ticks]
  given := by simpa [PollingController.suspend, h.ticks] using hgiven
  pending := .inl (by simp [PollingController.suspend])

theorem Resuming.log (h : Resuming run s) : Resuming run (s.log event) :=
  ⟨h.active, h.generation, h.ticks, h.timeouts⟩

theorem Resuming.loaded (h : Resuming run s) {value : T} :
    InProgress run (s.loaded run value) := by
  rw [PollingController.loaded, if_neg (by simp [h.active, h.generation])]
  refine h.log.suspend fun other hother => ?_
  obtain rfl : value = other := by simpa using hother
  simp [PollingController.log]

theorem Resuming.failed (h : Resuming run s) : InProgress run (s.failed run) := by
  rw [PollingController.failed, if_pos ⟨h.active, h.generation.symm⟩]
  exact h.log.suspend (by simp)

theorem Resuming.handled (h : Resuming run s) {value : T}
    (hgiven : .dataGiven run value ∈ s.events) :
    InProgress run (s.handled isTerminal run value) ∨
      Over isTerminal run (s.handled isTerminal run value) := by
  unfold PollingController.handled
  split
  · next hterminal =>
      refine .inr ⟨⟨rfl, value, ?_, hterminal⟩, h.ticks, ?_⟩
      · simp [PollingController.release, PollingController.stop, PollingController.log, clearTimer,
          hgiven]
      · simp [PollingController.release, PollingController.stop, PollingController.log, clearTimer,
          h.timeouts]
  · exact .inl h.finish
  · exact .inl h.failed

theorem Resuming.resume (h : Resuming run s) {outcome : Settlement T}
    (hgiven : ∀ value, point = .handling value → .dataGiven run value ∈ s.events)
    (hundisturbed : point = .reporting → outcome ≠ .rejected)
    (hresume : s.resume isTerminal ⟨run, point⟩ outcome = some t) :
    InProgress run t ∨ Over isTerminal run t := by
  cases point <;> cases outcome <;> simp only [PollingController.resume, Option.some.injEq,
    reduceCtorEq] at hresume <;> subst hresume
  case loading.resolved value => exact .inl h.loaded
  case loading.rejected => exact .inl h.failed
  case handling.returned value => exact h.handled (hgiven value rfl)
  case handling.rejected value => exact .inl h.failed
  case reporting.returned => exact .inl h.finish
  case reporting.rejected => exact absurd rfl (hundisturbed rfl)

theorem InProgress.step {action : PollAction T} (h : InProgress run s) (hs : WellFormed s)
    (hundisturbed : Undisturbed s action) (hstep : s.next isTerminal action = some t) :
    InProgress run t ∨ Over isTerminal run t := by
  cases action with
  | start => exact hundisturbed.elim
  | stop => exact hundisturbed.elim
  | timeout handle =>
      -- the timeout of the run loads again
      obtain ⟨fired, hhandle, rfl⟩ := Option.map_eq_some_iff.1 hstep
      obtain ⟨htimeouts, rfl, -, hinFlight⟩ := hs.timeouts_eq hhandle
      have hticks : s.ticks = [] := by simpa [hinFlight] using hs.flight
      left
      rw [PollingController.tick, if_neg (by simp [h.active, hinFlight])]
      exact {
        active := h.active
        generation := h.generation
        own := by simp [PollingController.log, hticks, h.generation]
        given := by simp [PollingController.log, hticks]
        pending := .inl (by simp [PollingController.log]) }
  | settle index outcome =>
      obtain ⟨⟨owner, point⟩, hindex, hresume⟩ := Option.bind_eq_some_iff.1 hstep
      have hmem : ⟨owner, point⟩ ∈ s.ticks := List.mem_of_getElem? hindex
      obtain rfl : owner = run := h.own _ hmem
      have hresumed := hs.resumed hindex
      have hresuming : Resuming owner { s with ticks := s.ticks.eraseIdx index } :=
        ⟨h.active, h.generation, hresumed.ticks, hresumed.timeouts⟩
      exact hresuming.resume (h.given _ hmem) (hundisturbed _ hindex) hresume

theorem Over.step {action : PollAction T} (h : Over isTerminal run s)
    (hundisturbed : Undisturbed s action) (hstep : s.next isTerminal action = some t) :
    Over isTerminal run t := by
  cases action with
  | start => exact hundisturbed.elim
  | stop => exact hundisturbed.elim
  | timeout handle => simp [next, h.timeouts] at hstep
  | settle index outcome => simp [next, h.ticks] at hstep

theorem WellFormed.start_inProgress (h : WellFormed s) (hinFlight : s.inFlight = false) :
    InProgress s.start.generation s.start := by
  have hticks : s.ticks = [] := by simpa [hinFlight] using h.flight
  have hstart : s.start = _ := if_neg (by
    simp [PollingController.stop, PollingController.log, clearTimer, hinFlight])
  rw [hstart]
  exact {
    active := rfl
    generation := rfl
    own := by simp [PollingController.stop, PollingController.log, clearTimer, hticks]
    given := by simp [PollingController.stop, PollingController.log, clearTimer, hticks]
    pending := .inl (by simp [PollingController.log]) }

theorem InProgress.steps (hs : WellFormed s) (h : InProgress run s)
    (hsteps : (system isTerminal).Steps Undisturbed s t) :
    WellFormed t ∧ (InProgress run t ∨ Over isTerminal run t) := by
  refine hsteps.preserves (P := fun u => WellFormed u ∧ (InProgress run u ∨ Over isTerminal run u))
    ?_ ⟨hs, .inl h⟩
  rintro u action v ⟨hu, hrun⟩ hundisturbed hstep
  refine ⟨hu.step hstep, ?_⟩
  rcases hrun with hprogress | hover
  · exact hprogress.step hu hundisturbed hstep
  · exact .inr (hover.step hundisturbed hstep)

/-! ## Runs that never load -/

/-- A run that nothing pending belongs to, and that has not loaded. -/
structure Stalled (run : Nat) (s : PollingController T) : Prop where
  passed : run ≤ s.generation
  ticks : ∀ tick ∈ s.ticks, tick.run ≠ run
  timeouts : ∀ entry ∈ s.timeouts, entry.2 ≠ run
  loads : .loadCalled run ∉ s.events

section Stalls

variable {other : Nat}

theorem Stalled.log (h : Stalled run s) (hevent : event ≠ .loadCalled run) :
    Stalled run (s.log event) :=
  ⟨h.passed, h.ticks, h.timeouts, by simp [PollingController.log, h.loads, hevent.symm]⟩

theorem Stalled.stop (h : Stalled run s) : Stalled run s.stop where
  passed := Nat.le_succ_of_le h.passed
  ticks := h.ticks
  timeouts := fun entry hentry => h.timeouts entry ((List.mem_filter.1 hentry).1)
  loads := by simpa [PollingController.stop, PollingController.log, clearTimer] using h.loads

theorem Stalled.release (h : Stalled run s) : Stalled run s.release :=
  ⟨h.passed, h.ticks, h.timeouts, h.loads⟩

theorem Stalled.suspend (h : Stalled run s) (hother : other ≠ run) :
    Stalled run (s.suspend other point) where
  passed := h.passed
  ticks := by simpa [PollingController.suspend, or_imp, forall_and, hother] using h.ticks
  timeouts := h.timeouts
  loads := h.loads

theorem Stalled.tick (h : Stalled run s) (hother : other ≠ run) : Stalled run (s.tick other) := by
  unfold PollingController.tick
  split
  · exact h
  · have hloading : Stalled run
        { s with inFlight := true, ticks := s.ticks ++ [⟨other, .loading⟩] } :=
      ⟨h.passed, (h.suspend hother).ticks, h.timeouts, h.loads⟩
    exact hloading.log (by simpa using hother)

theorem Stalled.finish (h : Stalled run s) (hother : other ≠ run) :
    Stalled run (s.finish other) := by
  unfold PollingController.finish
  split
  · exact ⟨h.passed, h.ticks, by
      simpa [or_imp, forall_and, hother] using h.timeouts, h.loads⟩
  · exact h.release

theorem Stalled.loaded (h : Stalled run s) (hother : other ≠ run) {value : T} :
    Stalled run (s.loaded other value) := by
  unfold PollingController.loaded
  split
  · exact h.release
  · exact (h.log (by simp)).suspend hother

theorem Stalled.failed (h : Stalled run s) (hother : other ≠ run) :
    Stalled run (s.failed other) := by
  unfold PollingController.failed
  split
  · exact (h.log (by simp)).suspend hother
  · exact h.finish hother

theorem Stalled.handled (h : Stalled run s) (hother : other ≠ run) {value : T} :
    Stalled run (s.handled isTerminal other value) := by
  unfold PollingController.handled
  split
  · exact h.stop.release
  · exact h.finish hother
  · exact h.failed hother

theorem Stalled.resume (h : Stalled run s) (hother : other ≠ run) {outcome : Settlement T}
    (hresume : s.resume isTerminal ⟨other, point⟩ outcome = some t) : Stalled run t := by
  cases point <;> cases outcome <;> simp only [PollingController.resume, Option.some.injEq,
    reduceCtorEq] at hresume <;> subst hresume
  case loading.resolved value => exact h.loaded hother
  case loading.rejected => exact h.failed hother
  case handling.returned value => exact h.handled hother
  case handling.rejected value => exact h.failed hother
  case reporting.returned => exact h.finish hother
  case reporting.rejected => exact h.release.log (by simp)

theorem Stalled.step {action : PollAction T} (h : Stalled run s)
    (hstep : s.next isTerminal action = some t) : Stalled run t := by
  cases action with
  | start =>
      obtain rfl : s.start = t := Option.some.inj hstep
      -- the run that starts now is a later one
      have hlater : s.stop.generation ≠ run := Nat.ne_of_gt (Nat.lt_succ_of_le h.passed)
      have hactive : Stalled run { s.stop with active := true } :=
        ⟨h.stop.passed, h.stop.ticks, h.stop.timeouts, h.stop.loads⟩
      exact (hactive.log (by simp)).tick hlater
  | stop =>
      obtain rfl : s.stop = t := Option.some.inj hstep
      exact h.stop
  | timeout handle =>
      obtain ⟨fired, hhandle, rfl⟩ := Option.map_eq_some_iff.1 hstep
      obtain ⟨before, after, hsplit, -⟩ := List.lookup_eq_some_iff.1 hhandle
      have hfired : fired ≠ run := h.timeouts (handle, fired) (by simp [hsplit])
      refine Stalled.tick ⟨h.passed, h.ticks, fun entry hentry => ?_, h.loads⟩ hfired
      exact h.timeouts entry ((List.mem_filter.1 hentry).1)
  | settle index outcome =>
      obtain ⟨⟨owner, point⟩, hindex, hresume⟩ := Option.bind_eq_some_iff.1 hstep
      have hother : owner ≠ run := h.ticks _ (List.mem_of_getElem? hindex)
      refine Stalled.resume (s := { s with ticks := s.ticks.eraseIdx index })
        ⟨h.passed, fun tick htick => ?_, h.timeouts, h.loads⟩ hother hresume
      exact h.ticks tick (List.mem_of_mem_eraseIdx htick)

theorem WellFormed.start_stalled (h : WellFormed s) (hinFlight : s.inFlight = true) :
    Stalled s.start.generation s.start := by
  have hstart : s.start = _ := if_pos (by
    simp [PollingController.stop, PollingController.log, clearTimer, hinFlight])
  rw [hstart]
  exact {
    passed := Nat.le_refl _
    ticks := fun tick htick => Nat.ne_of_lt (Nat.lt_succ_of_le (h.older tick htick))
    timeouts := by simp [PollingController.log, h.timeouts_stop]
    loads := by
      intro hload
      have hold : .loadCalled (s.generation + 1) ∈ s.events := by
        simpa [PollingController.stop, PollingController.log, clearTimer] using hload
      exact absurd (h.loads _ hold) (by omega) }

end Stalls

/-- A run that starts while no call of `tick` is suspended is served in every later state, until a
terminal value of its own stops it; a run that starts while one is suspended never calls the
loader, whatever happens afterwards. -/
theorem start_is_served_unless_inFlight (h : (system isTerminal).Reachable System.Any s) :
    (s.inFlight = false → ∀ t, (system isTerminal).Steps Undisturbed s.start t →
      Serves s.start.generation t ∨ EndedBy isTerminal s.start.generation t) ∧
    (s.inFlight = true → ∀ t, (system isTerminal).Steps System.Any s.start t →
      .loadCalled s.start.generation ∉ t.events) := by
  have hs := wellFormed_of_reachable h
  refine ⟨fun hinFlight t hsteps => ?_, fun hinFlight t hsteps => ?_⟩
  · obtain ⟨ht, hprogress | hover⟩ := (hs.start_inProgress hinFlight).steps hs.start hsteps
    · exact .inl (hprogress.serves ht)
    · exact .inr hover.ended
  · have ht : Stalled s.start.generation t :=
      hsteps.preserves (fun _ _ _ hu _ hstep => hu.step hstep) (hs.start_stalled hinFlight)
    exact ht.loads

/-- The first answer is handled, and the next load is scheduled. -/
def scheduled : PollingController Nat :=
  { answered with ticks := [] }.handled zeroIsTerminal 1 3

/-- The first run is served; a second `start` while the answer is handled gives a run that never
loads. -/
theorem start_is_served_unless_inFlight_answered :
    ((system zeroIsTerminal).Steps Undisturbed (initial : PollingController Nat).start scheduled ∧
      (Serves 1 scheduled ∨ EndedBy zeroIsTerminal 1 scheduled)) ∧
    answered.inFlight = true ∧
      ∀ t, (system zeroIsTerminal).Steps System.Any answered.start t → .loadCalled 2 ∉ t.events := by
  have hundisturbed : Undisturbed (initial : PollingController Nat).start
      (.settle 0 (.resolved 3)) := fun _ _ _ => nofun
  have hreturned : Undisturbed answered (.settle 0 .returned) := fun _ _ _ => nofun
  have hscheduled : (system zeroIsTerminal).Steps Undisturbed
      (initial : PollingController Nat).start scheduled :=
    (System.Steps.single hundisturbed rfl).tail hreturned rfl
  refine ⟨⟨hscheduled, ?_⟩, rfl, (start_is_served_unless_inFlight answered_reachable).2 rfl⟩
  exact (start_is_served_unless_inFlight (System.Reachable.of_init rfl)).1 rfl scheduled hscheduled

end Invariant

end PollingController

end WheelForge.Frontend
