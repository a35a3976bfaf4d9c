import WheelForge.Transition.System
import WheelForge.Worker.Pipeline

/-!
# The heartbeat thread

`_during_lease` runs an operation in the `with` statement of a `LeaseHeartbeat`, whose thread renews
the lease meanwhile. The two threads share the stop event and the recorded failure; every access to
them is one step, and the steps of the threads interleave in any order. The wait of the thread and
the answers of `heartbeat` are arbitrary.

When the statement ends with a value, the thread has ended and no renewal has failed
(`value_after_ended_thread`). However it ends, it does what `duringLease` does with one answer of
`stopHeartbeat`, and a failure of the thread is not lost (`withHeartbeat_refines_duringLease`).
-/

set_option autoImplicit false

namespace WheelForge.Worker

open WheelForge.Interaction (Program)
open WheelForge.Jobs (JobLease)
open WheelForge.Transition

variable {α : Type}

/-! ## The threads -/

/-- An exception object; `is` compares the objects. -/
structure RaisedObject where
  object : Nat
  error : PyError

/-- The object that the thread records. -/
def threadObject : Nat := 0

/-- The object that `stop` records. -/
def lifecycleObject : Nat := 1

def lifecycleError : PyError := .single .runtime "lease heartbeat thread did not stop"

def lostLeaseError : PyError := .single .lostLease "job lease expired during stage execution"

/-- Where `_run` is. -/
inductive HeartbeatThread where
  | notStarted
  /-- in `self._wait` -/
  | waiting
  /-- before `self._repository.heartbeat` -/
  | beating
  /-- in the handler, before the failure is recorded -/
  | recording (error : PyError)
  /-- in the handler, before the event is set -/
  | stopping
  | ended

/-- Where the `with` statement of `_during_lease` is. From `exiting` on it carries how its body
ended. -/
inductive WithStatement (α : Type) where
  | entering
  | operating
  /-- before `heartbeat.check()` -/
  | checking (value : α)
  /-- in `__exit__`, before the event is set -/
  | exiting (body : Except RaisedObject α)
  /-- in `join` -/
  | joining (body : Except RaisedObject α)
  /-- `join` has timed out -/
  | asking (body : Except RaisedObject α)
  /-- the thread was alive -/
  | recording (body : Except RaisedObject α)
  /-- before `__exit__` reads the failure -/
  | reading (body : Except RaisedObject α)
  | left (outcome : Except PyError α)

structure HeartbeatState (α : Type) where
  stop : Bool
  failure : Option RaisedObject
  thread : HeartbeatThread
  main : WithStatement α
  /-- How the operation ended; the code has no such field. -/
  operated : Option (Except PyError α)
  /-- What the thread raised; the code has no such field. -/
  raised : Option PyError
  /-- The answers to `heartbeat` so far, in order; the code has no such field. -/
  beats : List (Except PyError Bool)

inductive HeartbeatAction (α : Type) where
  | start
  /-- `Thread.start` raises. -/
  | startFailed (text : String)
  | operate (result : Except RaisedObject α)
  | check
  | setStop
  | joined
  | joinTimedOut
  | askAlive
  | recordTimeout
  | leave
  /-- The thread's `_wait` answers. -/
  | waited (answer : Except PyError Bool)
  | beat (answer : Except PyError Bool)
  | recordFailure
  | stopAfterFailure

/-- The end of `__exit__`, after it has read the failure. -/
def exitOutcome : Except RaisedObject α → Option RaisedObject → Except PyError α
  | .ok value, none => .ok value
  | .error e, none => .error e.error
  | .ok _, some failure => .error failure.error
  | .error e, some failure =>
      if failure.object = e.object then .error e.error
      else .error (.group "stage and lease heartbeat both failed" [e.error, failure.error])

namespace HeartbeatState

def initial : HeartbeatState α := ⟨false, none, .notStarted, .entering, none, none, []⟩

/-- The exception of the thread, on its way to the handler. -/
def fail (s : HeartbeatState α) (e : PyError) : HeartbeatState α :=
  { s with thread := .recording e, raised := some e }

/-- A step of `_run`. -/
def nextThread (s : HeartbeatState α) :
    HeartbeatThread → HeartbeatAction α → Option (HeartbeatState α)
  | .waiting, .waited (.ok true) => some { s with thread := .ended }
  | .waiting, .waited (.ok false) => some { s with thread := .beating }
  | .waiting, .waited (.error e) => some (s.fail e)
  | .beating, .beat answer =>
      let s := { s with beats := s.beats ++ [answer] }
      match answer with
      | .ok true => some { s with thread := .waiting }
      | .ok false => some (s.fail lostLeaseError)
      | .error e => some (s.fail e)
  | .recording e, .recordFailure =>
      some { s with failure := some ⟨threadObject, e⟩, thread := .stopping }
  | .stopping, .stopAfterFailure => some { s with stop := true, thread := .ended }
  | _, _ => none

/-- A step of the `with` statement. -/
def nextMain (s : HeartbeatState α) :
    WithStatement α → HeartbeatAction α → Option (HeartbeatState α)
  | .entering, .start => some { s with thread := .waiting, main := .operating }
  | .entering, .startFailed text =>
      some { s with main := .left (.error (.single .runtime text)) }
  | .operating, .operate (.ok value) =>
      some { s with main := .checking value, operated := some (.ok value) }
  | .operating, .operate (.error e) =>
      -- the operation cannot see the objects that the heartbeat records
      if e.object = threadObject ∨ e.object = lifecycleObject then none
      else some { s with main := .exiting (.error e), operated := some (.error e.error) }
  | .checking value, .check =>
      match s.failure with
      | none => some { s with main := .exiting (.ok value) }
      | some failure => some { s with main := .exiting (.error failure) }
  | .exiting body, .setStop => some { s with stop := true, main := .joining body }
  | .joining body, .joined =>
      match s.thread with
      | .ended => some { s with main := .reading body }
      | _ => none
  | .joining body, .joinTimedOut => some { s with main := .asking body }
  | .asking body, .askAlive =>
      match s.thread with
      | .ended => some { s with main := .reading body }
      | _ => some { s with main := .recording body }
  | .recording body, .recordTimeout =>
      some { s with
        failure := some (s.failure.getD ⟨lifecycleObject, lifecycleError⟩)
        main := .reading body }
  | .reading body, .leave => some { s with main := .left (exitOutcome body s.failure) }
  | _, _ => none

/-- A step of the thread, or else of the `with` statement. -/
def next (s : HeartbeatState α) (a : HeartbeatAction α) : Option (HeartbeatState α) :=
  match s.nextThread s.thread a with
  | some t => some t
  | none => s.nextMain s.main a

/-- The steps of both threads. -/
def system : System (HeartbeatState α) (HeartbeatAction α) where
  init s := s = initial
  step s a t := s.nextThread s.thread a = some t ∨ s.nextMain s.main a = some t

theorem reachable_of_run {s : HeartbeatState α} (actions : List (HeartbeatAction α))
    (h : actions.foldlM next initial = some s) : system.Reachable System.Any s := by
  refine System.Reachable.foldlM (fun s a t hnext => ?_) (System.Reachable.of_init rfl) h
  unfold next at hnext
  split at hnext
  · next u hu => exact .inl (hu.trans hnext)
  · exact .inr hnext

end HeartbeatState

/-! ## Invariant -/

/-- The failure is not recorded by the thread. -/
def Unfailed (failure : Option RaisedObject) : Prop :=
  failure = none ∨ failure = some ⟨lifecycleObject, lifecycleError⟩

/-- The failure is what the thread raised. -/
def Failed (failure : Option RaisedObject) (raised : Option PyError) : Prop :=
  ∃ e, raised = some e ∧ failure = some ⟨threadObject, e⟩

/-- What the thread has raised and recorded by then. -/
def ThreadOk (failure : Option RaisedObject) (raised : Option PyError) : HeartbeatThread → Prop
  | .recording e => raised = some e ∧ Unfailed failure
  | .stopping => Failed failure raised
  | .ended => raised = none ∧ Unfailed failure ∨ Failed failure raised
  | _ => raised = none ∧ Unfailed failure

/-- How the body of the statement ended, by what the operation did. -/
def BodyOk (failure : Option RaisedObject) (operated : Option (Except PyError α)) :
    Except RaisedObject α → Prop
  | .ok value => operated = some (.ok value)
  | .error e =>
      operated = some (.error e.error) ∧ e.object ≠ threadObject ∧ e.object ≠ lifecycleObject ∨
        (∃ value, operated = some (.ok value)) ∧ e.object = threadObject ∧ failure = some e

/-- The end of `duringLease`. -/
def duringLeaseResult : Except PyError α → Option PyError → Except PyError α
  | .ok value, none => .ok value
  | .ok _, some failure => .error failure
  | .error error, none => .error error
  | .error error, some failure =>
      .error (.group "stage and lease heartbeat both failed" [error, failure])

/-- The failure that `__exit__` has read. -/
def ReadOk (s : HeartbeatState α) (answer : Option PyError) : Prop :=
  answer = none ∧ s.thread = .ended ∧ s.failure = none ∨ answer = some lifecycleError ∨
    ∃ e, answer = some e ∧ s.failure = some ⟨threadObject, e⟩

/-- No time-out is recorded. -/
def Unrecorded (failure : Option RaisedObject) : Prop :=
  ∀ f, failure = some f → f.object = threadObject

def MainOk (s : HeartbeatState α) : WithStatement α → Prop
  | .entering => s.thread = .notStarted ∧ s.failure = none ∧ s.operated = none
  | .operating => Unrecorded s.failure ∧ s.operated = none
  | .checking value => Unrecorded s.failure ∧ s.operated = some (.ok value)
  | .exiting body | .joining body | .asking body | .recording body =>
      Unrecorded s.failure ∧ BodyOk s.failure s.operated body
  | .reading body =>
      BodyOk s.failure s.operated body ∧ (s.failure = none → s.thread = .ended)
  | .left outcome =>
      (s.operated = none ∧ ∃ e, outcome = .error e) ∨
        ∃ result answer, s.operated = some result ∧ outcome = duringLeaseResult result answer ∧
          ReadOk s answer

/-- The lease was renewed by every answer. -/
def AllRenewed (beats : List (Except PyError Bool)) : Prop := ∀ answer ∈ beats, answer = .ok true

structure Coherent (s : HeartbeatState α) : Prop where
  thread : ThreadOk s.failure s.raised s.thread
  main : MainOk s s.main
  healthy : s.raised = none → AllRenewed s.beats
  /-- The thread makes no call after one that failed. -/
  last : AllRenewed s.beats.dropLast

section Invariant

variable {s t : HeartbeatState α} {failure failure' : Option RaisedObject} {raised : Option PyError}
  {operated : Option (Except PyError α)} {body : Except RaisedObject α}
  {action : HeartbeatAction α}

/-- The thread is between its start and its end. -/
def HeartbeatThread.Runs (thread : HeartbeatThread) : Prop :=
  thread ≠ .notStarted ∧ thread ≠ .ended

/-- A change of the failure by the thread. -/
def Recorded (failure failure' : Option RaisedObject) : Prop :=
  failure' = failure ∨ Unfailed failure ∧ ∃ e, failure' = some ⟨threadObject, e⟩

theorem Unfailed.object_ne (h : Unfailed failure) {f : RaisedObject} (hf : failure = some f) :
    f.object ≠ threadObject := by
  rcases h with hnone | hlifecycle
  · exact absurd (hnone.symm.trans hf) nofun
  · obtain rfl : (⟨lifecycleObject, lifecycleError⟩ : RaisedObject) = f :=
      Option.some.inj (hlifecycle.symm.trans hf)
    exact Nat.one_ne_zero

theorem Unrecorded.frame (h : Unrecorded failure) (hfailure : Recorded failure failure') :
    Unrecorded failure' := by
  intro f hf
  rcases hfailure with rfl | ⟨-, e, rfl⟩
  · exact h f hf
  · obtain rfl := Option.some.inj hf
    rfl

theorem BodyOk.frame (h : BodyOk failure operated body) (hfailure : Recorded failure failure') :
    BodyOk failure' operated body := by
  cases body with
  | ok value => exact h
  | error e =>
      rcases h with hown | ⟨hvalue, hobject, hrecorded⟩
      · exact .inl hown
      · rcases hfailure with rfl | ⟨hunfailed, -⟩
        · exact .inr ⟨hvalue, hobject, hrecorded⟩
        · exact absurd hobject (hunfailed.object_ne hrecorded)

theorem ReadOk.frame {answer : Option PyError} (h : ReadOk s answer) (hruns : s.thread.Runs)
    (hfailure : Recorded s.failure t.failure) : ReadOk t answer := by
  rcases h with ⟨-, hended, -⟩ | hlifecycle | ⟨e, hanswer, hrecorded⟩
  · exact absurd hended hruns.2
  · exact .inr (.inl hlifecycle)
  · rcases hfailure with hsame | ⟨hunfailed, -⟩
    · exact .inr (.inr ⟨e, hanswer, hsame.trans hrecorded⟩)
    · exact absurd rfl (hunfailed.object_ne hrecorded)

/-- The `with` statement after a step of the thread. -/
theorem MainOk.frame {main : WithStatement α} (h : MainOk s main) (hruns : s.thread.Runs)
    (hoperated : t.operated = s.operated) (hfailure : Recorded s.failure t.failure) :
    MainOk t main := by
  cases main with
  | entering => exact absurd h.1 hruns.1
  | operating => exact ⟨h.1.frame hfailure, hoperated.trans h.2⟩
  | checking value => exact ⟨h.1.frame hfailure, hoperated.trans h.2⟩
  | exiting body => exact ⟨h.1.frame hfailure, hoperated ▸ h.2.frame hfailure⟩
  | joining body => exact ⟨h.1.frame hfailure, hoperated ▸ h.2.frame hfailure⟩
  | asking body => exact ⟨h.1.frame hfailure, hoperated ▸ h.2.frame hfailure⟩
  | recording body => exact ⟨h.1.frame hfailure, hoperated ▸ h.2.frame hfailure⟩
  | reading body =>
      refine ⟨hoperated ▸ h.1.frame hfailure, fun hnone => ?_⟩
      -- a failure that is there stays there
      rcases hfailure with hsame | ⟨-, e, hrecorded⟩
      · exact absurd (h.2 (hsame.symm.trans hnone)) hruns.2
      · exact absurd (hrecorded.symm.trans hnone) nofun
  | left outcome =>
      rcases h with ⟨hnone, herror⟩ | ⟨result, answer, hresult, houtcome, hread⟩
      · exact .inl ⟨hoperated.trans hnone, herror⟩
      · exact .inr ⟨result, answer, hoperated.trans hresult, houtcome, hread.frame hruns hfailure⟩

theorem AllRenewed.concat {beats : List (Except PyError Bool)} (h : AllRenewed beats) :
    AllRenewed (beats ++ [.ok true]) := by
  intro answer hanswer
  rcases List.mem_append.1 hanswer with hold | hnew
  · exact h answer hold
  · exact List.mem_singleton.1 hnew

theorem AllRenewed.dropLast {beats : List (Except PyError Bool)} (h : AllRenewed beats) :
    AllRenewed beats.dropLast :=
  fun answer hanswer => h answer (List.dropLast_subset _ hanswer)

/-! ### Steps of the thread -/

theorem Coherent.nextThread (h : Coherent s)
    (hstep : s.nextThread s.thread action = some t) : Coherent t := by
  obtain ⟨hthread, hmain, hhealthy, hlast⟩ := h
  generalize hphase : s.thread = phase at hthread hstep
  unfold HeartbeatState.nextThread at hstep
  split at hstep
  · -- the wait answers that the event is set
    obtain rfl := Option.some.inj hstep
    exact ⟨.inl hthread, hmain.frame ⟨hphase ▸ nofun, hphase ▸ nofun⟩ rfl (.inl rfl), hhealthy,
      hlast⟩
  · obtain rfl := Option.some.inj hstep
    exact ⟨hthread, hmain.frame ⟨hphase ▸ nofun, hphase ▸ nofun⟩ rfl (.inl rfl), hhealthy, hlast⟩
  · obtain rfl := Option.some.inj hstep
    exact ⟨⟨rfl, hthread.2⟩, hmain.frame ⟨hphase ▸ nofun, hphase ▸ nofun⟩ rfl (.inl rfl), nofun,
      hlast⟩
  · -- a call of `heartbeat`
    have hrenewed := hhealthy hthread.1
    have hlast' : ∀ answer, AllRenewed (s.beats ++ [answer]).dropLast := by simpa using hrenewed
    split at hstep
    · obtain rfl := Option.some.inj hstep
      exact ⟨hthread, hmain.frame ⟨hphase ▸ nofun, hphase ▸ nofun⟩ rfl (.inl rfl),
        fun _ => hrenewed.concat, hlast' _⟩
    · obtain rfl := Option.some.inj hstep
      exact ⟨⟨rfl, hthread.2⟩, hmain.frame ⟨hphase ▸ nofun, hphase ▸ nofun⟩ rfl (.inl rfl), nofun,
        hlast' _⟩
    · obtain rfl := Option.some.inj hstep
      exact ⟨⟨rfl, hthread.2⟩, hmain.frame ⟨hphase ▸ nofun, hphase ▸ nofun⟩ rfl (.inl rfl), nofun,
        hlast' _⟩
  · -- the failure is recorded
    next e =>
      obtain rfl := Option.some.inj hstep
      exact ⟨⟨e, hthread.1, rfl⟩,
        hmain.frame ⟨hphase ▸ nofun, hphase ▸ nofun⟩ rfl (.inr ⟨hthread.2, e, rfl⟩), hhealthy,
        hlast⟩
  · obtain rfl := Option.some.inj hstep
    exact ⟨.inr hthread, hmain.frame ⟨hphase ▸ nofun, hphase ▸ nofun⟩ rfl (.inl rfl), hhealthy,
      hlast⟩
  · cases hstep

/-! ### Steps of the `with` statement -/

/-- A recorded time-out does not replace what the thread has recorded. -/
theorem ThreadOk.recordTimeout {thread : HeartbeatThread} (h : ThreadOk failure raised thread) :
    ThreadOk (some (failure.getD ⟨lifecycleObject, lifecycleError⟩)) raised thread := by
  have hunfailed : Unfailed failure →
      Unfailed (some (failure.getD ⟨lifecycleObject, lifecycleError⟩)) := by
    rintro (rfl | rfl) <;> exact .inr rfl
  have hfailed : Failed failure raised →
      Failed (some (failure.getD ⟨lifecycleObject, lifecycleError⟩)) raised := by
    rintro ⟨e, hraised, rfl⟩
    exact ⟨e, hraised, rfl⟩
  cases thread with
  | recording e => exact ⟨h.1, hunfailed h.2⟩
  | stopping => exact hfailed h
  | ended => exact h.imp (fun hclean => ⟨hclean.1, hunfailed hclean.2⟩) hfailed
  | notStarted => exact ⟨h.1, hunfailed h.2⟩
  | waiting => exact ⟨h.1, hunfailed h.2⟩
  | beating => exact ⟨h.1, hunfailed h.2⟩

theorem BodyOk.recordTimeout (h : BodyOk failure operated body) :
    BodyOk (some (failure.getD ⟨lifecycleObject, lifecycleError⟩)) operated body := by
  cases body with
  | ok value => exact h
  | error e =>
      refine h.imp id fun ⟨hvalue, hobject, hfailure⟩ => ⟨hvalue, hobject, ?_⟩
      rw [hfailure]
      rfl

/-- A failure that is read is the time-out or the thread's. -/
theorem ThreadOk.failure_cases {thread : HeartbeatThread} (h : ThreadOk failure raised thread) :
    Unfailed failure ∨ Failed failure raised := by
  cases thread with
  | recording e => exact .inl h.2
  | stopping => exact .inr h
  | ended => exact h.imp And.right id
  | notStarted => exact .inl h.2
  | waiting => exact .inl h.2
  | beating => exact .inl h.2

theorem ThreadOk.raised_eq_none (h : ThreadOk failure raised .ended) (hnone : failure = none) :
    raised = none := by
  rcases h with hclean | ⟨e, -, hrecorded⟩
  · exact hclean.1
  · exact absurd (hnone.symm.trans hrecorded) nofun

theorem ThreadOk.raised_eq_some {thread : HeartbeatThread} (h : ThreadOk failure raised thread)
    {e : PyError} (he : failure = some ⟨threadObject, e⟩) : raised = some e := by
  rcases h.failure_cases with hunfailed | ⟨f, hraised, hf⟩
  · exact absurd rfl (hunfailed.object_ne he)
  · obtain rfl : f = e := congrArg RaisedObject.error (Option.some.inj (hf.symm.trans he))
    exact hraised

/-- `__exit__` ends as `duringLease` with the failure that it has read. -/
theorem BodyOk.exitOutcome (h : BodyOk failure operated body)
    (hcases : Unfailed failure ∨ Failed failure raised) :
    ∃ result, operated = some result ∧
      exitOutcome body failure = duringLeaseResult result (failure.map RaisedObject.error) := by
  cases body with
  | ok value => exact ⟨.ok value, h, by cases failure <;> rfl⟩
  | error e =>
      rcases h with ⟨hresult, hthread, hlifecycle⟩ | ⟨⟨value, hvalue⟩, -, rfl⟩
      · refine ⟨.error e.error, hresult, ?_⟩
        rcases hcases with (rfl | rfl) | ⟨f, -, rfl⟩
        · rfl
        · exact if_neg hlifecycle.symm
        · exact if_neg hthread.symm
      · exact ⟨.ok value, hvalue, if_pos rfl⟩

theorem Coherent.nextMain (h : Coherent s) (hstep : s.nextMain s.main action = some t) :
    Coherent t := by
  obtain ⟨hthread, hmain, hhealthy, hlast⟩ := h
  generalize s.main = main at hmain hstep
  unfold HeartbeatState.nextMain at hstep
  split at hstep
  · -- the thread starts
    obtain rfl := Option.some.inj hstep
    obtain ⟨hphase, hfailure, hoperated⟩ := hmain
    rw [hphase] at hthread
    exact ⟨hthread, ⟨by rintro f hf; exact absurd (hfailure.symm.trans hf) nofun, hoperated⟩,
      hhealthy, hlast⟩
  · obtain rfl := Option.some.inj hstep
    exact ⟨hthread, .inl ⟨hmain.2.2, _, rfl⟩, hhealthy, hlast⟩
  · obtain rfl := Option.some.inj hstep
    exact ⟨hthread, ⟨hmain.1, rfl⟩, hhealthy, hlast⟩
  · -- the operation raises
    split at hstep
    · cases hstep
    · next hobject =>
        obtain rfl := Option.some.inj hstep
        exact ⟨hthread, ⟨hmain.1, .inl ⟨rfl, not_or.1 hobject⟩⟩, hhealthy, hlast⟩
  · split at hstep
    · obtain rfl := Option.some.inj hstep
      exact ⟨hthread, hmain, hhealthy, hlast⟩
    · -- `check` raises the failure
      next failure hfailure =>
        obtain rfl := Option.some.inj hstep
        exact ⟨hthread, ⟨hmain.1, .inr ⟨⟨_, hmain.2⟩, hmain.1 _ hfailure, hfailure⟩⟩, hhealthy,
          hlast⟩
  · obtain rfl := Option.some.inj hstep
    exact ⟨hthread, hmain, hhealthy, hlast⟩
  · split at hstep
    · next hended =>
        obtain rfl := Option.some.inj hstep
        exact ⟨hthread, ⟨hmain.2, fun _ => hended⟩, hhealthy, hlast⟩
    · cases hstep
  · obtain rfl := Option.some.inj hstep
    exact ⟨hthread, hmain, hhealthy, hlast⟩
  · split at hstep
    · next hended =>
        obtain rfl := Option.some.inj hstep
        exact ⟨hthread, ⟨hmain.2, fun _ => hended⟩, hhealthy, hlast⟩
    · obtain rfl := Option.some.inj hstep
      exact ⟨hthread, hmain, hhealthy, hlast⟩
  · -- the time-out is recorded
    obtain rfl := Option.some.inj hstep
    exact ⟨hthread.recordTimeout, ⟨hmain.2.recordTimeout, nofun⟩, hhealthy, hlast⟩
  · -- `__exit__` ends
    obtain rfl := Option.some.inj hstep
    obtain ⟨result, hresult, houtcome⟩ := hmain.1.exitOutcome hthread.failure_cases
    refine ⟨hthread, .inr ⟨result, _, hresult, houtcome, ?_⟩, hhealthy, hlast⟩
    rcases hthread.failure_cases with (hnone | hlifecycle) | ⟨e, -, hrecorded⟩
    · exact .inl ⟨by rw [hnone]; rfl, hmain.2 hnone, hnone⟩
    · exact .inr (.inl (by rw [hlifecycle]; rfl))
    · exact .inr (.inr ⟨e, by rw [hrecorded]; rfl, hrecorded⟩)
  · cases hstep

theorem coherent_of_reachable (h : HeartbeatState.system.Reachable System.Any s) : Coherent s := by
  refine h.invariant ?_ fun _ _ _ hs _ hstep =>
    Or.elim hstep hs.nextThread hs.nextMain
  rintro _ rfl
  exact ⟨⟨rfl, .inl rfl⟩, ⟨rfl, rfl, rfl⟩, fun _ => nofun, nofun⟩

/-! ## The end of the statement -/

theorem duringLeaseResult_eq_ok {result : Except PyError α} {answer : Option PyError} {value : α}
    (h : duringLeaseResult result answer = .ok value) : result = .ok value ∧ answer = none := by
  cases result <;> cases answer <;> cases h
  exact ⟨rfl, rfl⟩

theorem nextMain_left {outcome : Except PyError α} :
    s.nextMain (.left outcome) action = none := by
  cases action <;> rfl

theorem nextThread_ended : s.nextThread .ended action = none := by
  cases action <;> rfl

/-- When the statement ends with a value, that is the operation's, the thread has ended, every
renewal has succeeded, and nothing happens any more. -/
theorem value_after_ended_thread {value : α}
    (h : HeartbeatState.system.Reachable System.Any s) (hleft : s.main = .left (.ok value)) :
    s.operated = some (.ok value) ∧ s.thread = .ended ∧ s.raised = none ∧ AllRenewed s.beats ∧
      ∀ t, HeartbeatState.system.Steps System.Any s t → t = s := by
  obtain ⟨hthread, hmain, hhealthy, -⟩ := coherent_of_reachable h
  rw [hleft] at hmain
  rcases hmain with ⟨-, e, he⟩ | ⟨result, answer, hresult, houtcome, hread⟩
  · cases he
  · obtain ⟨rfl, rfl⟩ := duringLeaseResult_eq_ok houtcome.symm
    rcases hread with ⟨-, hended, hfailure⟩ | hlifecycle | ⟨e, he, -⟩
    · have hraised : s.raised = none := (hended ▸ hthread).raised_eq_none hfailure
      refine ⟨hresult, hended, hraised, hhealthy hraised, fun t hsteps => ?_⟩
      refine hsteps.preserves (P := fun u => u = s) ?_ rfl
      rintro u action v rfl - (hstep | hstep)
      · rw [hended, nextThread_ended] at hstep
        cases hstep
      · rw [hleft, nextMain_left] at hstep
        cases hstep
    · cases hlifecycle
    · cases he

/-- One renewal, and a thread that sees the event. -/
def renewedActions : List (HeartbeatAction Nat) :=
  [.start, .waited (.ok false), .beat (.ok true), .operate (.ok 7), .check, .setStop,
    .waited (.ok true), .joined, .leave]

def renewedState : HeartbeatState Nat :=
  ⟨true, none, .ended, .left (.ok 7), some (.ok 7), none, [.ok true]⟩

theorem value_after_ended_thread_renewed :
    renewedState.operated = some (.ok 7) ∧ renewedState.thread = .ended ∧
      renewedState.raised = none ∧ AllRenewed renewedState.beats ∧
      ∀ t, HeartbeatState.system.Steps System.Any renewedState t → t = renewedState :=
  value_after_ended_thread (HeartbeatState.reachable_of_run renewedActions rfl) rfl

/-- `duringLease` by the end that its operation and the heartbeat come to. -/
theorem run_duringLease {σ : Type}
    {T : σ → (o : WorkerOp) → Except PyError o.Answer → σ → Prop} {lease : JobLease}
    {operation : WorkerProgram α} {w v : σ} {result : Except PyError α} {answer : Option PyError}
    (hoperation : Program.Run T operation w result v)
    (hanswer : T v (.stopHeartbeat lease) (.ok answer) v) :
    Program.Run T (duringLease lease operation) w (duringLeaseResult result answer) v := by
  refine Program.Run.bind hoperation.attempt (Program.Run.bind (Program.Run.op hanswer) ?_)
  cases result <;> cases answer
  · exact .raise _ _
  · exact .raise _ _
  · exact .ret _ _
  · exact .raise _ _

/-- However the threads interleave, the statement ends as `duringLease` does with one answer of
`stopHeartbeat`. There is no failure in the answer only when the thread has ended without one, and
what the thread has raised is the answer unless a time-out is. -/
theorem withHeartbeat_refines_duringLease {result outcome : Except PyError α}
    (h : HeartbeatState.system.Reachable System.Any s) (hleft : s.main = .left outcome)
    (hoperated : s.operated = some result) :
    ∃ answer : Option PyError,
      (∀ {σ : Type} (T : σ → (o : WorkerOp) → Except PyError o.Answer → σ → Prop)
        (lease : JobLease) (operation : WorkerProgram α) (w v : σ),
        Program.Run T operation w result v → T v (.stopHeartbeat lease) (.ok answer) v →
          Program.Run T (duringLease lease operation) w outcome v) ∧
      (answer = none → s.thread = .ended ∧ s.raised = none) ∧
      (∀ e, answer = some e → e = lifecycleError ∨ s.raised = some e) ∧
      (∀ e, s.raised = some e → answer = some e ∨ answer = some lifecycleError) ∧
      AllRenewed s.beats.dropLast := by
  obtain ⟨hthread, hmain, -, hlast⟩ := coherent_of_reachable h
  rw [hleft] at hmain
  rcases hmain with ⟨hnone, -⟩ | ⟨result', answer, hresult, rfl, hread⟩
  · cases hnone.symm.trans hoperated
  · obtain rfl : result' = result := Option.some.inj (hresult.symm.trans hoperated)
    refine ⟨answer, fun T lease operation w v hrun hanswer => run_duringLease hrun hanswer,
      ?_, ?_, ?_, hlast⟩
    · rintro rfl
      rcases hread with ⟨-, hended, hfailure⟩ | hlifecycle | ⟨e, he, -⟩
      · exact ⟨hended, (hended ▸ hthread).raised_eq_none hfailure⟩
      · cases hlifecycle
      · cases he
    · rintro e rfl
      rcases hread with ⟨hnone, -⟩ | hlifecycle | ⟨f, hf, hrecorded⟩
      · cases hnone
      · exact .inl (Option.some.inj hlifecycle)
      · obtain rfl := Option.some.inj hf
        exact .inr (hthread.raised_eq_some hrecorded)
    · intro e hraised
      rcases hread with ⟨-, hended, hfailure⟩ | hlifecycle | ⟨f, rfl, hrecorded⟩
      · have hnone : s.raised = none := (hended ▸ hthread).raised_eq_none hfailure
        exact absurd (hnone.symm.trans hraised) nofun
      · exact .inr hlifecycle
      · exact .inl ((hthread.raised_eq_some hrecorded).symm.trans hraised)

/-- The lease is lost while the operation runs, and the thread ends only after the `join`. -/
def lostActions : List (HeartbeatAction Nat) :=
  [.start, .waited (.ok false), .operate (.ok 7), .check, .setStop, .beat (.ok false),
    .joinTimedOut, .askAlive, .recordTimeout, .leave, .recordFailure]

def lostState : HeartbeatState Nat :=
  ⟨true, some ⟨threadObject, lostLeaseError⟩, .stopping, .left (.error lifecycleError),
    some (.ok 7), some lostLeaseError, [.ok false]⟩

theorem withHeartbeat_refines_duringLease_lost :
    ∃ answer : Option PyError,
      (∀ {σ : Type} (T : σ → (o : WorkerOp) → Except PyError o.Answer → σ → Prop)
        (lease : JobLease) (operation : WorkerProgram Nat) (w v : σ),
        Program.Run T operation w (.ok 7) v → T v (.stopHeartbeat lease) (.ok answer) v →
          Program.Run T (duringLease lease operation) w (.error lifecycleError) v) ∧
      (answer = none → lostState.thread = .ended ∧ lostState.raised = none) ∧
      (∀ e, answer = some e → e = lifecycleError ∨ lostState.raised = some e) ∧
      (∀ e, lostState.raised = some e → answer = some e ∨ answer = some lifecycleError) ∧
      AllRenewed lostState.beats.dropLast :=
  withHeartbeat_refines_duringLease
    (HeartbeatState.reachable_of_run lostActions rfl) rfl rfl

end Invariant

end WheelForge.Worker
