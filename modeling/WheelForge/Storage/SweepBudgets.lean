import WheelForge.Maintenance.SegmentedQueue
import WheelForge.Storage.ClearWorkspace

/-!
# Budgets of the sweeps

What the sweep of the data root and the sweep of the workspaces share: the budget, the exceptions,
the counts of the queue, and how many records `peek_due` inspects.
-/

set_option autoImplicit false

namespace WheelForge.Storage

open WheelForge.Interaction WheelForge.Maintenance

/-- `StorageSweepBudget`; `__post_init__` refuses a budget with a limit that is not positive. -/
structure StorageSweepBudget where
  maxQuarantines : Nat
  maxBytes : Nat
  maxSeconds : Int
  maxDirectories : Nat
  maxEntries : Nat
  maxMutations : Nat
  quarantines_pos : 0 < maxQuarantines
  bytes_pos : 0 < maxBytes
  seconds_pos : 0 < maxSeconds
  directories_pos : 0 < maxDirectories
  entries_pos : 0 < maxEntries
  mutations_pos : 0 < maxMutations

/-- The defaults of `StorageSweepBudget`; the unit of time is a microsecond. -/
def defaultBudget : StorageSweepBudget where
  maxQuarantines := 32
  maxBytes := 16 * 1024 * 1024
  maxSeconds := 1000000
  maxDirectories := 128
  maxEntries := 1024
  maxMutations := 64
  quarantines_pos := (by decide : 1 ≤ 32)
  bytes_pos := by decide
  seconds_pos := by decide
  directories_pos := (by decide : 1 ≤ 128)
  entries_pos := by decide
  mutations_pos := by decide

/-- What a call of a sweep can raise. -/
inductive SweepError where
  | fileNotFound
  /-- Any other `OSError`. -/
  | os
  | runtime (message : String)
  | value
  | queue (error : QueueError)
  | clear (error : ClearError)
  /-- Any other exception. -/
  | other
deriving DecidableEq, Repr

/-- `_queue_counts`. -/
structure QueueCounts where
  ready : Nat
  deferred : Nat
  held : Nat
  recordBytes : Nat
  segments : Nat
  capacityEvents : Nat
deriving DecidableEq, Repr

section Queue

variable {β : Type} (limits : QueueLimits)

/-- `counts`. -/
def queueCounts : QueueProgram β QueueCounts := do
  let state ← readState limits
  return {
    ready := (state.lanes .ready).count
    deferred := (state.lanes .deferred).count
    held := (state.lanes .held).count
    recordBytes := total state LaneState.bytes
    segments := total state LaneState.segments
    capacityEvents := state.capacityEvents }

variable {limits}

/-- The loop of `peek_due` inspects at most as many records as it may. -/
theorem scanDue_inspected {d : QueueDir β} {lane : Lane} {start recordLimit : Nat}
    {isDue : QueueRecord β → Bool} {offsets : List Nat} {inspected : Nat}
    (h : inspected < recordLimit) :
    (scanDue limits d lane start recordLimit isDue offsets inspected).elim Prod.snd id ≤
      recordLimit := by
  induction offsets generalizing inspected with
  | nil => exact h.le
  | cons offset offsets ih =>
      rw [scanDue]
      split
      · exact ih h
      · split
        · exact h
        · split
          · exact h
          · next hlimit => exact ih (Nat.lt_of_not_le hlimit)

/-- `peek_due` inspects at most `max_records` records, whatever it reads of the queue. -/
theorem peekDue_inspected {lane : Lane} {isDue : QueueRecord β → Bool} {maxRecords : Int} :
    (peekDue limits lane isDue maxRecords).Yields fun found =>
      found.2 ≤ maxRecords.toNat := by
  unfold peekDue
  split
  · exact Program.yields_pure.2 (Nat.zero_le _)
  next hmax =>
  apply Program.yields_after
  intro state
  split
  · exact Program.yields_pure.2 (Nat.zero_le _)
  next hcount =>
  apply Program.yields_after
  intro d
  have hlimit : 0 < min maxRecords.toNat (state.lanes lane).count := by omega
  have hscan : (scanDue limits d lane (state.lanes lane).headCursor
      (min maxRecords.toNat (state.lanes lane).count) isDue (List.range limits.capacity) 0).elim
      Prod.snd id ≤ min maxRecords.toNat (state.lanes lane).count := scanDue_inspected hlimit
  split
  · next result hresult =>
      rw [hresult] at hscan
      exact Program.yields_pure.2 (hscan.trans (min_le_left _ _))
  · next n hn =>
      rw [hn] at hscan
      apply Program.yields_after
      intro _
      exact Program.yields_pure.2 (hscan.trans (min_le_left _ _))

end Queue

end WheelForge.Storage
