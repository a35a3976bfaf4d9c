import Mathlib.Algebra.GroupWithZero.Nat
import Mathlib.Data.Prod.Lex
import WheelForge.Contracts
import WheelForge.Interaction.Program
import WheelForge.Relational.Table

/-!
# The segmented maintenance queue

The functions of `segmented_queue` as programs over the filesystem steps that they take. A queue
directory holds the segment directories of three lanes, the slot files and temporary files in them,
and the persisted state. Reads are one `observe` of the directory, which no one else changes while
the gate is held. A slot file is a record that `_encode_record` accepted, with its encoded size.
-/

set_option autoImplicit false

namespace WheelForge.Maintenance

open WheelForge.Interaction
open WheelForge.Interaction.Program (raise)
open WheelForge.Relational

inductive Lane where
  | ready
  | deferred
  | held
deriving DecidableEq, Repr

/-- `("ready", "deferred", "held")`. -/
def Lane.all : List Lane := [.ready, .deferred, .held]

/-- `lane_priority`. -/
def Lane.priority : Lane → Nat
  | .ready => 0
  | .deferred => 1
  | .held => 2

/-- `QueueLimits`. The storage's limits have as many records as one lane has slots, and a reconcile
budget above what any reconciliation of a queue within its limits needs. -/
structure QueueLimits where
  segmentSize : Nat
  maxSegments : Nat
  maxRecords : Nat
  maxRecordBytes : Nat
  recordMaxBytes : Nat
  reconcileMaxMutations : Nat
  segmentSize_pos : 0 < segmentSize
  maxSegments_pos : 0 < maxSegments
  maxRecords_le : maxRecords ≤ segmentSize * maxSegments
  reconcile_le : 2 * maxRecords + 6 * maxSegments + 2 ≤ reconcileMaxMutations

def QueueLimits.capacity (limits : QueueLimits) : Nat := limits.segmentSize * limits.maxSegments

/-- `_queue_limits()`. -/
def queueLimits : QueueLimits where
  segmentSize := 128
  maxSegments := 32
  maxRecords := 4096
  maxRecordBytes := 16777216
  recordMaxBytes := 8192
  reconcileMaxMutations := 16384
  segmentSize_pos := by decide
  maxSegments_pos := by decide
  maxRecords_le := by decide
  reconcile_le := by decide

/-- A queue record: its ordering fields and its other fields. -/
structure QueueRecord (β : Type) where
  recordId : Uuid
  generation : Nat
  sequence : Nat
  body : β
deriving DecidableEq

/-- A record as a caller passes it. -/
structure RecordInput (β : Type) where
  recordId : Option String
  generation : Option Int
  body : β

/-- The place of a slot file. -/
structure Location where
  lane : Lane
  segment : Nat
  slot : Nat
deriving DecidableEq, Repr

/-- A slot file: a decoded record and its size. -/
structure SlotFile (β : Type) where
  location : Location
  record : QueueRecord β
  size : Nat

instance {β : Type} : Keyed (SlotFile β) Location := ⟨SlotFile.location⟩

/-- `QueueItem`. -/
structure QueueItem (β : Type) where
  location : Location
  record : QueueRecord β
deriving DecidableEq

def SlotFile.item {β : Type} (file : SlotFile β) : QueueItem β := ⟨file.location, file.record⟩

structure LaneState where
  headCursor : Nat
  writeCursor : Nat
  count : Nat
  bytes : Nat
  segments : Nat
deriving DecidableEq, Repr

structure QueueState where
  nextSequence : Nat
  capacityEvents : Nat
  lanes : Lane → LaneState

/-- `initial_state`. -/
def initialState : QueueState where
  nextSequence := 0
  capacityEvents := 0
  lanes _ := ⟨0, 0, 0, 0, 0⟩

/-- The queue directory: the persisted state, the segment directories in listing order, the
temporary files and the slot files. -/
structure QueueDir (β : Type) where
  state : QueueState
  segments : List (Lane × Nat)
  temps : List Location
  slots : Table (SlotFile β)

/-- The directory that `ensure` creates. -/
def QueueDir.initial {β : Type} : QueueDir β := ⟨initialState, [], [], Table.empty⟩

inductive QueueError where
  /-- `QueueCapacityError`. -/
  | capacity (message : String)
  | runtime (message : String)
deriving DecidableEq, Repr

/-- The UUID and JSON functions of the queue. -/
structure QueueCodec (β : Type) where
  /-- `str(UUID(text))`; `none` is its `ValueError`. -/
  canonicalUuid : String → Option Uuid
  /-- The length of the encoded record. -/
  encodedSize : QueueRecord β → Nat
  canonical : ∀ {text recordId : Uuid}, canonicalUuid text = some recordId →
    canonicalUuid recordId = some recordId

/-! ## Filesystem steps -/

inductive QueueCall (β : Type) where
  | observe
  | mkdirSegment (lane : Lane) (segment : Nat)
  /-- `os.open(temp, O_CREAT | O_EXCL)`. -/
  | createTemp (location : Location)
  | writeTemp (location : Location)
  /-- `os.link(temp, slot)`: the temporary file becomes the slot file. -/
  | linkSlot (file : SlotFile β)
  | unlinkTemp (location : Location)
  | unlinkSlot (location : Location)
  | rmdirSegment (lane : Lane) (segment : Nat)
  /-- The state xattr. -/
  | putState (state : QueueState)

/-- The value of a step; the exclusive steps tell whether they found the name free, and
`unlinkTemp` whether the name existed. -/
def QueueCall.Answer {β : Type} : QueueCall β → Type
  | .observe => QueueDir β
  | .mkdirSegment .. | .createTemp _ | .linkSlot _ | .unlinkTemp _ => Bool
  | .writeTemp _ | .unlinkSlot _ | .rmdirSegment .. | .putState _ => Unit

/-- A program of the queue. -/
abbrev QueueProgram (β α : Type) := Program (QueueCall β) QueueCall.Answer QueueError α

def step {β : Type} (o : QueueCall β) : QueueProgram β o.Answer := Program.op o

namespace QueueDir

variable {β : Type}

def mkdirSegment (d : QueueDir β) (lane : Lane) (segment : Nat) : QueueDir β :=
  if (lane, segment) ∈ d.segments then d
  else { d with segments := d.segments ++ [(lane, segment)] }

def createTemp (d : QueueDir β) (location : Location) : QueueDir β :=
  if location ∈ d.temps then d else { d with temps := d.temps ++ [location] }

def linkSlot (d : QueueDir β) (file : SlotFile β) : QueueDir β :=
  match d.slots.insert? file with
  | some slots => { d with slots := slots }
  | none => d

def unlinkTemp (d : QueueDir β) (location : Location) : QueueDir β :=
  { d with temps := d.temps.filter fun l => decide (l ≠ location) }

def unlinkSlot (d : QueueDir β) (location : Location) : QueueDir β :=
  { d with slots := d.slots.deleteWhere fun file => decide (file.location = location) }

def rmdirSegment (d : QueueDir β) (lane : Lane) (segment : Nat) : QueueDir β :=
  { d with segments := d.segments.filter fun s => decide (s ≠ (lane, segment)) }

/-- The value of a step. -/
def answer (d : QueueDir β) : (o : QueueCall β) → o.Answer
  | .observe => d
  | .mkdirSegment lane segment => !decide ((lane, segment) ∈ d.segments)
  | .createTemp location => !decide (location ∈ d.temps)
  | .writeTemp _ => ()
  | .linkSlot file => (d.slots.insert? file).isSome
  | .unlinkTemp location => decide (location ∈ d.temps)
  | .unlinkSlot _ => ()
  | .rmdirSegment .. => ()
  | .putState _ => ()

/-- The directory after a step. -/
def after (d : QueueDir β) : QueueCall β → QueueDir β
  | .observe | .writeTemp _ => d
  | .mkdirSegment lane segment => d.mkdirSegment lane segment
  | .createTemp location => d.createTemp location
  | .linkSlot file => d.linkSlot file
  | .unlinkTemp location => d.unlinkTemp location
  | .unlinkSlot location => d.unlinkSlot location
  | .rmdirSegment lane segment => d.rmdirSegment lane segment
  | .putState state => { d with state := state }

/-- The filesystem answers every step. -/
def perform (d : QueueDir β) (o : QueueCall β) : Except QueueError o.Answer × QueueDir β :=
  (.ok (d.answer o), d.after o)

end QueueDir

section Operations

variable {β : Type} (limits : QueueLimits)

/-! ## Reading the directory -/

/-- The range checks of `read_state`. -/
def validState (state : QueueState) : Bool :=
  Lane.all.all fun lane =>
    decide ((state.lanes lane).headCursor < limits.capacity) &&
      decide ((state.lanes lane).writeCursor < limits.capacity) &&
      decide ((state.lanes lane).count ≤ limits.maxRecords) &&
      decide ((state.lanes lane).bytes ≤ limits.maxRecordBytes) &&
      decide ((state.lanes lane).segments ≤ limits.maxSegments)

/-- `read_state`. -/
def readState : QueueProgram β QueueState := do
  let d : QueueDir β ← step .observe
  if validState limits d.state then pure d.state
  else raise (.runtime "maintenance queue state is invalid")

/-- `divmod(cursor, segment_size)` in a lane. -/
def locationAt (lane : Lane) (cursor : Nat) : Location :=
  ⟨lane, cursor / limits.segmentSize, cursor % limits.segmentSize⟩

/-- The cursor of a location. -/
def Location.cursor (location : Location) : Nat :=
  location.segment * limits.segmentSize + location.slot

/-- `_read_slot` in a segment, with `_try_open_segment`. -/
def readSlot (d : QueueDir β) (location : Location) : Option (SlotFile β) :=
  if (location.lane, location.segment) ∈ d.segments then d.slots.find? location else none

/-- `_segment_names`. -/
def segmentNames (lane : Lane) : QueueProgram β (List Nat) := do
  let d : QueueDir β ← step .observe
  let names := (d.segments.filter fun s => decide (s.1 = lane)).map Prod.snd
  if (names.take limits.maxSegments).all fun number => decide (number < limits.maxSegments) then
    if names.length ≤ limits.maxSegments then pure names
    else raise (.capacity "maintenance queue segment limit is exhausted")
  else raise (.runtime "maintenance queue segment is invalid")

/-- `_find_item`: the first slot file from a cursor on, around the ring. -/
def findItem (d : QueueDir β) (lane : Lane) (start : Nat) : Option (SlotFile β) :=
  (List.range limits.capacity).findSome? fun offset =>
    readSlot d (locationAt limits lane ((start + offset) % limits.capacity))

/-- `_find_record_id` in the given lanes. -/
def findRecordId (d : QueueDir β) (lanes : List Lane) (recordId : Uuid)
    (generation : Option Nat) : Option (SlotFile β) :=
  lanes.findSome? fun lane => (List.range limits.capacity).findSome? fun cursor =>
    (readSlot d (locationAt limits lane cursor)).filter fun file =>
      decide (file.record.recordId = recordId) &&
        match generation with
        | none => true
        | some g => decide (file.record.generation = g)

/-- `sum(state["lanes"][name][field] for name in state["lanes"])`. -/
def total (state : QueueState) (field : LaneState → Nat) : Nat :=
  (Lane.all.map fun lane => field (state.lanes lane)).sum

def QueueState.setLane (state : QueueState) (lane : Lane) (value : LaneState) : QueueState :=
  { state with lanes := Function.update state.lanes lane value }

/-! ## `enqueue` -/

/-- `_prepare_record`; `fresh` is the `uuid4()` it draws. -/
def prepareRecord (codec : QueueCodec β) (input : RecordInput β) (fresh : Uuid) (sequence : Nat) :
    Except QueueError (QueueRecord β) :=
  match codec.canonicalUuid (input.recordId.getD fresh) with
  | none => .error (.runtime "maintenance queue record id is invalid")
  | some recordId =>
      if 0 ≤ input.generation.getD 0 then
        .ok ⟨recordId, (input.generation.getD 0).toNat, sequence, input.body⟩
      else .error (.runtime "maintenance queue generation is invalid")

/-- `_encode_record`: the size of the encoded record. -/
def encodeRecord (codec : QueueCodec β) (record : QueueRecord β) : Except QueueError Nat :=
  if codec.encodedSize record ≤ limits.recordMaxBytes then .ok (codec.encodedSize record)
  else .error (.runtime "maintenance queue record exceeds its byte limit")

/-- The state after a record of a size was linked at a cursor of a lane. -/
def QueueState.enqueued (state : QueueState) (lane : Lane) (cursor size segments : Nat) :
    QueueState :=
  { state.setLane lane
      { headCursor := if (state.lanes lane).count + 1 = 1 then cursor
          else (state.lanes lane).headCursor
        writeCursor := (cursor + 1) % limits.capacity
        count := (state.lanes lane).count + 1
        bytes := (state.lanes lane).bytes + size
        segments := segments } with
    nextSequence := state.nextSequence + 1 }

/-- The state after a refused record. -/
def QueueState.refused (state : QueueState) : QueueState :=
  { state with capacityEvents := state.capacityEvents + 1 }

/-- The loop of `enqueue`, for the given number of cursors. -/
def enqueueAt (state : QueueState) (lane : Lane) (record : QueueRecord β) (size : Nat) :
    Nat → Nat → QueueProgram β (QueueItem β)
  | 0, _ => do
      step (.putState state.refused)
      raise (.capacity "maintenance queue has no free slot")
  | n + 1, cursor => do
      let location := locationAt limits lane cursor
      let _ : Bool ← step (.mkdirSegment lane location.segment)
      let created : Bool ← step (.createTemp location)
      if created then
        step (.writeTemp location)
        let linked : Bool ← step (.linkSlot ⟨location, record, size⟩)
        let _ : Bool ← step (.unlinkTemp location)
        if linked then
          let names ← segmentNames limits lane
          step (.putState (state.enqueued limits lane cursor size names.length))
          pure ⟨location, record⟩
        else enqueueAt state lane record size n ((cursor + 1) % limits.capacity)
      else enqueueAt state lane record size n ((cursor + 1) % limits.capacity)

/-- The item that `enqueue` finds in place of a record. -/
def existingItem (d : QueueDir β) (lane : Lane) (input : RecordInput β) (record : QueueRecord β)
    (deduplicate deduplicateGeneration : Bool) : Option (SlotFile β) :=
  if deduplicate && input.recordId.isSome then
    findRecordId limits d Lane.all record.recordId none
  else if deduplicateGeneration then
    findRecordId limits d [lane] record.recordId (some record.generation)
  else none

/-- `enqueue`. -/
def enqueue (codec : QueueCodec β) (lane : Lane) (input : RecordInput β) (fresh : Uuid)
    (deduplicate deduplicateGeneration : Bool) : QueueProgram β (QueueItem β) := do
  let state ← readState limits
  let record ← Program.ofExcept (prepareRecord codec input fresh state.nextSequence)
  let d : QueueDir β ← step .observe
  match existingItem limits d lane input record deduplicate deduplicateGeneration with
  | some file => pure file.item
  | none => do
      let size ← Program.ofExcept (encodeRecord limits codec record)
      if limits.maxRecords ≤ total state LaneState.count ∨
          limits.maxRecordBytes < total state LaneState.bytes + size then
        step (.putState state.refused)
        raise (.capacity "maintenance queue capacity is exhausted")
      else enqueueAt limits state lane record size limits.capacity (state.lanes lane).writeCursor

/-! ## `reconcile` -/

/-- `rank` of an observed item, in lexicographic order. -/
def SlotFile.rank (file : SlotFile β) : Nat ×ₗ Nat ×ₗ Nat :=
  toLex (file.record.generation, toLex (file.record.sequence, file.location.lane.priority))

/-- Generations decide a rank first, then sequence numbers. -/
theorem SlotFile.rank_lt_of_generation {f g : SlotFile β}
    (h : f.record.generation < g.record.generation) : f.rank < g.rank :=
  Prod.Lex.toLex_lt_toLex.2 (Or.inl h)

theorem SlotFile.rank_lt_of_sequence {f g : SlotFile β}
    (hgen : f.record.generation = g.record.generation)
    (h : f.record.sequence < g.record.sequence) : f.rank < g.rank :=
  Prod.Lex.toLex_lt_toLex.2 (Or.inr ⟨hgen, Prod.Lex.toLex_lt_toLex.2 (Or.inl h)⟩)

/-- One step of the loop that fills `winners`, the values of the dictionary in insertion order. -/
def insertWinner (winners : List (SlotFile β)) (item : SlotFile β) : List (SlotFile β) :=
  if winners.any fun w => decide (w.record.recordId = item.record.recordId) then
    winners.map fun w =>
      if w.record.recordId = item.record.recordId ∧ w.rank < item.rank then item else w
  else winners ++ [item]

def winnersOf (observed : List (SlotFile β)) : List (SlotFile β) := observed.foldl insertWinner []

/-- `_check_reconcile_budget`. -/
def checkReconcileBudget (mutations : Nat) : QueueProgram β Unit :=
  if limits.reconcileMaxMutations < mutations then
    raise (.runtime "maintenance queue reconcile budget is exhausted")
  else pure ()

/-- What the scan of `reconcile` collects. -/
structure Scan (β : Type) where
  observed : List (SlotFile β)
  mutations : Nat
  removedTemp : Bool

/-- The scan after an attempt to unlink a temporary file. -/
def Scan.noteTemp (scan : Scan β) (removed : Bool) : Scan β :=
  if removed then { scan with mutations := scan.mutations + 1, removedTemp := true } else scan

/-- One slot of the scan. -/
def scanSlot (lane : Lane) (segment : Nat) (scan : Scan β) (slot : Nat) :
    QueueProgram β (Scan β) := do
  let removed : Bool ← step (.unlinkTemp ⟨lane, segment, slot⟩)
  let scan := scan.noteTemp removed
  let d : QueueDir β ← step .observe
  match d.slots.find? ⟨lane, segment, slot⟩ with
  | none => pure scan
  | some file =>
      if limits.maxRecords < scan.observed.length + 1 then
        raise (.capacity "maintenance queue record limit is exhausted")
      else pure { scan with observed := scan.observed ++ [file] }

/-- One segment of the scan. -/
def scanSegment (lane : Lane) (scan : Scan β) (segment : Nat) : QueueProgram β (Scan β) := do
  let scan ← Program.loop (scanSlot limits lane segment) (List.range limits.segmentSize)
    { scan with removedTemp := false }
  if scan.removedTemp then
    checkReconcileBudget limits (scan.mutations + 1)
    pure { scan with mutations := scan.mutations + 1, removedTemp := false }
  else pure scan

/-- One lane of the scan. -/
def scanLane (scan : Scan β) (lane : Lane) : QueueProgram β (Scan β) := do
  let names ← segmentNames limits lane
  Program.loop (scanSegment limits lane) names scan

/-- The removal of one observed item that lost. -/
def removeLoser (winners : List (SlotFile β)) (mutations : Nat) (item : SlotFile β) :
    QueueProgram β Nat :=
  if item.location ∈ winners.map SlotFile.location then pure mutations
  else do
    let d : QueueDir β ← step .observe
    match d.slots.find? item.location with
    | none => pure mutations
    | some current =>
        if current.record.recordId ≠ item.record.recordId ∨
            current.record.generation ≠ item.record.generation then
          raise (.runtime "maintenance queue slot changed during reconcile")
        else do
          step (.unlinkSlot item.location)
          checkReconcileBudget limits (mutations + 2)
          pure (mutations + 2)

/-- The removal of one segment without records. -/
def removeSegment (lane : Lane) (mutations segment : Nat) : QueueProgram β Nat := do
  let d : QueueDir β ← step .observe
  if (List.range limits.segmentSize).any fun slot =>
      (d.slots.find? ⟨lane, segment, slot⟩).isSome then
    pure mutations
  else do
    step (.rmdirSegment lane segment)
    checkReconcileBudget limits (mutations + 2)
    pure (mutations + 2)

/-- The winners of a lane in the order of their sequence numbers. -/
def laneItems (winners : List (SlotFile β)) (lane : Lane) : List (SlotFile β) :=
  (winners.filter fun w => decide (w.location.lane = lane)).insertionSort
    fun a b => a.record.sequence ≤ b.record.sequence

/-- The rebuilt state of a lane. -/
def rebuiltLane (items : List (SlotFile β)) (segments : Nat) : LaneState where
  headCursor :=
    match items.head? with
    | some first => first.location.cursor limits
    | none => 0
  writeCursor :=
    match items.getLast? with
    | some last => (last.location.cursor limits + 1) % limits.capacity
    | none => 0
  count := items.length
  bytes := (items.map SlotFile.size).sum
  segments := segments

/-- One lane of the rebuild. -/
def rebuildLane (winners : List (SlotFile β)) (acc : QueueState × Nat) (lane : Lane) :
    QueueProgram β (QueueState × Nat) := do
  let names ← segmentNames limits lane
  let mutations ← Program.loop (removeSegment limits lane) names acc.2
  let remaining ← segmentNames (β := β) limits lane
  pure (acc.1.setLane lane (rebuiltLane limits (laneItems winners lane) remaining.length),
    mutations)

/-- `maximum_sequence + 1`. -/
def nextSequenceOf (winners : List (SlotFile β)) : Nat :=
  (winners.map fun w => w.record.sequence + 1).foldl max 0

/-- `reconcile`. -/
def reconcile : QueueProgram β Unit := do
  let previous ← readState limits
  let scan ← Program.loop (scanLane limits) Lane.all (⟨[], 0, false⟩ : Scan β)
  let winners := winnersOf scan.observed
  let mutations ← Program.loop (removeLoser limits winners) scan.observed scan.mutations
  let rebuilt ← Program.loop (rebuildLane limits winners) Lane.all
    ({ initialState with capacityEvents := previous.capacityEvents }, mutations)
  let state := { rebuilt.1 with nextSequence := nextSequenceOf winners }
  if limits.maxRecordBytes < total state LaneState.bytes then
    raise (.capacity "maintenance queue byte limit is exhausted")
  else step (.putState state)

/-! ## `peek` and `complete` -/

/-- `peek`. -/
def peek (lane : Lane) : QueueProgram β (Option (QueueItem β)) := do
  let state ← readState limits
  if (state.lanes lane).count = 0 then pure none
  else
    let d : QueueDir β ← step .observe
    match findItem limits d lane (state.lanes lane).headCursor with
    | some file => pure (some file.item)
    | none =>
        reconcile limits
        let state ← readState limits
        if (state.lanes lane).count = 0 then pure none
        else
          let d : QueueDir β ← step .observe
          match findItem limits d lane (state.lanes lane).headCursor with
          | some file => pure (some file.item)
          | none => raise (.runtime "maintenance queue reconciliation made no progress")

/-- The loop of `peek_due` over the given offsets: the result of the loop, or the number of
inspected records when it ends. -/
def scanDue (d : QueueDir β) (lane : Lane) (start recordLimit : Nat) (isDue : QueueRecord β → Bool) :
    List Nat → Nat → (Option (QueueItem β) × Nat) ⊕ Nat
  | [], inspected => .inr inspected
  | offset :: offsets, inspected =>
      match readSlot d (locationAt limits lane ((start + offset) % limits.capacity)) with
      | none => scanDue d lane start recordLimit isDue offsets inspected
      | some file =>
          if isDue file.record then .inl (some file.item, inspected + 1)
          else if recordLimit ≤ inspected + 1 then .inl (none, inspected + 1)
          else scanDue d lane start recordLimit isDue offsets (inspected + 1)

/-- `peek_due`; `isDue` is `is_due(record, now)`. -/
def peekDue (lane : Lane) (isDue : QueueRecord β → Bool) (maxRecords : Int) :
    QueueProgram β (Option (QueueItem β) × Nat) :=
  if maxRecords ≤ 0 then pure (none, 0)
  else do
    let state ← readState limits
    if (state.lanes lane).count = 0 then pure (none, 0)
    else
      let d : QueueDir β ← step .observe
      match scanDue limits d lane (state.lanes lane).headCursor
        (min maxRecords.toNat (state.lanes lane).count) isDue (List.range limits.capacity) 0 with
      | .inl result => pure result
      | .inr inspected =>
          reconcile limits
          pure (none, inspected)

/-- The state after a slot file of a size was completed. -/
def QueueState.completed (state : QueueState) (location : Location) (size : Nat) : QueueState :=
  state.setLane location.lane
    { (state.lanes location.lane) with
      count := (state.lanes location.lane).count - 1
      bytes := (state.lanes location.lane).bytes - size
      headCursor := (location.cursor limits + 1) % limits.capacity }

/-- `complete`. -/
def complete (item : QueueItem β) : QueueProgram β Unit := do
  let state ← readState limits
  let d : QueueDir β ← step .observe
  match readSlot d item.location with
  | none => reconcile limits
  | some current =>
      if current.record.recordId ≠ item.record.recordId ∨
          current.record.generation ≠ item.record.generation then
        raise (.runtime "maintenance queue ownership changed")
      else do
        step (.unlinkSlot item.location)
        step (.putState (state.completed limits item.location current.size))

/-! ## `_queue_move` -/

/-- The record that `_queue_move` enqueues. -/
def movedInput (item : QueueItem β) (body : Option β) : RecordInput β where
  recordId := some item.record.recordId
  generation := some (item.record.generation + 1 : Int)
  body := body.getD item.record.body

/-- `_queue_move`; `body` is `record or item.record` without the ordering fields. -/
def queueMove (codec : QueueCodec β) (item : QueueItem β) (destination : Lane)
    (body : Option β) : QueueProgram β (QueueItem β) := do
  let destinationItem ← enqueue limits codec destination (movedInput item body) "" false true
  complete limits item
  pure destinationItem

/-- `ensure` on a queue directory that exists. -/
def restart : QueueProgram β Unit := reconcile limits

/-- A program of the queue run on a directory. -/
def run {α : Type} (p : QueueProgram β α) (d : QueueDir β) : Except QueueError α × QueueDir β :=
  Program.exec QueueDir.perform p d

end Operations

end WheelForge.Maintenance
