import WheelForge.Maintenance.Fifo
import WheelForge.Python.Datetime
import WheelForge.Python.JsonReading

/-!
# The due records that `peek_due` finds

`peek_due` walks the ring of a lane from the head cursor, which need not be the cursor of the oldest
record, and stops when it has inspected as many records as the lane's counter says. The counter and
the cursors are exact in every reachable state (`counted_of_reachable`), so the walk meets every
live record of the lane once (`ringFiles_perm`), and a walk whose limit is at least the counter
stops at a due record or after the last live one (`scanDue_spec`).
-/

set_option autoImplicit false

namespace WheelForge.Maintenance

open WheelForge.Interaction
open WheelForge.Python (Datetime Str Text fromisoformat)
open WheelForge.Relational
open WheelForge.Transition

/-! ## `_queue_record_is_due` -/

/-- `record.get("nextAttemptAt")`. -/
inductive AttemptValue where
  | none
  | text (value : Str)
  -- neither `None` nor a string
  | other

/-- The time of a text; `other` is what `fromisoformat` makes of the texts that `isoformat` does not
write. -/
def attemptTime (other : Text → Option Datetime) (value : Str) : Option Datetime :=
  value.toText?.bind (fromisoformat other)

/-- `_queue_record_is_due`; `none` is its `TypeError`. -/
def queueRecordIsDue (other : Text → Option Datetime) (value : AttemptValue) (now : Datetime) :
    Option Bool :=
  match value with
  | .none => some true
  | .other => some true
  | .text value =>
      if 64 < value.length then some true
      else
        match attemptTime other value with
        | none => some true
        | some nextAttempt => nextAttempt.le now

/-- The values that compare with the times of a clock, which are all naive or all aware. -/
def Comparable (other : Text → Option Datetime) (aware : Bool) (value : AttemptValue) : Prop :=
  ∀ text time, value = .text text → attemptTime other text = some time → time.isAware = aware

theorem queueRecordIsDue_isSome {other : Text → Option Datetime} {value : AttemptValue}
    {now : Datetime} (h : Comparable other now.isAware value) :
    (queueRecordIsDue other value now).isSome = true := by
  cases value with
  | none => rfl
  | other => rfl
  | text value =>
      cases htime : attemptTime other value with
      | none => simp [queueRecordIsDue, htime]
      | some nextAttempt =>
          have hle := Datetime.le_isSome (h value nextAttempt rfl htime)
          simp only [queueRecordIsDue, htime]
          split
          · rfl
          · exact hle

/-- The times that the callers store are read back: a value compares if a clock of its kind gave
it. -/
theorem comparable_isoformat (other : Text → Option Datetime) (time : Datetime) :
    Comparable other time.isAware (.text (Str.ofText (Python.isoformat time))) := by
  rintro text read ⟨⟩ hread
  unfold attemptTime at hread
  rw [Python.toText?_ofText, Option.bind_some, Python.fromisoformat_isoformat] at hread
  cases hread
  rfl

/-! ## The ring of a lane -/

section Ring

variable {β : Type} {limits : QueueLimits} {d : QueueDir β} {lane : Lane} {start : Nat}

/-- The slot files that a walk meets at the given offsets from a cursor. -/
def ringFiles (limits : QueueLimits) (d : QueueDir β) (lane : Lane) (start : Nat)
    (offsets : List Nat) : List (SlotFile β) :=
  offsets.filterMap fun offset =>
    readSlot d (locationAt limits lane ((start + offset) % limits.capacity))

theorem ringFiles_cons_none {offset : Nat} {offsets : List Nat}
    (h : readSlot d (locationAt limits lane ((start + offset) % limits.capacity)) = none) :
    ringFiles limits d lane start (offset :: offsets) = ringFiles limits d lane start offsets :=
  List.filterMap_cons_none h

theorem ringFiles_cons_some {offset : Nat} {offsets : List Nat} {file : SlotFile β}
    (h : readSlot d (locationAt limits lane ((start + offset) % limits.capacity)) = some file) :
    ringFiles limits d lane start (offset :: offsets) =
      file :: ringFiles limits d lane start offsets :=
  List.filterMap_cons_some h

/-- Different offsets within the ring lead to different cursors. -/
theorem offset_injective {a b : Nat} (ha : a < limits.capacity) (hb : b < limits.capacity)
    (h : (start + a) % limits.capacity = (start + b) % limits.capacity) : a = b := by
  have hmod : a % limits.capacity = b % limits.capacity := Nat.ModEq.add_left_cancel' start h
  rw [Nat.mod_eq_of_lt ha, Nat.mod_eq_of_lt hb] at hmod
  exact hmod

theorem mem_ringFiles (hd : Placed limits d) {f : SlotFile β} :
    f ∈ ringFiles limits d lane start (List.range limits.capacity) ↔ f ∈ laneFiles d lane := by
  unfold ringFiles
  rw [List.mem_filterMap]
  constructor
  · rintro ⟨offset, -, hslot⟩
    rw [readSlot_eq hd] at hslot
    have hloc : f.location = locationAt limits lane ((start + offset) % limits.capacity) :=
      Table.key_of_find? hslot
    refine List.mem_filter.2 ⟨Table.mem_of_find? hslot, decide_eq_true ?_⟩
    exact congrArg Location.lane hloc
  · intro hf
    obtain ⟨hmem, hl⟩ := List.mem_filter.1 hf
    obtain rfl : f.location.lane = lane := of_decide_eq_true hl
    have hwithin := hd.file_within f hmem
    obtain ⟨k, hk, hcursor⟩ := exists_offset (Location.cursor_lt hwithin hd.segment_lt) start
    refine ⟨k, List.mem_range.2 hk, ?_⟩
    rw [hcursor, locationAt_cursor hwithin.2, readSlot_eq hd]
    exact Table.find?_of_mem hmem

theorem ringFiles_nodup (hd : Placed limits d) :
    (ringFiles limits d lane start (List.range limits.capacity)).Nodup := by
  unfold ringFiles List.Nodup
  rw [List.pairwise_filterMap]
  -- the location of a slot file gives back the offset at which the walk met it
  refine List.Pairwise.imp_of_mem ?_ List.nodup_range
  intro a b ha hb hne f hf g hg hfg
  subst hfg
  rw [readSlot_eq hd] at hf hg
  have hlocs := (Table.key_of_find? hf).symm.trans (Table.key_of_find? hg)
  exact hne (offset_injective (List.mem_range.1 ha) (List.mem_range.1 hb)
    (locationAt_injective hlocs))

/-- From any cursor the walk around the ring meets every live record of the lane once. -/
theorem ringFiles_perm (hd : Placed limits d) :
    (ringFiles limits d lane start (List.range limits.capacity)).Perm (laneFiles d lane) := by
  have hrows : d.slots.rows.Nodup := List.Nodup.of_map _ d.slots.nodup
  refine (List.perm_ext_iff_of_nodup (ringFiles_nodup hd) (hrows.filter _)).2 ?_
  intro f
  exact mem_ringFiles hd

end Ring

/-! ## The loop of `peek_due` -/

section Scanning

variable {β : Type} {recordLimit : Nat}

/-- The slot files whose record the loop of `peek_due` hands to `is_due`, in the order of its
calls. -/
def inspectedFiles (limits : QueueLimits) (d : QueueDir β) (lane : Lane) (start recordLimit : Nat)
    (isDue : QueueRecord β → Bool) : List Nat → Nat → List (SlotFile β)
  | [], _ => []
  | offset :: offsets, inspected =>
      match readSlot d (locationAt limits lane ((start + offset) % limits.capacity)) with
      | none => inspectedFiles limits d lane start recordLimit isDue offsets inspected
      | some file =>
          file ::
            if isDue file.record then []
            else if recordLimit ≤ inspected + 1 then []
            else inspectedFiles limits d lane start recordLimit isDue offsets (inspected + 1)

/-- How the loop ends, with the records it has inspected. -/
inductive ScanEnd (recordLimit : Nat) (isDue : QueueRecord β → Bool) (files : List (SlotFile β))
    (inspected : Nat) : List (SlotFile β) → (Option (QueueItem β) × Nat) ⊕ Nat → Prop
  | due {seen : List (SlotFile β)} {file : SlotFile β} (hmem : file ∈ seen)
      (hdue : isDue file.record = true) :
      ScanEnd recordLimit isDue files inspected seen
        (.inl (some file.item, inspected + seen.length))
  | limit {seen : List (SlotFile β)} (hnone : ∀ f ∈ seen, isDue f.record = false)
      (hlimit : inspected + seen.length = recordLimit) :
      ScanEnd recordLimit isDue files inspected seen (.inl (none, inspected + seen.length))
  | around (hnone : ∀ f ∈ files, isDue f.record = false)
      (hlimit : inspected + files.length < recordLimit) :
      ScanEnd recordLimit isDue files inspected files (.inr (inspected + files.length))

/-- The loop inspects the files that the walk meets, in their order, until one is due or the limit
is reached. -/
theorem scanDue_spec (limits : QueueLimits) (d : QueueDir β) (lane : Lane) (start : Nat)
    (isDue : QueueRecord β → Bool) (offsets : List Nat) {inspected : Nat} (h : inspected < recordLimit) :
    (inspectedFiles limits d lane start recordLimit isDue offsets inspected).Sublist
        (ringFiles limits d lane start offsets) ∧
      inspected + (inspectedFiles limits d lane start recordLimit isDue offsets inspected).length ≤
        recordLimit ∧
      ScanEnd recordLimit isDue (ringFiles limits d lane start offsets) inspected
        (inspectedFiles limits d lane start recordLimit isDue offsets inspected)
        (scanDue limits d lane start recordLimit isDue offsets inspected) := by
  induction offsets generalizing inspected with
  | nil => exact ⟨List.nil_sublist _, h.le, .around (fun _ hf => absurd hf List.not_mem_nil) h⟩
  | cons offset offsets ih =>
      unfold inspectedFiles scanDue
      cases hslot : readSlot d (locationAt limits lane ((start + offset) % limits.capacity)) with
      | none =>
          -- a hole in a segment, or no segment
          rw [ringFiles_cons_none hslot]
          exact ih h
      | some file =>
          rw [ringFiles_cons_some hslot]
          dsimp only
          cases hdue : isDue file.record with
          | true =>
              refine ⟨?_, h, .due List.mem_cons_self hdue⟩
              exact (List.nil_sublist _).cons_cons file
          | false =>
              by_cases hlast : recordLimit ≤ inspected + 1
              · simp only [Bool.false_eq_true, if_false, if_pos hlast]
                refine ⟨(List.nil_sublist _).cons_cons file, h, .limit ?_ (le_antisymm h hlast)⟩
                intro f hf
                rw [List.mem_singleton.1 hf]
                exact hdue
              · simp only [Bool.false_eq_true, if_false, if_neg hlast]
                obtain ⟨hsub, hle, hend⟩ := ih (Nat.lt_of_not_le hlast)
                refine ⟨hsub.cons_cons file, by simp only [List.length_cons]; omega, ?_⟩
                -- the rest of the loop has counted this record already
                have hshift : ∀ l : List (SlotFile β),
                    inspected + 1 + l.length = inspected + (file :: l).length := by
                  intro l
                  simp only [List.length_cons]
                  omega
                have hcons : ∀ {l : List (SlotFile β)}, (∀ f ∈ l, isDue f.record = false) →
                    ∀ f ∈ file :: l, isDue f.record = false := by
                  intro l hl f hf
                  rcases List.mem_cons.1 hf with rfl | hf
                  · exact hdue
                  · exact hl f hf
                generalize inspectedFiles limits d lane start recordLimit isDue offsets
                  (inspected + 1) = seen at hend
                generalize scanDue limits d lane start recordLimit isDue offsets
                  (inspected + 1) = result at hend
                cases hend with
                | due hmem hd =>
                    rw [hshift]
                    exact .due (List.mem_cons_of_mem _ hmem) hd
                | limit hnone hlimit =>
                    rw [hshift] at hlimit ⊢
                    exact .limit (hcons hnone) hlimit
                | around hnone hlimit =>
                    rw [hshift] at hlimit ⊢
                    exact .around (hcons hnone) hlimit

end Scanning

/-! ## Runs -/

section Runs

variable {β : Type} {limits : QueueLimits} {codec : QueueCodec β} {d t : QueueDir β}

/-- `peek_due` on exact counters. -/
theorem peekDue_exec (hd : Counted limits d) (lane : Lane) (isDue : QueueRecord β → Bool)
    (maxRecords : Int) : run (peekDue limits lane isDue maxRecords) d =
      if maxRecords ≤ 0 then (.ok (none, 0), d)
      else if (d.state.lanes lane).count = 0 then (.ok (none, 0), d)
      else
        match scanDue limits d lane (d.state.lanes lane).headCursor
          (min maxRecords.toNat (d.state.lanes lane).count) isDue (List.range limits.capacity) 0 with
        | .inl result => (.ok result, d)
        | .inr inspected => run (do reconcile limits; pure (none, inspected)) d := by
  have hstate := readState_run hd
  unfold run at hstate
  unfold run peekDue
  split
  · rfl
  · rw [Program.exec_bind, hstate]
    dsimp only
    split
    · rfl
    · show Program.exec QueueDir.perform (match scanDue limits d lane
        (d.state.lanes lane).headCursor (min maxRecords.toNat (d.state.lanes lane).count) isDue
        (List.range limits.capacity) 0 with
        | .inl result => pure result
        | .inr inspected => do
            reconcile limits
            pure (none, inspected)) d = _
      split <;> rfl

/-- The slot files that `peek_due` inspects. -/
def peekDueInspected (limits : QueueLimits) (d : QueueDir β) (lane : Lane)
    (isDue : QueueRecord β → Bool) (maxRecords : Int) : List (SlotFile β) :=
  if maxRecords ≤ 0 then []
  else if (d.state.lanes lane).count = 0 then []
  else
    inspectedFiles limits d lane (d.state.lanes lane).headCursor
      (min maxRecords.toNat (d.state.lanes lane).count) isDue (List.range limits.capacity) 0

/-- With a limit of at least the lane's count, `peek_due` returns a due record exactly when the
lane has one, and inspects live records only, each once. -/
theorem peekDue_run (hd : Counted limits d) (lane : Lane) (isDue : QueueRecord β → Bool)
    {maxRecords : Int} (hlimit : ((d.state.lanes lane).count : Int) ≤ maxRecords) :
    ∃ found : Option (QueueItem β),
      run (peekDue limits lane isDue maxRecords) d =
        (.ok (found, (peekDueInspected limits d lane isDue maxRecords).length), d) ∧
      (found.isSome = true ↔ ∃ f ∈ laneFiles d lane, isDue f.record = true) ∧
      (∀ item, found = some item → ∃ f ∈ laneFiles d lane, f.item = item ∧
        isDue f.record = true) ∧
      (peekDueInspected limits d lane isDue maxRecords).Nodup ∧
      (∀ f ∈ peekDueInspected limits d lane isDue maxRecords, f ∈ laneFiles d lane) ∧
      (peekDueInspected limits d lane isDue maxRecords).length ≤
        (d.state.lanes lane).count := by
  have hcount := hd.count lane
  unfold peekDueInspected
  rw [peekDue_exec hd]
  by_cases hzero : (d.state.lanes lane).count = 0
  · have hfiles : laneFiles d lane = [] := by
      rw [hcount] at hzero
      exact List.length_eq_zero_iff.1 hzero
    refine ⟨none, ?_⟩
    rw [if_pos hzero, if_pos hzero, ite_self, ite_self, hfiles]
    simp
  · have hpos : ¬ maxRecords ≤ 0 := by omega
    have hmin : min maxRecords.toNat (d.state.lanes lane).count = (d.state.lanes lane).count := by
      omega
    rw [if_neg hpos, if_neg hzero, if_neg hpos, if_neg hzero, hmin]
    obtain ⟨hsub, hle, hend⟩ := scanDue_spec limits d lane (d.state.lanes lane).headCursor isDue
      (List.range limits.capacity) (Nat.pos_of_ne_zero hzero)
    rw [Nat.zero_add] at hle
    have hperm : (ringFiles limits d lane (d.state.lanes lane).headCursor
        (List.range limits.capacity)).Perm (laneFiles d lane) := ringFiles_perm hd.toPlaced
    have hnodup := hsub.nodup (ringFiles_nodup hd.toPlaced)
    have hlive : ∀ f ∈ inspectedFiles limits d lane (d.state.lanes lane).headCursor
        (d.state.lanes lane).count isDue (List.range limits.capacity) 0, f ∈ laneFiles d lane :=
      fun f hf => hperm.mem_iff.1 (hsub.subset hf)
    generalize hseen : inspectedFiles limits d lane (d.state.lanes lane).headCursor
      (d.state.lanes lane).count isDue (List.range limits.capacity) 0 = seen at *
    generalize scanDue limits d lane (d.state.lanes lane).headCursor (d.state.lanes lane).count
      isDue (List.range limits.capacity) 0 = result at hend
    cases hend with
    | @due _ file hmem hdue =>
        refine ⟨some file.item, by rw [Nat.zero_add], ?_, ?_, hnodup, hlive, hle⟩
        · exact iff_of_true rfl ⟨file, hlive file hmem, hdue⟩
        · rintro item hitem
          exact ⟨file, hlive file hmem, Option.some.inj hitem, hdue⟩
    | limit hnone hlast =>
        -- as many records as the lane has were inspected, so all of them were
        rw [Nat.zero_add] at hlast
        have hlength : (ringFiles limits d lane (d.state.lanes lane).headCursor
            (List.range limits.capacity)).length ≤ seen.length := by
          rw [hperm.length_eq, hlast, hcount]
        have hall := hsub.eq_of_length_le hlength
        refine ⟨none, by rw [Nat.zero_add], ?_, ?_, hnodup, hlive, hle⟩
        · refine iff_of_false Bool.false_ne_true ?_
          rintro ⟨f, hf, hdue⟩
          have hfalse := hnone f (hall ▸ hperm.mem_iff.2 hf)
          rw [hdue] at hfalse
          exact Bool.noConfusion hfalse
        · rintro item hitem
          cases hitem
    | around _ hshort =>
        -- the walk met fewer records than the counter says
        rw [Nat.zero_add, hperm.length_eq, ← hcount] at hshort
        exact absurd hshort (lt_irrefl _)

/-! ## The records of the program -/

/-- The steps whose records compare with the times of the clock: an enqueued record has no next
attempt, and a moved one has none, that of the moved item or one that the clock gave. -/
def KeepsClock (other : Text → Option Datetime) (attemptOf : β → AttemptValue)
    (aware : Bool) (_ : QueueDir β) : QueueAction β → Prop
  | .enqueue _ input _ _ _ => Comparable other aware (attemptOf input.body)
  | .move item _ body => Comparable other aware (attemptOf (body.getD item.record.body))
  | _ => True

theorem EnqueueResult.body {lane : Lane} {input : RecordInput β} {fresh : Uuid}
    {deduplicate deduplicateGeneration : Bool} {x : Except QueueError (QueueItem β)}
    (h : EnqueueResult limits codec d lane input fresh deduplicate deduplicateGeneration t x)
    {f : SlotFile β} (hf : f ∈ t.slots) : f ∈ d.slots ∨ f.record.body = input.body := by
  rcases h.slots_or_linked with hslots | ⟨record, size, cursor, hp, -, -, -, ht⟩
  · rw [hslots] at hf
    exact Or.inl hf
  · rcases (mem_linked ht).1 hf with hf | rfl
    · exact Or.inl hf
    · exact Or.inr (prepareRecord_ok hp).2.2

/-- A property of the bodies that every step brings holds of every live record. -/
theorem QueueEffect.bodies {P : β → Prop} {a : QueueAction β}
    (hd : ∀ f ∈ d.slots, P f.record.body)
    (ha : match a with
      | .enqueue _ input _ _ _ => P input.body
      | .move item _ body => P (body.getD item.record.body)
      | _ => True)
    (h : QueueEffect limits codec d a t) : ∀ f ∈ t.slots, P f.record.body := by
  have henqueue : ∀ {lane input fresh deduplicate deduplicateGeneration} {u : QueueDir β} {x},
      P input.body →
        EnqueueResult limits codec d lane input fresh deduplicate deduplicateGeneration u x →
          ∀ f ∈ u.slots, P f.record.body := by
    intro lane input fresh deduplicate deduplicateGeneration u x hp h f hf
    rcases h.body hf with hf | hbody
    · exact hd f hf
    · rw [hbody]
      exact hp
  cases h with
  | enqueue h => exact henqueue ha h
  | complete h => exact fun f hf => hd f (h.subset hf)
  | move h =>
      cases h with
      | failed h => exact henqueue ha h
      | unreleased h hc => exact fun f hf => henqueue ha h f (hc.subset hf)
      | moved h hc => exact fun f hf => henqueue ha h f (hc.subset hf)
  | peek => exact hd
  | peekDue h =>
      rcases h with rfl | h
      · exact hd
      · exact fun f hf => hd f (h.slots.subset hf)
  | reconcile h => exact fun f hf => hd f (h.slots.subset hf)

/-- The live records compare with the times of the clock in every run. -/
theorem comparable_of_reachable {other : Text → Option Datetime}
    {attemptOf : β → AttemptValue} {aware : Bool}
    (h : (queueSystem limits codec).Reachable (KeepsClock other attemptOf aware) d) :
    ∀ f ∈ d.slots, Comparable other aware (attemptOf f.record.body) := by
  refine (reachable_induction (P := fun s => ∀ f ∈ s.slots,
    Comparable other aware (attemptOf f.record.body)) ?_ ?_ h).2
  · intro f hf
    exact absurd hf List.not_mem_nil
  · intro s t a _ hs hc heffect
    refine heffect.bodies (P := fun body => Comparable other aware (attemptOf body)) hs ?_
    cases a <;> exact hc

/-- `is_due` on the records of the program. -/
def dueAt (other : Text → Option Datetime) (attemptOf : β → AttemptValue)
    (now : Datetime) (record : QueueRecord β) : Bool :=
  queueRecordIsDue other (attemptOf record.body) now == some true

/-- In every reachable state, at every time and for every limit of at least the lane's count,
`is_due` raises on no record of the lane, and `peek_due` returns a due record exactly when the lane
has one. It inspects live records only, each once, and no more than the limit. -/
theorem peekDue_returns_due_iff (limits : QueueLimits) (codec : QueueCodec β)
    (other : Text → Option Datetime) (attemptOf : β → AttemptValue) (now : Datetime)
    (h : (queueSystem limits codec).Reachable (KeepsClock other attemptOf now.isAware) d)
    (lane : Lane) (maxRecords : Int)
    (hlimit : ((d.state.lanes lane).count : Int) ≤ maxRecords) :
    (∀ f ∈ laneFiles d lane,
      (queueRecordIsDue other (attemptOf f.record.body) now).isSome = true) ∧
    ∃ found : Option (QueueItem β),
      run (peekDue limits lane (dueAt other attemptOf now) maxRecords) d =
        (.ok (found, (peekDueInspected limits d lane (dueAt other attemptOf now)
          maxRecords).length), d) ∧
      (found.isSome = true ↔
        ∃ f ∈ laneFiles d lane, dueAt other attemptOf now f.record = true) ∧
      (∀ item, found = some item → ∃ f ∈ laneFiles d lane, f.item = item ∧
        dueAt other attemptOf now f.record = true) ∧
      (peekDueInspected limits d lane (dueAt other attemptOf now) maxRecords).Nodup ∧
      (∀ f ∈ peekDueInspected limits d lane (dueAt other attemptOf now) maxRecords,
        f ∈ laneFiles d lane) ∧
      ((peekDueInspected limits d lane (dueAt other attemptOf now) maxRecords).length :
        Int) ≤ maxRecords := by
  constructor
  · intro f hf
    exact queueRecordIsDue_isSome (comparable_of_reachable h f (List.mem_filter.1 hf).1)
  · obtain ⟨found, hrun, hiff, hitem, hnodup, hlive, hle⟩ :=
      peekDue_run (counted_of_reachable h) lane (dueAt other attemptOf now) hlimit
    exact ⟨found, hrun, hiff, hitem, hnodup, hlive, (Int.ofNat_le.2 hle).trans hlimit⟩

end Runs

/-! ## A walk over the end of the ring -/

/-- A ring of four slots. -/
def ringLimits : QueueLimits where
  segmentSize := 2
  maxSegments := 2
  maxRecords := 4
  maxRecordBytes := 16384
  recordMaxBytes := 8192
  reconcileMaxMutations := 22
  segmentSize_pos := by decide
  maxSegments_pos := by decide
  maxRecords_le := by decide
  reconcile_le := by decide

def attemptCodec : QueueCodec AttemptValue where
  canonicalUuid := sampleCodec.canonicalUuid
  encodedSize record :=
    sampleCodec.encodedSize ⟨record.recordId, record.generation, record.sequence, ()⟩ +
      match record.body with
      | .text value => 19 + value.length
      | _ => 0
  canonical := sampleCodec.canonical

/-- Five minutes after the start of a year. -/
def firstAttempt : Datetime := ⟨2026, 1, 1, 0, 5, 0, 0, none, by decide⟩

def laterAttempt : Datetime := ⟨2026, 1, 1, 0, 10, 0, 0, none, by decide⟩

/-- The text of a next attempt. -/
def attemptText (time : Datetime) : AttemptValue := .text (Str.ofText (Python.isoformat time))

/-- The enqueue of a record that may have a next attempt. -/
def enqueueAttempt (recordId : Uuid) (value : AttemptValue) : QueueAction AttemptValue :=
  .enqueue .deferred ⟨some recordId, none, value⟩ "" true false

def completedAttempt : QueueAction AttemptValue :=
  .complete ⟨⟨.deferred, 0, 1⟩, ⟨"00000000-0000-4000-8000-000000000002", 0, 1, .none⟩⟩

/-- Three deferred records, of which the second was completed: the head cursor is behind the first,
the only one that is due five minutes after the start of the year. -/
def passedRecord : QueueDir AttemptValue :=
  completedAttempt.perform ringLimits attemptCodec
    ((enqueueAttempt "00000000-0000-4000-8000-000000000003"
      (attemptText laterAttempt)).perform ringLimits attemptCodec
      ((enqueueAttempt "00000000-0000-4000-8000-000000000002" .none).perform ringLimits attemptCodec
        ((enqueueAttempt "00000000-0000-4000-8000-000000000001"
          (attemptText firstAttempt)).perform ringLimits attemptCodec
          QueueDir.initial)))

/-- The walk from the head cursor finds the first record after the end of the ring. -/
theorem passedRecord_found :
    ((passedRecord.state.lanes .deferred).count : Int) ≤ 2 ∧
    (∃ f ∈ laneFiles passedRecord .deferred,
      dueAt (fun _ => none) id firstAttempt f.record = true) ∧
    ∃ found : Option (QueueItem AttemptValue),
      run (peekDue ringLimits .deferred (dueAt (fun _ => none) id firstAttempt) 2) passedRecord =
        (.ok (found, (peekDueInspected ringLimits passedRecord .deferred
          (dueAt (fun _ => none) id firstAttempt) 2).length), passedRecord) ∧
      found.isSome = true := by
  have hreach : (queueSystem ringLimits attemptCodec).Reachable (KeepsClock (fun _ => none) id firstAttempt.isAware)
      passedRecord := by
    have hone := (System.Reachable.of_init (S := queueSystem ringLimits attemptCodec)
      (C := KeepsClock (fun _ => none) id firstAttempt.isAware) rfl).step
      (a := enqueueAttempt "00000000-0000-4000-8000-000000000001"
        (attemptText firstAttempt)) (comparable_isoformat _ firstAttempt) rfl
    have htwo := hone.step (a := enqueueAttempt "00000000-0000-4000-8000-000000000002" .none)
      (fun _ _ h => nomatch h) rfl
    have hthree := htwo.step (a := enqueueAttempt "00000000-0000-4000-8000-000000000003"
      (attemptText laterAttempt)) (comparable_isoformat _ laterAttempt) rfl
    exact hthree.step (a := completedAttempt) trivial rfl
  have hlimit : ((passedRecord.state.lanes .deferred).count : Int) ≤ 2 := by decide +kernel
  have hdue : ∃ f ∈ laneFiles passedRecord .deferred,
      dueAt (fun _ => none) id firstAttempt f.record = true := by
    decide +kernel
  obtain ⟨-, found, hrun, hiff, -⟩ := peekDue_returns_due_iff ringLimits attemptCodec
    (fun _ => none) id firstAttempt hreach .deferred 2 hlimit
  exact ⟨hlimit, hdue, found, hrun, hiff.2 hdue⟩

end WheelForge.Maintenance
