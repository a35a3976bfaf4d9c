import WheelForge.Maintenance.Enqueue

/-!
# What the other operations of the queue do

On exact counters `complete`, `_queue_move`, `peek` and `peek_due` are atomic as well
(`complete_spec`, `move_spec`, `peekDue_spec`); `peek` only reads (`peek_spec`).
-/

set_option autoImplicit false

namespace WheelForge.Maintenance

open WheelForge.Interaction
open WheelForge.Relational

/-! ## `complete` -/

section Completing

variable {β : Type} {limits : QueueLimits} {d s t : QueueDir β} {lane : Lane} {item : QueueItem β}
  {file f : SlotFile β}

/-- Reconciliation is atomic: it changes no winner. -/
theorem reconcile_spec (hd : Placed limits d) :
    ∃ t, Atomic limits (reconcile limits) d t (.ok ()) ∧ Reconciled limits d t := by
  obtain ⟨t, x, hatomic, ht⟩ := Atomic.of_ensures (ensures_reconcile hd) (by
    intro t x s _ hs
    exact ⟨hs.placed hd, Or.inl (hs.winner)⟩)
  cases x with
  | error e => exact ht.elim
  | ok _ => exact ⟨t, hatomic, ht⟩

/-- `read_state` returns a state within its ranges. -/
theorem readState_run (hd : Counted limits d) : run (readState limits) d = (.ok d.state, d) := by
  show Program.exec QueueDir.perform (if validState limits d.state then pure d.state
    else Program.raise (.runtime "maintenance queue state is invalid")) d = _
  rw [if_pos hd.valid]
  rfl

/-- The directory after a slot file was completed. -/
def QueueDir.released (limits : QueueLimits) (d : QueueDir β) (file : SlotFile β) : QueueDir β :=
  { d.unlinkSlot file.location with
    state := d.state.completed limits file.location file.size }

theorem mem_unlinkSlot (hfile : file ∈ d.slots) :
    f ∈ (d.unlinkSlot file.location).slots ↔ f ∈ d.slots ∧ f ≠ file := by
  refine Table.mem_deleteWhere.trans ?_
  constructor
  · rintro ⟨hf, hne⟩
    refine ⟨hf, ?_⟩
    rintro rfl
    simp at hne
  · rintro ⟨hf, hne⟩
    exact ⟨hf, decide_eq_false fun hl => hne (Table.eq_of_key_eq hf hfile hl)⟩

theorem unlinkSlot_perm (hfile : file ∈ d.slots) :
    d.slots.rows.Perm (file :: (d.unlinkSlot file.location).slots.rows) := by
  have hrows : d.slots.rows.Nodup := List.Nodup.of_map _ d.slots.nodup
  have hnot : file ∉ (d.unlinkSlot file.location).slots.rows :=
    fun h => ((mem_unlinkSlot hfile).1 h).2 rfl
  have hnodup : (d.unlinkSlot file.location).slots.rows.Nodup :=
    List.Nodup.of_map _ (d.unlinkSlot file.location).slots.nodup
  refine (List.perm_ext_iff_of_nodup hrows (List.nodup_cons.2 ⟨hnot, hnodup⟩)).2 ?_
  intro f
  rw [List.mem_cons]
  by_cases hf : f = file
  · subst hf
    exact iff_of_true hfile (Or.inl rfl)
  · rw [or_iff_right hf]
    exact ⟨fun h => (mem_unlinkSlot hfile).2 ⟨h, hf⟩, fun h => ((mem_unlinkSlot hfile).1 h).1⟩

theorem released_laneFiles (limits : QueueLimits) (hfile : file ∈ d.slots) (lane : Lane) :
    (laneFiles d lane).Perm ((if file.location.lane = lane then [file] else []) ++
      laneFiles (d.released limits file) lane) := by
  refine ((unlinkSlot_perm hfile).filter _).trans (List.Perm.of_eq ?_)
  by_cases hl : file.location.lane = lane
  · rw [if_pos hl]
    exact List.filter_cons_of_pos (decide_eq_true hl)
  · rw [if_neg hl]
    refine List.filter_cons_of_neg ?_
    rw [decide_eq_true_eq]
    exact hl

theorem completed_lanes_self (state : QueueState) (location : Location) (size : Nat) :
    (state.completed limits location size).lanes location.lane =
      { (state.lanes location.lane) with
        count := (state.lanes location.lane).count - 1
        bytes := (state.lanes location.lane).bytes - size
        headCursor := (location.cursor limits + 1) % limits.capacity } :=
  Function.update_self ..

theorem completed_lanes_ne (state : QueueState) (location : Location) (size : Nat)
    (h : lane ≠ location.lane) :
    (state.completed limits location size).lanes lane = state.lanes lane :=
  Function.update_of_ne h ..

/-- A directory without one of its slot files. -/
theorem Placed.unlinkSlot (hd : Placed limits d) (file : SlotFile β) {state : QueueState}
    (hvalid : validState limits state = true) :
    Placed limits { d.unlinkSlot file.location with state := state } :=
  have hsub : (d.unlinkSlot file.location).slots.rows.Sublist d.slots.rows := List.filter_sublist
  { hd with
    file_within := fun f hf => hd.file_within f (hsub.subset hf)
    records_le := hsub.length_le.trans hd.records_le
    bytes_le := (sum_le_of_sublist (hsub.map _)).trans hd.bytes_le
    sequences := hd.sequences.sublist (hsub.map _)
    valid := hvalid }

/-- The counters stay exact. -/
theorem Counted.released (hd : Counted limits d) (hfile : file ∈ d.slots) :
    Counted limits (d.released limits file) := by
  have hlane : ∀ lane, (laneFiles d lane).length =
      (if file.location.lane = lane then 1 else 0) +
        (laneFiles (d.released limits file) lane).length ∧
      ((laneFiles d lane).map SlotFile.size).sum =
        (if file.location.lane = lane then file.size else 0) +
          ((laneFiles (d.released limits file) lane).map SlotFile.size).sum := by
    intro lane
    have hperm := released_laneFiles limits hfile lane
    rw [hperm.length_eq, (hperm.map SlotFile.size).sum_nat]
    by_cases hl : file.location.lane = lane
    · rw [if_pos hl, if_pos hl, if_pos hl]
      simp [Nat.add_comm]
    · rw [if_neg hl, if_neg hl, if_neg hl]
      simp
  have hstate : ∀ lane, ((d.state.completed limits file.location file.size).lanes lane).count =
      (laneFiles (d.released limits file) lane).length ∧
      ((d.state.completed limits file.location file.size).lanes lane).bytes =
        ((laneFiles (d.released limits file) lane).map SlotFile.size).sum ∧
      ((d.state.completed limits file.location file.size).lanes lane).segments =
        (d.state.lanes lane).segments := by
    intro lane
    obtain ⟨hcount, hbytes⟩ := hlane lane
    rw [← hd.count] at hcount
    rw [← hd.bytes] at hbytes
    by_cases hl : lane = file.location.lane
    · subst hl
      rw [completed_lanes_self]
      rw [if_pos rfl] at hcount hbytes
      dsimp only
      omega
    · rw [completed_lanes_ne _ _ _ hl]
      rw [if_neg (Ne.symm hl)] at hcount hbytes
      omega
  have hvalid : validState limits (d.state.completed limits file.location file.size) = true := by
    rw [validState_iff]
    intro lane
    obtain ⟨h₁, h₂, h₃, h₄, h₅⟩ := validState_iff.1 hd.valid lane
    by_cases hl : lane = file.location.lane
    · subst hl
      rw [completed_lanes_self]
      refine ⟨Nat.mod_lt _ limits.capacity_pos, h₂, ?_, ?_, h₅⟩
      · exact (Nat.sub_le _ _).trans h₃
      · exact (Nat.sub_le _ _).trans h₄
    · rw [completed_lanes_ne _ _ _ hl]
      exact ⟨h₁, h₂, h₃, h₄, h₅⟩
  have hplaced : Placed limits (d.released limits file) := hd.toPlaced.unlinkSlot file hvalid
  refine { hplaced with temps := hd.temps, count := ?_, bytes := ?_, segments := ?_,
                        sequence_lt := ?_ }
  · exact fun lane => (hstate lane).1
  · exact fun lane => (hstate lane).2.1
  · exact fun lane => ((hstate lane).2.2).trans (hd.segments lane)
  · exact fun f hf => hd.sequence_lt f ((mem_unlinkSlot hfile).1 hf).1

/-- How `complete` ends. -/
inductive CompleteResult (limits : QueueLimits) (d : QueueDir β) (item : QueueItem β) :
    QueueDir β → Except QueueError Unit → Prop
  | stale {t : QueueDir β} (h : Free d item.location) (ht : Reconciled limits d t) :
      CompleteResult limits d item t (.ok ())
  | foreign {file : SlotFile β} (hfile : file ∈ d.slots) (hloc : file.location = item.location)
      (h : file.record.recordId ≠ item.record.recordId ∨
        file.record.generation ≠ item.record.generation) :
      CompleteResult limits d item d (.error (.runtime "maintenance queue ownership changed"))
  | released {file : SlotFile β} (hfile : file ∈ d.slots) (hloc : file.location = item.location)
      (hid : file.record.recordId = item.record.recordId)
      (hgen : file.record.generation = item.record.generation) :
      CompleteResult limits d item (d.released limits file) (.ok ())

/-- The specification of `complete`. -/
theorem complete_spec (hd : Counted limits d) (item : QueueItem β) :
    ∃ t x, Atomic limits (complete limits item) d t x ∧ CompleteResult limits d item t x := by
  cases hf : d.slots.find? item.location with
  | none =>
      have hfree : Free d item.location := free_iff.2 hf
      obtain ⟨t, x, hatomic, ht⟩ : ∃ t x, Atomic limits (complete limits item) d t x ∧
          Yields (fun _ => Reconciled limits d) t x := by
        refine Atomic.of_ensures (C := Tidying d) ?_ ?_
        · unfold complete
          apply ensures_readState (Tidying.refl hd.toPlaced) hd.valid
          apply ensures_step (Tidying.refl hd.toPlaced)
          dsimp only [QueueDir.answer]
          rw [readSlot_eq hd.toPlaced, hf]
          exact ensures_reconcile hd.toPlaced
        · intro t x s _ hs
          exact ⟨hs.placed hd.toPlaced, Or.inl (hs.winner)⟩
      cases x with
      | error e => exact ht.elim
      | ok _ => exact ⟨t, _, hatomic, .stale hfree ht⟩
  | some file =>
      have hmem : file ∈ d.slots := Table.mem_of_find? hf
      have hloc : file.location = item.location := Table.key_of_find? hf
      by_cases hown : file.record.recordId ≠ item.record.recordId ∨
          file.record.generation ≠ item.record.generation
      · refine Atomic.of_ensures (C := Eq d) ?_ ?_
        · unfold complete
          apply ensures_readState rfl hd.valid
          apply ensures_step rfl
          dsimp only [QueueDir.answer]
          rw [readSlot_eq hd.toPlaced, hf]
          refine ensures_then hown ?_
          exact .foreign hmem hloc hown
        · rintro t x s _ rfl
          exact ⟨hd.toPlaced, Or.inl rfl⟩
      · have hids : file.record.recordId = item.record.recordId ∧
            file.record.generation = item.record.generation := by
          rw [not_or, not_not, not_not] at hown
          exact hown
        have hresult : CompleteResult limits d item (d.released limits file) (.ok ()) :=
          .released hmem hloc hids.1 hids.2
        obtain ⟨t, x, hatomic, rfl, rfl⟩ : ∃ t x, Atomic limits (complete limits item) d t x ∧
            x = .ok () ∧ t = d.released limits file := by
          refine Atomic.of_ensures (C := fun s => Placed limits s ∧ (s = d ∨ s.slots =
            (d.released limits file).slots)) ?_ ?_
          · unfold complete
            apply ensures_readState ⟨hd.toPlaced, Or.inl rfl⟩ hd.valid
            apply ensures_step ⟨hd.toPlaced, Or.inl rfl⟩
            dsimp only [QueueDir.answer]
            rw [readSlot_eq hd.toPlaced, hf]
            refine ensures_else hown ?_
            apply ensures_step ⟨hd.toPlaced, Or.inl rfl⟩
            dsimp only [QueueDir.after]
            rw [← hloc]
            apply ensures_last ⟨hd.toPlaced.unlinkSlot file hd.valid, Or.inr rfl⟩
            exact ⟨rfl, rfl⟩
          · rintro t x s ⟨-, rfl⟩ ⟨hs, hcase⟩
            refine ⟨hs, ?_⟩
            rcases hcase with rfl | hslots
            · exact Or.inl rfl
            · exact Or.inr (winner_congr (by rw [hslots]))
        exact ⟨_, _, hatomic, hresult⟩

theorem EnqueueResult.counted {codec : QueueCodec β} {input : RecordInput β} {fresh : Uuid}
    {deduplicate deduplicateGeneration : Bool} {x : Except QueueError (QueueItem β)}
    (hd : Counted limits d)
    (h : EnqueueResult limits codec d lane input fresh deduplicate deduplicateGeneration t x) :
    Counted limits t := by
  cases h with
  | invalid => exact hd
  | existing => exact hd
  | oversized => exact hd
  | refused => exact hd.refused
  | linked _ _ _ hroom hcursor ht => exact ht.counted hd hroom hcursor.lt

theorem CompleteResult.counted {x : Except QueueError Unit} (hd : Counted limits d)
    (h : CompleteResult limits d item t x) : Counted limits t := by
  cases h with
  | stale _ ht => exact ht.toCounted
  | foreign => exact hd
  | released hfile => exact hd.released hfile

end Completing

/-! ## `_queue_move` -/

section Moving

variable {β : Type} {limits : QueueLimits} {codec : QueueCodec β} {d t u : QueueDir β}
  {item place : QueueItem β} {destination : Lane} {body : Option β}

/-- How `_queue_move` ends. -/
inductive MoveResult (limits : QueueLimits) (codec : QueueCodec β) (d : QueueDir β)
    (item : QueueItem β) (destination : Lane) (body : Option β) :
    QueueDir β → Except QueueError (QueueItem β) → Prop
  | failed {t : QueueDir β} {e : QueueError}
      (h : EnqueueResult limits codec d destination (movedInput item body) "" false true t
        (.error e)) :
      MoveResult limits codec d item destination body t (.error e)
  | unreleased {t u : QueueDir β} {place : QueueItem β} {e : QueueError}
      (h : EnqueueResult limits codec d destination (movedInput item body) "" false true t
        (.ok place)) (hc : CompleteResult limits t item u (.error e)) :
      MoveResult limits codec d item destination body u (.error e)
  | moved {t u : QueueDir β} {place : QueueItem β}
      (h : EnqueueResult limits codec d destination (movedInput item body) "" false true t
        (.ok place)) (hc : CompleteResult limits t item u (.ok ())) :
      MoveResult limits codec d item destination body u (.ok place)

theorem MoveResult.counted {x : Except QueueError (QueueItem β)} (hd : Counted limits d)
    (h : MoveResult limits codec d item destination body u x) : Counted limits u := by
  cases h with
  | failed h => exact h.counted hd
  | unreleased h hc => exact hc.counted (h.counted hd)
  | moved h hc => exact hc.counted (h.counted hd)

/-- The specification of `_queue_move`. -/
theorem move_spec (hd : Counted limits d) (codec : QueueCodec β) (item : QueueItem β)
    (destination : Lane) (body : Option β) :
    ∃ u x, run (queueMove limits codec item destination body) d = (x, u) ∧
      MoveResult limits codec d item destination body u x := by
  obtain ⟨t, x, henqueue, ht⟩ :=
    enqueue_spec hd codec destination (movedInput item body) "" false true
  have hrun := henqueue.run
  unfold run at hrun ⊢
  unfold queueMove
  rw [Program.exec_bind, hrun]
  cases x with
  | error e => exact ⟨t, _, rfl, .failed ht⟩
  | ok place =>
      obtain ⟨u, y, hcomplete, hu⟩ := complete_spec (ht.counted hd) item
      have hrun' := hcomplete.run
      unfold run at hrun'
      dsimp only
      rw [Program.exec_bind, hrun']
      cases y with
      | error e => exact ⟨u, _, rfl, .unreleased ht hu⟩
      | ok _ => exact ⟨u, _, rfl, .moved ht hu⟩

/-- A move is atomic when the directory with both records has the winners of an end. -/
theorem move_atomic (hd : Counted limits d) (codec : QueueCodec β) (item : QueueItem β)
    (destination : Lane) (body : Option β)
    (hmid : ∀ t place u x, EnqueueResult limits codec d destination (movedInput item body) ""
      false true t (.ok place) → CompleteResult limits t item u x →
        Winner t = Winner d ∨ Winner t = Winner u) :
    ∃ u x, Atomic limits (queueMove limits codec item destination body) d u x ∧
      MoveResult limits codec d item destination body u x := by
  obtain ⟨t, x, henqueue, ht⟩ :=
    enqueue_spec hd codec destination (movedInput item body) "" false true
  cases x with
  | error e => exact ⟨t, _, henqueue.bind_error, .failed ht⟩
  | ok place =>
      obtain ⟨u, y, hcomplete, hu⟩ := complete_spec (ht.counted hd) item
      have hw := hmid t place u y ht hu
      cases y with
      | error e =>
          exact ⟨u, _, henqueue.bind hcomplete.bind_error hw, .unreleased ht hu⟩
      | ok _ =>
          exact ⟨u, _, henqueue.bind (hcomplete.bind (Atomic.ret place) (Or.inr rfl)) hw,
            .moved ht hu⟩

end Moving

/-! ## `peek` and `peek_due` -/

section Peeking

variable {β : Type} {limits : QueueLimits} {d t : QueueDir β} {lane : Lane}

/-- The search around the ring finds no slot file exactly when the lane has none. -/
theorem findItem_eq_none_iff (hd : Placed limits d) (lane : Lane) (start : Nat) :
    findItem limits d lane start = none ↔ laneFiles d lane = [] := by
  unfold findItem
  rw [List.findSome?_eq_none_iff, List.eq_nil_iff_forall_not_mem]
  constructor
  · intro hnone f hf
    obtain ⟨hmem, hl⟩ := List.mem_filter.1 hf
    obtain rfl : f.location.lane = lane := of_decide_eq_true hl
    have hwithin := hd.file_within f hmem
    obtain ⟨k, hk, hcursor⟩ := exists_offset (Location.cursor_lt hwithin hd.segment_lt) start
    have hslot := hnone k (List.mem_range.2 hk)
    rw [hcursor, locationAt_cursor hwithin.2, readSlot_eq hd,
      show d.slots.find? f.location = some f from Table.find?_of_mem hmem] at hslot
    cases hslot
  · intro hnone offset _
    rw [readSlot_eq hd]
    apply Table.find?_eq_none_iff.2
    intro f hf hloc
    refine hnone f (List.mem_filter.2 ⟨hf, decide_eq_true ?_⟩)
    exact congrArg Location.lane hloc

/-- The specification of `peek`: it returns what the search from the head cursor finds. -/
theorem peek_spec (hd : Counted limits d) (lane : Lane) :
    Atomic limits (peek limits lane) d d
      (.ok ((findItem limits d lane (d.state.lanes lane).headCursor).map SlotFile.item)) := by
  have hC : Placed limits d ∧ (Winner d = Winner d ∨ Winner d = Winner d) :=
    ⟨hd.toPlaced, Or.inl rfl⟩
  unfold Atomic peek
  apply ensures_readState hC hd.valid
  by_cases hcount : (d.state.lanes lane).count = 0
  · refine ensures_then hcount ?_
    have hfiles : laneFiles d lane = [] := by
      rw [hd.count] at hcount
      exact List.length_eq_zero_iff.1 hcount
    rw [(findItem_eq_none_iff hd.toPlaced lane _).2 hfiles]
    exact ⟨rfl, rfl⟩
  · refine ensures_else hcount ?_
    apply ensures_step hC
    dsimp only [QueueDir.answer]
    cases hfind : findItem limits d lane (d.state.lanes lane).headCursor with
    | some file => exact ⟨rfl, rfl⟩
    | none =>
        have hfiles := (findItem_eq_none_iff hd.toPlaced lane _).1 hfind
        rw [hd.count, hfiles] at hcount
        exact absurd rfl hcount

theorem findItem_eq_some (hd : Placed limits d) {start : Nat} {file : SlotFile β}
    (h : findItem limits d lane start = some file) : file ∈ d.slots := by
  unfold findItem at h
  obtain ⟨offset, -, hslot⟩ := List.exists_of_findSome?_eq_some h
  rw [readSlot_eq hd] at hslot
  exact Table.mem_of_find? hslot

/-- The item that the loop of `peek_due` returns is that of a slot file. -/
theorem scanDue_item (hd : Placed limits d) {start recordLimit : Nat}
    {isDue : QueueRecord β → Bool} {offsets : List Nat} {inspected n : Nat} {item : QueueItem β}
    (h : scanDue limits d lane start recordLimit isDue offsets inspected = .inl (some item, n)) :
    ∃ file ∈ d.slots, file.item = item := by
  induction offsets generalizing inspected with
  | nil => cases h
  | cons offset offsets ih =>
      unfold scanDue at h
      split at h
      · exact ih h
      · next file hslot =>
        split at h
        · cases h
          rw [readSlot_eq hd] at hslot
          exact ⟨file, Table.mem_of_find? hslot, rfl⟩
        · split at h
          · cases h
          · exact ih h

/-- How `peek_due` ends: it changes nothing, or reconciles and returns no item. -/
inductive PeekDueResult (limits : QueueLimits) (d : QueueDir β) :
    QueueDir β → Except QueueError (Option (QueueItem β) × Nat) → Prop
  | none (n : Nat) : PeekDueResult limits d d (.ok (none, n))
  | item {file : SlotFile β} (hfile : file ∈ d.slots) (n : Nat) :
      PeekDueResult limits d d (.ok (some file.item, n))
  | reconciled {t : QueueDir β} (ht : Reconciled limits d t) (n : Nat) :
      PeekDueResult limits d t (.ok (Option.none, n))

/-- The specification of `peek_due`. -/
theorem peekDue_spec (hd : Counted limits d) (lane : Lane) (isDue : QueueRecord β → Bool)
    (maxRecords : Int) :
    ∃ t x, Atomic limits (peekDue limits lane isDue maxRecords) d t x ∧
      PeekDueResult limits d t x := by
  have hC := Tidying.refl hd.toPlaced
  refine Atomic.of_ensures (C := Tidying d) ?_ ?_
  · unfold peekDue
    by_cases hmax : maxRecords ≤ 0
    · exact ensures_then hmax (.none 0)
    · refine ensures_else hmax ?_
      apply ensures_readState hC hd.valid
      by_cases hcount : (d.state.lanes lane).count = 0
      · exact ensures_then hcount (.none 0)
      · refine ensures_else hcount ?_
        apply ensures_step hC
        dsimp only [QueueDir.answer]
        split
        · next result hscan =>
          obtain ⟨found, n⟩ := result
          cases found with
          | none => exact PeekDueResult.none n
          | some item =>
              obtain ⟨file, hfile, rfl⟩ := scanDue_item hd.toPlaced hscan
              exact PeekDueResult.item hfile n
        · apply ensures_bind (ensures_reconcile hd.toPlaced)
          intro _ t ht
          exact PeekDueResult.reconciled ht _
  · intro t x s _ hs
    exact ⟨hs.placed hd.toPlaced, Or.inl hs.winner⟩

/-- The directory after `peek_due`. -/
theorem PeekDueResult.dir {x : Except QueueError (Option (QueueItem β) × Nat)}
    (h : PeekDueResult limits d t x) : t = d ∨ Reconciled limits d t := by
  cases h with
  | none => exact Or.inl rfl
  | item => exact Or.inl rfl
  | reconciled ht => exact Or.inr ht

end Peeking

end WheelForge.Maintenance
