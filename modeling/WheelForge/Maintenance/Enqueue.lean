import WheelForge.Maintenance.Reconcile

/-!
# What an enqueue does

`Atomic` says of a program of the queue how it ends, and that wherever the process stops the winners
are those of the directory before or those of the directory after, so that reconciliation finishes
or undoes it. On exact counters an enqueue is atomic (`enqueue_spec`): it ends as `EnqueueResult`
says, and when it links its record it takes the first free slot from the write cursor on and keeps
the counters exact (`Linked.counted`).
-/

set_option autoImplicit false

namespace WheelForge.Maintenance

open WheelForge.Interaction
open WheelForge.Interaction.Program (Meets meets_bind exec exec_run Answered)
open WheelForge.Relational

/-! ## Atomic programs -/

section Atomicity

variable {β α γ : Type} {limits : QueueLimits} {d t u : QueueDir β}

/-- `p` ends in `t` with `x`, and wherever it stops the winners are those of `d` or of `t`. -/
def Atomic (limits : QueueLimits) (p : QueueProgram β α) (d t : QueueDir β)
    (x : Except QueueError α) : Prop :=
  Ensures (fun s => Placed limits s ∧ (Winner s = Winner d ∨ Winner s = Winner t)) p d
    fun u y => y = x ∧ u = t

theorem Atomic.run {p : QueueProgram β α} {x : Except QueueError α} (h : Atomic limits p d t x) :
    run p d = (x, t) := by
  obtain ⟨hx, ht⟩ := (exec_run QueueDir.perform p d).meets h
  exact Prod.ext hx ht

/-- A program is atomic when every state it may stop in has the winners of an end. -/
theorem Atomic.of_ensures {p : QueueProgram β α} {C : QueueDir β → Prop}
    {Q : QueueDir β → Except QueueError α → Prop} (h : Ensures C p d Q)
    (hC : ∀ t x s, Q t x → C s → Placed limits s ∧ (Winner s = Winner d ∨ Winner s = Winner t)) :
    ∃ t x, Atomic limits p d t x ∧ Q t x := by
  have hQ := (exec_run QueueDir.perform p d).meets h
  refine ⟨_, _, h.exact.weaken ?_ fun _ _ => id, hQ⟩
  intro s _ hs
  exact hC _ _ s hQ hs

/-- A program without steps. -/
theorem Atomic.ret (a : α) : Atomic limits (pure a) d d (.ok a) := ⟨rfl, rfl⟩

theorem Atomic.raise (e : QueueError) :
    Atomic limits (Program.raise e : QueueProgram β α) d d (.error e) := ⟨rfl, rfl⟩

/-- Sequencing, when the state in the middle has the winners of an end. -/
theorem Atomic.bind {p : QueueProgram β α} {f : α → QueueProgram β γ} {a : α}
    {y : Except QueueError γ} (hp : Atomic limits p d t (.ok a)) (hf : Atomic limits (f a) t u y)
    (hmid : Winner t = Winner d ∨ Winner t = Winner u) : Atomic limits (p >>= f) d u y := by
  apply meets_bind.2
  refine Meets.weaken hp ?_ ?_
  · rintro s _ ⟨hs, hw⟩
    refine ⟨hs, ?_⟩
    rcases hw with hw | hw
    · exact Or.inl hw
    · exact hmid.imp hw.trans hw.trans
  · rintro s x ⟨rfl, rfl⟩
    refine Meets.weaken hf ?_ fun _ _ => id
    rintro v _ ⟨hv, hw⟩
    refine ⟨hv, ?_⟩
    rcases hw with hw | hw
    · exact hmid.imp hw.trans hw.trans
    · exact Or.inr hw

/-- An exception of the first program ends the sequence. -/
theorem Atomic.bind_error {p : QueueProgram β α} {f : α → QueueProgram β γ} {e : QueueError}
    (hp : Atomic limits p d t (.error e)) : Atomic limits (p >>= f) d t (.error e) := by
  apply meets_bind.2
  refine Meets.weaken hp (fun _ _ => id) ?_
  rintro s x ⟨rfl, rfl⟩
  exact ⟨rfl, rfl⟩

/-- The winners depend on the slot files alone. -/
theorem winner_congr {s : QueueDir β} (h : s.slots.rows = d.slots.rows) : Winner s = Winner d := by
  have hslots : s.slots = d.slots := Table.ext_rows h
  funext f
  unfold Winner
  rw [hslots]

end Atomicity

/-! ## Locations and cursors -/

section Cursors

variable {limits : QueueLimits}

theorem locationAt_cursor {l : Location} (h : l.slot < limits.segmentSize) :
    locationAt limits l.lane (l.cursor limits) = l := by
  obtain ⟨lane, segment, slot⟩ := l
  have hdiv : (segment * limits.segmentSize + slot) / limits.segmentSize = segment := by
    rw [Nat.mul_comm, Nat.mul_add_div limits.segmentSize_pos, Nat.div_eq_of_lt h, Nat.add_zero]
  have hmod : (segment * limits.segmentSize + slot) % limits.segmentSize = slot := by
    rw [Nat.mul_comm, Nat.mul_add_mod, Nat.mod_eq_of_lt h]
  unfold locationAt Location.cursor
  rw [hdiv, hmod]

theorem cursor_locationAt (limits : QueueLimits) (lane : Lane) (cursor : Nat) :
    (locationAt limits lane cursor).cursor limits = cursor :=
  Nat.div_add_mod' cursor limits.segmentSize

theorem locationAt_injective {lane : Lane} {c c' : Nat}
    (h : locationAt limits lane c = locationAt limits lane c') : c = c' := by
  rw [← cursor_locationAt limits lane c, h, cursor_locationAt]

theorem locationAt_slot_lt (lane : Lane) (cursor : Nat) :
    (locationAt limits lane cursor).slot < limits.segmentSize :=
  Nat.mod_lt _ limits.segmentSize_pos

theorem locationAt_segment_lt (lane : Lane) {cursor : Nat} (h : cursor < limits.capacity) :
    (locationAt limits lane cursor).segment < limits.maxSegments :=
  Nat.div_lt_of_lt_mul h

/-- Every cursor is met on the way around the ring. -/
theorem exists_offset {c : Nat} (hc : c < limits.capacity) (start : Nat) :
    ∃ k < limits.capacity, (start + k) % limits.capacity = c := by
  have hstart : start % limits.capacity < limits.capacity := Nat.mod_lt _ limits.capacity_pos
  refine ⟨(c + limits.capacity - start % limits.capacity) % limits.capacity,
    Nat.mod_lt _ limits.capacity_pos, ?_⟩
  rw [Nat.add_mod_mod, Nat.add_mod, Nat.add_mod_mod, show start % limits.capacity +
    (c + limits.capacity - start % limits.capacity) = c + limits.capacity by omega,
    Nat.add_mod_right, Nat.mod_eq_of_lt hc]

end Cursors

/-! ## Segments that an enqueue creates -/

section Growing

variable {β : Type} {limits : QueueLimits} {d s : QueueDir β} {lane : Lane}

/-- The segments of `s` are those of `d` and new ones of a lane. -/
structure Grown (limits : QueueLimits) (d : QueueDir β) (lane : Lane) (s : QueueDir β) :
    Prop where
  sub : ∀ p ∈ d.segments, p ∈ s.segments
  lane_only : ∀ p ∈ s.segments, p ∈ d.segments ∨ p.1 = lane
  nodup : s.segments.Nodup
  lt : ∀ p ∈ s.segments, p.2 < limits.maxSegments

theorem Grown.refl (hd : Placed limits d) (lane : Lane) : Grown limits d lane d :=
  ⟨fun _ h => h, fun _ h => Or.inl h, hd.segments_nodup, hd.segment_lt⟩

theorem mem_mkdirSegment {n : Nat} {p : Lane × Nat} :
    p ∈ (s.mkdirSegment lane n).segments ↔ p ∈ s.segments ∨ p = (lane, n) := by
  unfold QueueDir.mkdirSegment
  split
  · next h =>
    constructor
    · exact Or.inl
    · rintro (hp | rfl)
      · exact hp
      · exact h
  · rw [List.mem_append, List.mem_singleton]

theorem mkdirSegment_slots (n : Nat) : (s.mkdirSegment lane n).slots = s.slots := by
  unfold QueueDir.mkdirSegment
  split <;> rfl

theorem mkdirSegment_temps (n : Nat) : (s.mkdirSegment lane n).temps = s.temps := by
  unfold QueueDir.mkdirSegment
  split <;> rfl

theorem mkdirSegment_state (n : Nat) : (s.mkdirSegment lane n).state = s.state := by
  unfold QueueDir.mkdirSegment
  split <;> rfl

theorem Grown.mkdirSegment (h : Grown limits d lane s) {n : Nat} (hn : n < limits.maxSegments) :
    Grown limits d lane (s.mkdirSegment lane n) where
  sub p hp := mem_mkdirSegment.2 (Or.inl (h.sub p hp))
  lane_only p hp := by
    rcases mem_mkdirSegment.1 hp with hp | rfl
    · exact h.lane_only p hp
    · exact Or.inr rfl
  nodup := by
    unfold QueueDir.mkdirSegment
    split
    · exact h.nodup
    · next hnot =>
      exact List.nodup_append.2 ⟨h.nodup, List.nodup_singleton _, by
        rintro a ha b hb rfl
        exact hnot (List.mem_singleton.1 hb ▸ ha)⟩
  lt p hp := by
    rcases mem_mkdirSegment.1 hp with hp | rfl
    · exact h.lt p hp
    · exact hn

/-- Only the segments of its lane are counted anew. -/
theorem Grown.laneSegments (h : Grown limits d lane s) (hd : Placed limits d) {other : Lane}
    (hne : other ≠ lane) :
    (laneSegments s other).length = (laneSegments d other).length := by
  apply laneSegments_length_eq hd.segments_nodup h.nodup
  rintro p rfl
  constructor
  · intro hp
    exact (h.lane_only p hp).resolve_right hne
  · exact h.sub p

end Growing

/-! ## Directories with one more record -/

section Linking

variable {β : Type} {limits : QueueLimits} {d s : QueueDir β} {file : SlotFile β}

/-- There is room for a record in `d`. -/
structure Room (limits : QueueLimits) (d : QueueDir β) (record : QueueRecord β) (size : Nat) :
    Prop where
  records : d.slots.rows.length < limits.maxRecords
  bytes : (d.slots.rows.map SlotFile.size).sum + size ≤ limits.maxRecordBytes
  sequence : record.sequence = d.state.nextSequence

/-- A directory on the way of an enqueue, with the slot files of before. -/
theorem placed_of_same_rows {lane : Lane} (hd : Placed limits d) (hg : Grown limits d lane s)
    (hslots : s.slots = d.slots) (hstate : s.state = d.state) (hlen : s.temps.length ≤ 1)
    (htemps : ∀ l ∈ s.temps, l.Within limits s) : Placed limits s where
  segments_nodup := hg.nodup
  segment_lt := hg.lt
  file_within f hf := by
    rw [hslots] at hf
    exact ⟨hg.sub _ (hd.file_within f hf).1, (hd.file_within f hf).2⟩
  temp_within := htemps
  temps_le := hlen
  records_le := by
    rw [hslots]
    exact hd.records_le
  bytes_le := by
    rw [hslots]
    exact hd.bytes_le
  sequences := by
    rw [hslots]
    exact hd.sequences
  valid := by
    rw [hstate]
    exact hd.valid

/-- A directory on the way of an enqueue, with the new slot file. -/
theorem placed_of_new_row (file : SlotFile β) (hd : Counted limits d) (hroom : Room limits d file.record file.size)
    (hg : Grown limits d file.location.lane s) (hrows : s.slots.rows = d.slots.rows ++ [file])
    (hfile : file.location.Within limits s) (hvalid : validState limits s.state = true)
    (hlen : s.temps.length ≤ 1) (htemps : ∀ l ∈ s.temps, l.Within limits s) :
    Placed limits s where
  segments_nodup := hg.nodup
  segment_lt := hg.lt
  file_within f hf := by
    have hf : f ∈ d.slots.rows ++ [file] := hrows ▸ hf
    rcases List.mem_append.1 hf with hf | hf
    · exact ⟨hg.sub _ (hd.file_within f hf).1, (hd.file_within f hf).2⟩
    · rw [List.mem_singleton.1 hf]
      exact hfile
  temp_within := htemps
  temps_le := hlen
  records_le := by
    rw [hrows, List.length_append, List.length_singleton]
    exact hroom.records
  bytes_le := by
    rw [hrows, List.map_append, List.sum_append]
    simpa using hroom.bytes
  sequences := by
    rw [hrows, List.map_append]
    refine List.nodup_append.2 ⟨hd.sequences, List.nodup_singleton _, ?_⟩
    rintro a ha b hb rfl
    obtain ⟨f, hf, heq⟩ := List.mem_map.1 ha
    have hlt := hd.sequence_lt f hf
    have hb : a = file.record.sequence := List.mem_singleton.1 hb
    rw [hroom.sequence] at hb
    omega
  valid := hvalid

end Linking

section Enqueuing

variable {β : Type} {limits : QueueLimits} {d s t : QueueDir β} {lane : Lane}
  {record : QueueRecord β} {size cursor : Nat}

theorem validState_iff {state : QueueState} :
    validState limits state = true ↔ ∀ lane,
      (state.lanes lane).headCursor < limits.capacity ∧
        (state.lanes lane).writeCursor < limits.capacity ∧
        (state.lanes lane).count ≤ limits.maxRecords ∧
        (state.lanes lane).bytes ≤ limits.maxRecordBytes ∧
        (state.lanes lane).segments ≤ limits.maxSegments := by
  unfold validState
  rw [List.all_eq_true]
  constructor
  · intro h lane
    have hlane := h lane (by cases lane <;> simp [Lane.all])
    simp only [Bool.and_eq_true, decide_eq_true_eq] at hlane
    obtain ⟨⟨⟨⟨h₁, h₂⟩, h₃⟩, h₄⟩, h₅⟩ := hlane
    exact ⟨h₁, h₂, h₃, h₄, h₅⟩
  · intro h lane _
    obtain ⟨h₁, h₂, h₃, h₄, h₅⟩ := h lane
    simp only [Bool.and_eq_true, decide_eq_true_eq]
    exact ⟨⟨⟨⟨h₁, h₂⟩, h₃⟩, h₄⟩, h₅⟩

/-- No slot file has the place. -/
def Free (d : QueueDir β) (location : Location) : Prop := ∀ f ∈ d.slots, f.location ≠ location

theorem free_iff {location : Location} : Free d location ↔ d.slots.find? location = none :=
  Table.find?_eq_none_iff.symm

/-- The directory after a record was linked at a cursor of a lane. -/
structure Linked (limits : QueueLimits) (d : QueueDir β) (lane : Lane) (record : QueueRecord β)
    (size cursor : Nat) (t : QueueDir β) : Prop where
  rows : t.slots.rows = d.slots.rows ++ [⟨locationAt limits lane cursor, record, size⟩]
  state : t.state = d.state.enqueued limits lane cursor size (laneNumbers t lane).length
  temps : t.temps = []
  grown : Grown limits d lane t
  segment : (lane, (locationAt limits lane cursor).segment) ∈ t.segments

theorem mem_linked (h : Linked limits d lane record size cursor t) {f : SlotFile β} :
    f ∈ t.slots ↔ f ∈ d.slots ∨ f = ⟨locationAt limits lane cursor, record, size⟩ := by
  have hrows : f ∈ t.slots ↔ f ∈ d.slots.rows ++ [⟨locationAt limits lane cursor, record, size⟩] :=
    by rw [← h.rows]; exact Iff.rfl
  rw [hrows, List.mem_append, List.mem_singleton]
  exact Iff.rfl

theorem Linked.laneFiles (h : Linked limits d lane record size cursor t) (other : Lane) :
    laneFiles t other = laneFiles d other ++
      if lane = other then [⟨locationAt limits lane cursor, record, size⟩] else [] := by
  unfold WheelForge.Maintenance.laneFiles
  rw [h.rows, List.filter_append]
  congr 1
  by_cases hl : lane = other
  · rw [if_pos hl]
    exact List.filter_cons_of_pos (decide_eq_true hl)
  · rw [if_neg hl]
    refine List.filter_cons_of_neg ?_
    rw [decide_eq_true_eq]
    exact hl

@[simp] theorem enqueued_lanes_self (state : QueueState) (segments : Nat) :
    (state.enqueued limits lane cursor size segments).lanes lane =
      { headCursor := if (state.lanes lane).count + 1 = 1 then cursor
          else (state.lanes lane).headCursor
        writeCursor := (cursor + 1) % limits.capacity
        count := (state.lanes lane).count + 1
        bytes := (state.lanes lane).bytes + size
        segments := segments } :=
  Function.update_self ..

theorem enqueued_lanes_ne (state : QueueState) (segments : Nat) {other : Lane}
    (h : other ≠ lane) :
    (state.enqueued limits lane cursor size segments).lanes other = state.lanes other :=
  Function.update_of_ne h ..

/-- The counters of a lane are within the totals. -/
theorem Counted.lane_room (hd : Counted limits d) (hroom : Room limits d record size)
    (lane : Lane) : (d.state.lanes lane).count + 1 ≤ limits.maxRecords ∧
      (d.state.lanes lane).bytes + size ≤ limits.maxRecordBytes := by
  have hcount : (laneFiles d lane).length ≤ d.slots.rows.length := List.length_filter_le _ _
  have hbytes : ((laneFiles d lane).map SlotFile.size).sum ≤
      (d.slots.rows.map SlotFile.size).sum := sum_le_of_sublist (List.filter_sublist.map _)
  have hrecords := hroom.records
  have hsum := hroom.bytes
  rw [hd.count, hd.bytes]
  omega

theorem Linked.valid (hd : Counted limits d) (hroom : Room limits d record size)
    (hc : cursor < limits.capacity) (h : Linked limits d lane record size cursor t) :
    validState limits t.state = true := by
  rw [h.state, validState_iff]
  intro other
  have hold := validState_iff.1 hd.valid other
  by_cases ho : other = lane
  · subst ho
    rw [enqueued_lanes_self]
    obtain ⟨hcount, hbytes⟩ := hd.lane_room hroom other
    refine ⟨?_, Nat.mod_lt _ limits.capacity_pos, hcount, hbytes,
      laneNumbers_length_le h.grown.nodup h.grown.lt other⟩
    dsimp only
    split
    · exact hc
    · exact hold.1
  · rw [enqueued_lanes_ne _ _ ho]
    exact hold

/-- The counters stay exact. -/
theorem Linked.counted (hd : Counted limits d) (hroom : Room limits d record size)
    (hc : cursor < limits.capacity) (h : Linked limits d lane record size cursor t) :
    Counted limits t := by
  have hwithin : (locationAt limits lane cursor).Within limits t :=
    ⟨h.segment, locationAt_slot_lt lane cursor⟩
  have hplaced : Placed limits t := by
    refine placed_of_new_row ⟨locationAt limits lane cursor, record, size⟩ hd hroom
      h.grown h.rows hwithin (h.valid hd hroom hc) ?_ ?_
    · rw [h.temps]
      exact Nat.zero_le 1
    · intro l hl
      rw [h.temps] at hl
      exact absurd hl List.not_mem_nil
  refine { hplaced with temps := h.temps, count := ?_, bytes := ?_, segments := ?_,
                        sequence_lt := ?_ }
  · intro other
    rw [h.laneFiles, List.length_append, h.state]
    by_cases ho : lane = other
    · subst ho
      rw [enqueued_lanes_self, if_pos rfl, ← hd.count]
      rfl
    · rw [enqueued_lanes_ne _ _ (Ne.symm ho), if_neg ho, hd.count]
      rfl
  · intro other
    rw [h.laneFiles, List.map_append, List.sum_append, h.state]
    by_cases ho : lane = other
    · subst ho
      rw [enqueued_lanes_self, if_pos rfl, ← hd.bytes]
      simp
    · rw [enqueued_lanes_ne _ _ (Ne.symm ho), if_neg ho, hd.bytes]
      rfl
  · intro other
    rw [h.state]
    by_cases ho : other = lane
    · subst ho
      rw [enqueued_lanes_self]
      unfold laneNumbers
      rw [List.length_map]
    · rw [enqueued_lanes_ne _ _ ho, hd.segments, h.grown.laneSegments hd.toPlaced ho]
  · intro f hf
    rw [h.state]
    show f.record.sequence < d.state.nextSequence + 1
    rcases (mem_linked h).1 hf with hf | rfl
    · have := hd.sequence_lt f hf
      omega
    · have := hroom.sequence
      dsimp only
      omega

/-- A directory between two attempts of an enqueue. -/
structure Preparing (limits : QueueLimits) (d : QueueDir β) (lane : Lane) (s : QueueDir β) :
    Prop where
  grown : Grown limits d lane s
  slots : s.slots = d.slots
  state : s.state = d.state
  temps : s.temps = []

theorem Preparing.placed (hd : Placed limits d) (h : Preparing limits d lane s) :
    Placed limits s := by
  refine placed_of_same_rows hd h.grown h.slots h.state ?_ ?_
  · rw [h.temps]
    exact Nat.zero_le 1
  · intro l hl
    rw [h.temps] at hl
    exact absurd hl List.not_mem_nil

theorem unlinkTemp_of_singleton {l : Location} (h : s.temps = [l]) :
    s.after (.unlinkTemp l) = { s with temps := [] } := by
  show s.unlinkTemp l = _
  unfold QueueDir.unlinkTemp
  rw [h, List.filter_cons_of_neg (by simp), List.filter_nil]

/-- The loop of `enqueue` takes the first free cursor, the `k`-th from where it starts. -/
theorem ensures_enqueueAt (hd : Counted limits d) (hroom : Room limits d record size) {n : Nat} :
    ∀ {k cursor : Nat} {s : QueueDir β}, Preparing limits d lane s → cursor < limits.capacity →
      k < n → Free d (locationAt limits lane ((cursor + k) % limits.capacity)) →
      (∀ j < k, ¬ Free d (locationAt limits lane ((cursor + j) % limits.capacity))) →
      Ensures (fun u => Placed limits u ∧ (u.slots.rows = d.slots.rows ∨ u.slots.rows =
          d.slots.rows ++ [⟨locationAt limits lane ((cursor + k) % limits.capacity), record,
            size⟩]))
        (enqueueAt limits d.state lane record size n cursor) s fun t x =>
          x = .ok ⟨locationAt limits lane ((cursor + k) % limits.capacity), record⟩ ∧
            Linked limits d lane record size ((cursor + k) % limits.capacity) t := by
  induction n with
  | zero => exact fun _ _ hk => absurd hk (Nat.not_lt_zero _)
  | succ n ih =>
      intro k cursor s hs hc hk hfree htaken
      have hslot : (locationAt limits lane cursor).slot < limits.segmentSize :=
        locationAt_slot_lt lane cursor
      have hgrown := hs.grown.mkdirSegment (locationAt_segment_lt lane hc)
      have hin : (lane, (locationAt limits lane cursor).segment) ∈
          (s.mkdirSegment lane (locationAt limits lane cursor).segment).segments :=
        mem_mkdirSegment.2 (Or.inr rfl)
      have hwithin : ∀ {u : QueueDir β}, (lane, (locationAt limits lane cursor).segment) ∈
          u.segments → (locationAt limits lane cursor).Within limits u :=
        fun h => ⟨h, locationAt_slot_lt lane cursor⟩
      -- the attempt with its temporary file, before the link
      have hmade : ∀ u : QueueDir β, u.segments =
          (s.mkdirSegment lane (locationAt limits lane cursor).segment).segments →
          u.slots = d.slots → u.state = d.state →
          (u.temps = [] ∨ u.temps = [locationAt limits lane cursor]) → Placed limits u := by
        intro u hseg hslots hstate htemps
        have hgrown' : Grown limits d lane u :=
          ⟨hseg ▸ hgrown.sub, hseg ▸ hgrown.lane_only, hseg ▸ hgrown.nodup, hseg ▸ hgrown.lt⟩
        have hin' : (lane, (locationAt limits lane cursor).segment) ∈ u.segments := hseg ▸ hin
        refine placed_of_same_rows hd.toPlaced hgrown' hslots hstate ?_ ?_
        · rcases htemps with h | h <;> simp [h]
        · intro l hl
          rcases htemps with h | h
          · rw [h] at hl
            exact absurd hl List.not_mem_nil
          · rw [h] at hl
            rw [List.mem_singleton.1 hl]
            exact hwithin hin'
      unfold enqueueAt
      apply ensures_step ⟨hs.placed hd.toPlaced, Or.inl (by rw [hs.slots])⟩
      dsimp only [QueueDir.after]
      generalize hs₁ : s.mkdirSegment lane (locationAt limits lane cursor).segment = s₁ at *
      have hslots₁ : s₁.slots = d.slots := by rw [← hs₁, mkdirSegment_slots, hs.slots]
      have hstate₁ : s₁.state = d.state := by rw [← hs₁, mkdirSegment_state, hs.state]
      have htemps₁ : s₁.temps = [] := by rw [← hs₁, mkdirSegment_temps, hs.temps]
      apply ensures_step ⟨hmade s₁ rfl hslots₁ hstate₁ (Or.inl htemps₁), Or.inl (by rw [hslots₁])⟩
      have hcreated : s₁.answer (.createTemp (locationAt limits lane cursor)) = true := by
        show (!decide (locationAt limits lane cursor ∈ s₁.temps)) = true
        rw [htemps₁]
        rfl
      have hafter : s₁.after (.createTemp (locationAt limits lane cursor)) =
          { s₁ with temps := [locationAt limits lane cursor] } := by
        show s₁.createTemp (locationAt limits lane cursor) = _
        unfold QueueDir.createTemp
        rw [htemps₁, if_neg List.not_mem_nil]
        rfl
      rw [hafter]
      apply ensures_then hcreated
      have htemp : Placed limits { s₁ with temps := [locationAt limits lane cursor] } :=
        hmade _ rfl hslots₁ hstate₁ (Or.inr rfl)
      apply ensures_step ⟨htemp, Or.inl (by rw [hslots₁])⟩
      dsimp only [QueueDir.after]
      apply ensures_step ⟨htemp, Or.inl (by rw [hslots₁])⟩
      cases k with
      | zero =>
          -- the slot is free: the temporary file becomes the slot file
          rw [Nat.add_zero, Nat.mod_eq_of_lt hc] at hfree ⊢
          obtain ⟨slots, hins⟩ := Table.insert?_of_free (t := d.slots)
            (r := ⟨locationAt limits lane cursor, record, size⟩) (free_iff.1 hfree)
          have hrows := (Table.insert?_eq_some hins).2
          have hlinked : (QueueDir.after { s₁ with temps := [locationAt limits lane cursor] }
              (.linkSlot ⟨locationAt limits lane cursor, record, size⟩)) =
              { s₁ with temps := [locationAt limits lane cursor], slots := slots } := by
            show QueueDir.linkSlot _ _ = _
            unfold QueueDir.linkSlot
            dsimp only
            rw [hslots₁, hins]
          have hanswer : (QueueDir.answer { s₁ with temps := [locationAt limits lane cursor] }
              (.linkSlot ⟨locationAt limits lane cursor, record, size⟩)) = true := by
            show (s₁.slots.insert? _).isSome = true
            rw [hslots₁, hins]
            rfl
          have hnew : ∀ temps, (temps = [] ∨ temps = [locationAt limits lane cursor]) →
              Placed limits { s₁ with temps := temps, slots := slots } := by
            intro temps htemps
            refine placed_of_new_row ⟨locationAt limits lane cursor, record, size⟩ hd
              hroom ⟨hgrown.sub, hgrown.lane_only, hgrown.nodup, hgrown.lt⟩ hrows (hwithin hin)
              (hstate₁ ▸ hd.valid) ?_ ?_
            · rcases htemps with rfl | rfl <;> simp
            · intro l hl
              rcases htemps with rfl | rfl
              · exact absurd hl List.not_mem_nil
              · rw [List.mem_singleton.1 hl]
                exact hwithin hin
          rw [hlinked]
          apply ensures_step ⟨hnew _ (Or.inr rfl), Or.inr hrows⟩
          refine ensures_then hanswer ?_
          rw [unlinkTemp_of_singleton rfl]
          refine ensures_segmentNames ⟨hnew [] (Or.inl rfl), Or.inr hrows⟩ ?_ ?_ ?_
          · exact hgrown.nodup
          · exact hgrown.lt
          · apply ensures_step ⟨hnew [] (Or.inl rfl), Or.inr hrows⟩
            exact ⟨rfl, hrows, rfl, rfl,
              ⟨hgrown.sub, hgrown.lane_only, hgrown.nodup, hgrown.lt⟩, hin⟩
      | succ k =>
          -- the slot is taken: the attempt leaves its segment and nothing else
          have hnot : d.slots.find? (locationAt limits lane cursor) ≠ none := by
            have h := htaken 0 (Nat.succ_pos k)
            rw [Nat.add_zero, Nat.mod_eq_of_lt hc] at h
            exact fun hn => h (free_iff.2 hn)
          have hins := Table.insert?_of_taken (t := d.slots)
            (r := ⟨locationAt limits lane cursor, record, size⟩) hnot
          have hlinked : (QueueDir.after { s₁ with temps := [locationAt limits lane cursor] }
              (.linkSlot ⟨locationAt limits lane cursor, record, size⟩)) =
              { s₁ with temps := [locationAt limits lane cursor] } := by
            show QueueDir.linkSlot _ _ = _
            unfold QueueDir.linkSlot
            dsimp only
            rw [hslots₁, hins]
          have hanswer : (QueueDir.answer { s₁ with temps := [locationAt limits lane cursor] }
              (.linkSlot ⟨locationAt limits lane cursor, record, size⟩)) = false := by
            show (s₁.slots.insert? _).isSome = false
            rw [hslots₁, hins]
            rfl
          rw [hlinked]
          apply ensures_step ⟨htemp, Or.inl (by rw [hslots₁])⟩
          refine ensures_else (by rw [hanswer]; exact Bool.false_ne_true) ?_
          have hstep : ∀ j, ((cursor + 1) % limits.capacity + j) % limits.capacity =
              (cursor + (j + 1)) % limits.capacity := by
            intro j
            rw [Nat.mod_add_mod, Nat.add_assoc, Nat.add_comm 1 j]
          rw [← hstep] at hfree ⊢
          refine ih ⟨?_, hslots₁, hstate₁, ?_⟩ (Nat.mod_lt _ limits.capacity_pos) (by omega)
            hfree ?_
          · rw [unlinkTemp_of_singleton rfl]
            exact ⟨hgrown.sub, hgrown.lane_only, hgrown.nodup, hgrown.lt⟩
          · rw [unlinkTemp_of_singleton rfl]
          · intro j hj
            rw [hstep]
            exact htaken (j + 1) (by omega)

/-- Some slot of a lane is free while there is room. -/
theorem exists_free (hroom : Room limits d record size) (lane : Lane) :
    ∃ c < limits.capacity, Free d (locationAt limits lane c) := by
  by_contra hnone
  push Not at hnone
  have hsub : (List.range limits.capacity).map (locationAt limits lane) ⊆
      d.slots.rows.map SlotFile.location := by
    intro l hl
    obtain ⟨c, hc, rfl⟩ := List.mem_map.1 hl
    have htaken := hnone c (List.mem_range.1 hc)
    unfold Free at htaken
    push Not at htaken
    obtain ⟨f, hf, hloc⟩ := htaken
    exact List.mem_map.2 ⟨f, hf, hloc⟩
  have hnodup : ((List.range limits.capacity).map (locationAt limits lane)).Nodup :=
    List.nodup_range.map fun _ _ => locationAt_injective
  have hle := (List.subperm_of_subset hnodup hsub).length_le
  rw [List.length_map, List.length_map, List.length_range] at hle
  have hrecords := hroom.records
  have hlimit : limits.maxRecords ≤ limits.capacity := limits.maxRecords_le
  omega

/-- The first free cursor of a lane from the write cursor on, around the ring. -/
def FirstFree (limits : QueueLimits) (d : QueueDir β) (lane : Lane) (cursor : Nat) : Prop :=
  ∃ k < limits.capacity, cursor = ((d.state.lanes lane).writeCursor + k) % limits.capacity ∧
    Free d (locationAt limits lane cursor) ∧
    ∀ j < k, ¬ Free d (locationAt limits lane
      (((d.state.lanes lane).writeCursor + j) % limits.capacity))

theorem FirstFree.lt (h : FirstFree limits d lane cursor) : cursor < limits.capacity := by
  obtain ⟨k, -, rfl, -⟩ := h
  exact Nat.mod_lt _ limits.capacity_pos

theorem FirstFree.free (h : FirstFree limits d lane cursor) :
    Free d (locationAt limits lane cursor) := by
  obtain ⟨k, -, -, hfree, -⟩ := h
  exact hfree

theorem exists_firstFree (hroom : Room limits d record size) (lane : Lane) :
    ∃ cursor, FirstFree limits d lane cursor := by
  classical
  obtain ⟨c, hc, hfree⟩ := exists_free hroom lane
  obtain ⟨k, hk, rfl⟩ := exists_offset hc (d.state.lanes lane).writeCursor
  have hex : ∃ k, Free d (locationAt limits lane
      (((d.state.lanes lane).writeCursor + k) % limits.capacity)) := ⟨k, hfree⟩
  have hbound : Nat.find hex < limits.capacity := (Nat.find_min' hex hfree).trans_lt hk
  exact ⟨_, Nat.find hex, hbound, rfl, Nat.find_spec hex, fun j hj => Nat.find_min hex hj⟩

/-- In a directory between steps a slot is read where its file is. -/
theorem readSlot_eq (hd : Placed limits d) (l : Location) :
    readSlot d l = d.slots.find? l := by
  unfold readSlot
  split
  · rfl
  · next hnot =>
    symm
    apply Table.find?_eq_none_iff.2
    rintro f hf rfl
    exact hnot (hd.file_within f hf).1

/-- How `enqueue` ends. -/
inductive EnqueueResult (limits : QueueLimits) (codec : QueueCodec β) (d : QueueDir β)
    (lane : Lane) (input : RecordInput β) (fresh : Uuid) (deduplicate deduplicateGeneration : Bool) :
    QueueDir β → Except QueueError (QueueItem β) → Prop
  | invalid {e : QueueError} (h : prepareRecord codec input fresh d.state.nextSequence = .error e) :
      EnqueueResult limits codec d lane input fresh deduplicate deduplicateGeneration d (.error e)
  | existing {record : QueueRecord β} {file : SlotFile β}
      (h : prepareRecord codec input fresh d.state.nextSequence = .ok record)
      (hfile : existingItem limits d lane input record deduplicate deduplicateGeneration =
        some file) :
      EnqueueResult limits codec d lane input fresh deduplicate deduplicateGeneration d
        (.ok file.item)
  | oversized {record : QueueRecord β} {e : QueueError}
      (h : prepareRecord codec input fresh d.state.nextSequence = .ok record)
      (hnone : existingItem limits d lane input record deduplicate deduplicateGeneration = none)
      (hsize : encodeRecord limits codec record = .error e) :
      EnqueueResult limits codec d lane input fresh deduplicate deduplicateGeneration d (.error e)
  | refused {record : QueueRecord β} {size : Nat}
      (h : prepareRecord codec input fresh d.state.nextSequence = .ok record)
      (hnone : existingItem limits d lane input record deduplicate deduplicateGeneration = none)
      (hsize : encodeRecord limits codec record = .ok size) (hfull : ¬ Room limits d record size) :
      EnqueueResult limits codec d lane input fresh deduplicate deduplicateGeneration
        { d with state := d.state.refused }
        (.error (.capacity "maintenance queue capacity is exhausted"))
  | linked {record : QueueRecord β} {size cursor : Nat} {t : QueueDir β}
      (h : prepareRecord codec input fresh d.state.nextSequence = .ok record)
      (hnone : existingItem limits d lane input record deduplicate deduplicateGeneration = none)
      (hsize : encodeRecord limits codec record = .ok size) (hroom : Room limits d record size)
      (hcursor : FirstFree limits d lane cursor)
      (ht : Linked limits d lane record size cursor t) :
      EnqueueResult limits codec d lane input fresh deduplicate deduplicateGeneration t
        (.ok ⟨locationAt limits lane cursor, record⟩)

theorem prepareRecord_sequence {codec : QueueCodec β} {input : RecordInput β} {fresh : Uuid}
    {sequence : Nat} (h : prepareRecord codec input fresh sequence = .ok record) :
    record.sequence = sequence := by
  unfold prepareRecord at h
  split at h
  · cases h
  · split at h
    · cases h
      rfl
    · cases h

theorem Counted.total_bytes (hd : Counted limits d) :
    total d.state LaneState.bytes = (d.slots.rows.map SlotFile.size).sum := by
  unfold total
  rw [← sum_lanes]
  congr 1
  exact List.map_congr_left fun lane _ => hd.bytes lane

theorem Counted.total_count (hd : Counted limits d) :
    total d.state LaneState.count = d.slots.rows.length := by
  have hlength : ∀ files : List (SlotFile β), files.length = (files.map fun _ => 1).sum := by
    intro files
    simp
  unfold total
  rw [hlength, ← sum_lanes]
  congr 1
  refine List.map_congr_left fun lane _ => ?_
  rw [hd.count, hlength]
  rfl

/-- The quota test of `enqueue` on exact counters. -/
theorem room_iff (hd : Counted limits d) (hseq : record.sequence = d.state.nextSequence) :
    Room limits d record size ↔ ¬ (limits.maxRecords ≤ total d.state LaneState.count ∨
      limits.maxRecordBytes < total d.state LaneState.bytes + size) := by
  rw [hd.total_count, hd.total_bytes, not_or, not_le, not_lt]
  constructor
  · exact fun h => ⟨h.records, h.bytes⟩
  · exact fun h => ⟨h.1, h.2, hseq⟩

theorem Counted.refused (hd : Counted limits d) :
    Counted limits { d with state := d.state.refused } :=
  { hd with }

/-- The specification of `enqueue`. -/
theorem enqueue_spec (hd : Counted limits d) (codec : QueueCodec β) (lane : Lane)
    (input : RecordInput β) (fresh : Uuid) (deduplicate deduplicateGeneration : Bool) :
    ∃ t x, Atomic limits
        (enqueue limits codec lane input fresh deduplicate deduplicateGeneration) d t x ∧
      EnqueueResult limits codec d lane input fresh deduplicate deduplicateGeneration t x := by
  -- all but the linking stop in `d` alone
  have hstop : ∀ t x s, EnqueueResult limits codec d lane input fresh deduplicate
      deduplicateGeneration t x → d = s → Placed limits s ∧
        (Winner s = Winner d ∨ Winner s = Winner t) := by
    rintro t x s - rfl
    exact ⟨hd.toPlaced, Or.inl rfl⟩
  cases hp : prepareRecord codec input fresh d.state.nextSequence with
  | error e =>
      refine Atomic.of_ensures ?_ hstop
      unfold enqueue
      apply ensures_readState rfl hd.valid
      rw [hp]
      exact .invalid hp
  | ok record =>
    cases hx : existingItem limits d lane input record deduplicate deduplicateGeneration with
    | some file =>
        refine Atomic.of_ensures ?_ hstop
        unfold enqueue
        apply ensures_readState rfl hd.valid
        rw [hp]
        apply ensures_step rfl
        dsimp only [QueueDir.answer]
        rw [hx]
        exact .existing hp hx
    | none =>
      cases hsize : encodeRecord limits codec record with
      | error e =>
          refine Atomic.of_ensures ?_ hstop
          unfold enqueue
          apply ensures_readState rfl hd.valid
          rw [hp]
          apply ensures_step rfl
          dsimp only [QueueDir.answer]
          rw [hx]
          dsimp only
          rw [hsize]
          exact .oversized hp hx hsize
      | ok size =>
        have hseq := prepareRecord_sequence hp
        by_cases hroom : Room limits d record size
        · obtain ⟨cursor, hcursor⟩ := exists_firstFree hroom lane
          have hfirst := hcursor
          obtain ⟨k, hk, rfl, hfree, htaken⟩ := hfirst
          have hstart : (d.state.lanes lane).writeCursor < limits.capacity :=
            (validState_iff.1 hd.valid lane).2.1
          have hprep : Preparing limits d lane d := ⟨Grown.refl hd.toPlaced lane, rfl, rfl, hd.temps⟩
          have hens : Ensures (fun u => Placed limits u ∧ (u.slots.rows = d.slots.rows ∨
              u.slots.rows = d.slots.rows ++ [⟨locationAt limits lane
                (((d.state.lanes lane).writeCursor + k) % limits.capacity), record, size⟩]))
              (enqueue limits codec lane input fresh deduplicate deduplicateGeneration) d
              fun t x => x = .ok ⟨locationAt limits lane
                (((d.state.lanes lane).writeCursor + k) % limits.capacity), record⟩ ∧
                  Linked limits d lane record size
                    (((d.state.lanes lane).writeCursor + k) % limits.capacity) t := by
            unfold enqueue
            apply ensures_readState ⟨hd.toPlaced, Or.inl rfl⟩ hd.valid
            rw [hp]
            apply ensures_step ⟨hd.toPlaced, Or.inl rfl⟩
            dsimp only [QueueDir.answer]
            rw [hx]
            dsimp only
            rw [hsize]
            refine ensures_else ((room_iff hd hseq).1 hroom) ?_
            exact ensures_enqueueAt hd hroom hprep hstart hk hfree htaken
          obtain ⟨t, x, hatomic, rfl, ht⟩ := Atomic.of_ensures hens (by
            rintro t x s ⟨-, ht⟩ ⟨hs, hrows⟩
            refine ⟨hs, hrows.imp winner_congr fun h => ?_⟩
            exact winner_congr (h.trans ht.rows.symm))
          exact ⟨t, _, hatomic, .linked hp hx hsize hroom hcursor ht⟩
        · refine Atomic.of_ensures ?_ hstop
          unfold enqueue
          apply ensures_readState rfl hd.valid
          rw [hp]
          apply ensures_step rfl
          dsimp only [QueueDir.answer]
          rw [hx]
          dsimp only
          rw [hsize]
          refine ensures_then (not_not.1 fun h => hroom ((room_iff hd hseq).2 h)) ?_
          apply ensures_step rfl
          exact .refused hp hx hsize hroom

end Enqueuing

end WheelForge.Maintenance
