import WheelForge.Maintenance.QueueRuns

/-!
# Moves in a full queue

A move does not increase the number of records, yet it links its record before it releases the old
one, and the quota is tested in between. So the move of a live item succeeds exactly while the queue
has room for one record more, or when the destination already holds the moved record
(`queue_move_succeeds_iff`). In a full queue it fails, and so does every sweep that retains a record.
-/

set_option autoImplicit false

namespace WheelForge.Maintenance

open WheelForge.Interaction
open WheelForge.Relational
open WheelForge.Transition

section Moving

variable {β : Type} {limits : QueueLimits} {codec : QueueCodec β} {d t u : QueueDir β}
  {item : QueueItem β} {destination : Lane} {body : Option β}

theorem canonicalIds_of_reachable {C : QueueDir β → QueueAction β → Prop}
    (h : (queueSystem limits codec).Reachable C d) : CanonicalIds codec d := by
  have hinit : CanonicalIds codec (QueueDir.initial : QueueDir β) :=
    fun f hf => absurd hf List.not_mem_nil
  exact (reachable_induction hinit (fun _ hs _ heffect => heffect.canonicalIds hs) h).2

/-- The record that the move of a live item enqueues. -/
def movedRecord (d : QueueDir β) (item : QueueItem β) (body : Option β) : QueueRecord β where
  recordId := item.record.recordId
  generation := item.record.generation + 1
  sequence := d.state.nextSequence
  body := body.getD item.record.body

theorem prepareRecord_moved (codec : QueueCodec β) (d : QueueDir β) (hcanon : codec.canonicalUuid item.record.recordId =
    some item.record.recordId) (body : Option β) :
    prepareRecord codec (movedInput item body) "" d.state.nextSequence =
      .ok (movedRecord d item body) := by
  unfold prepareRecord movedInput
  dsimp only [Option.getD_some]
  rw [hcanon]
  dsimp only
  rw [if_pos (by omega)]
  rfl

/-- The destination of a move holds the moved record already. -/
def HoldsNext (d : QueueDir β) (item : QueueItem β) (destination : Lane) : Prop :=
  ∃ g ∈ d.slots, g.location.lane = destination ∧ g.record.recordId = item.record.recordId ∧
    g.record.generation = item.record.generation + 1

theorem holdsNext_iff (hd : Placed limits d) :
    existingItem limits d destination (movedInput item body) (movedRecord d item body) false true
      ≠ none ↔ HoldsNext d item destination := by
  have hexisting : existingItem limits d destination (movedInput item body)
      (movedRecord d item body) false true = findRecordId limits d [destination]
        item.record.recordId (some (item.record.generation + 1)) := rfl
  rw [hexisting]
  constructor
  · intro hne
    obtain ⟨g, hg⟩ := Option.ne_none_iff_exists'.1 hne
    obtain ⟨hmem, hlane, hid, hgen⟩ := findRecordId_eq_some hd hg
    exact ⟨g, hmem, List.mem_singleton.1 hlane, hid, hgen _ rfl⟩
  · rintro ⟨g, hg, hlane, hid, hgen⟩ hnone
    obtain ⟨n, hn, hne⟩ :=
      findRecordId_eq_none hd hnone hg (List.mem_singleton.2 hlane) hid
    cases hn
    exact hne hgen

/-- A move fails where its enqueue is refused. -/
theorem move_refused (hd : Counted limits d) (hcanon : codec.canonicalUuid item.record.recordId =
    some item.record.recordId) {size : Nat}
    (hsize : encodeRecord limits codec (movedRecord d item body) = .ok size)
    (hnext : ¬ HoldsNext d item destination) (hroom : ¬ Room limits d (movedRecord d item body) size) :
    (run (queueMove limits codec item destination body) d).1 =
      .error (.capacity "maintenance queue capacity is exhausted") := by
  obtain ⟨u, x, hrun, hmove⟩ := move_spec hd codec item destination body
  rw [hrun]
  have hp := prepareRecord_moved codec d hcanon body
  have hnone : existingItem limits d destination (movedInput item body) (movedRecord d item body)
      false true = none := not_not.1 fun hne => hnext ((holdsNext_iff hd.toPlaced).1 hne)
  have hfail : ∀ {t y}, EnqueueResult limits codec d destination (movedInput item body) "" false
      true t y → y = .error (.capacity "maintenance queue capacity is exhausted") := by
    intro t y h
    cases h with
    | invalid h =>
        rw [hp] at h
        cases h
    | existing h hfile =>
        cases hp.symm.trans h
        rw [hnone] at hfile
        cases hfile
    | oversized h _ hover =>
        cases hp.symm.trans h
        rw [hsize] at hover
        cases hover
    | refused => rfl
    | linked h _ hlinked hroom' =>
        cases hp.symm.trans h
        cases hsize.symm.trans hlinked
        exact absurd hroom' hroom
  cases hmove with
  | failed h => exact hfail h
  | unreleased h => cases hfail h
  | moved h => cases hfail h

/-- A move of a live item succeeds where its record fits or is already in the destination. -/
theorem move_succeeds (hd : Counted limits d) (hcanon : codec.canonicalUuid item.record.recordId =
    some item.record.recordId) {f : SlotFile β} (hf : f ∈ d.slots) (hitem : f.item = item)
    {size : Nat} (hsize : encodeRecord limits codec (movedRecord d item body) = .ok size)
    (h : HoldsNext d item destination ∨ Room limits d (movedRecord d item body) size) :
    ∃ place, (run (queueMove limits codec item destination body) d).1 = .ok place := by
  obtain ⟨u, x, hrun, hmove⟩ := move_spec hd codec item destination body
  rw [hrun]
  have hp := prepareRecord_moved codec d hcanon body
  cases hmove with
  | moved _ _ => exact ⟨_, rfl⟩
  | unreleased h hc =>
      subst hitem
      have hx := (hc.of_owns (h.keeps hf) rfl rfl rfl).1
      cases hx
  | failed hfailed =>
      cases hfailed with
      | invalid hinvalid =>
          rw [hp] at hinvalid
          cases hinvalid
      | oversized hp' _ hover =>
          cases hp.symm.trans hp'
          rw [hsize] at hover
          cases hover
      | refused hp' hnone hsize' hfull =>
          cases hp.symm.trans hp'
          cases hsize.symm.trans hsize'
          rcases h with hnext | hroom
          · exact absurd hnone ((holdsNext_iff hd.toPlaced).2 hnext)
          · exact absurd hroom hfull

/-- A move of a live item whose record fits the free bytes succeeds exactly while there are fewer
records than the limit, or when the destination already holds the moved record. -/
theorem queue_move_succeeds_iff (limits : QueueLimits) (codec : QueueCodec β)
    (h : (queueSystem limits codec).Reachable System.Any d) {f : SlotFile β} (hf : f ∈ d.slots)
    (destination : Lane) (body : Option β) {size : Nat}
    (hsize : encodeRecord limits codec (movedRecord d f.item body) = .ok size)
    (hbytes : total d.state LaneState.bytes + size ≤ limits.maxRecordBytes) :
    (∃ place, (run (queueMove limits codec f.item destination body) d).1 = .ok place) ↔
      total d.state LaneState.count < limits.maxRecords ∨ HoldsNext d f.item destination := by
  have hd := counted_of_reachable h
  have hcanon := canonicalIds_of_reachable h f hf
  have hroom : Room limits d (movedRecord d f.item body) size ↔
      total d.state LaneState.count < limits.maxRecords := by
    rw [room_iff hd rfl, not_or, not_le, not_lt]
    exact and_iff_left hbytes
  constructor
  · rintro ⟨place, hplace⟩
    by_contra hnot
    rw [not_or, ← hroom] at hnot
    rw [move_refused hd hcanon hsize hnot.2 hnot.1] at hplace
    cases hplace
  · intro hcase
    apply move_succeeds hd hcanon hf rfl hsize
    exact hcase.symm.imp_right hroom.2

end Moving

/-! ## A full queue -/

/-- A fresh UUID for each number. -/
def sampleUuid (n : Nat) : Uuid :=
  String.ofList ("00000000-0000-4000-8000-".toList ++
    (List.range 12).map fun i => Nat.digitChar (n / 10 ^ (11 - i) % 10))

/-- The queue after a number of intents, each with a fresh record id. -/
def filled : Nat → QueueDir Unit
  | 0 => QueueDir.initial
  | n + 1 => (sampleIntent (sampleUuid n)).perform queueLimits sampleCodec (filled n)

theorem sampleUuid_canonical (n : Nat) :
    sampleCodec.canonicalUuid (sampleUuid n) = some (sampleUuid n) := by
  apply if_pos
  unfold sampleUuid
  rw [String.length_ofList, List.length_append, List.length_map, List.length_range]
  rfl

theorem sample_size (record : QueueRecord Unit) (hgen : record.generation ≤ 9)
    (hseq : record.sequence ≤ 4096) : sampleCodec.encodedSize record ≤ 100 ∧
      encodeRecord queueLimits sampleCodec record = .ok (sampleCodec.encodedSize record) := by
  have hgen' : (Nat.toDigits 10 record.generation).length ≤ 1 :=
    (Nat.length_toDigits_le_iff (by omega) (by omega)).2 (by omega)
  have hseq' : (Nat.toDigits 10 record.sequence).length ≤ 4 :=
    (Nat.length_toDigits_le_iff (by omega) (by omega)).2 (by omega)
  have hsize : sampleCodec.encodedSize record ≤ 100 := by
    show 89 + _ + _ ≤ 100
    omega
  refine ⟨hsize, ?_⟩
  unfold encodeRecord
  exact if_pos (hsize.trans (by decide))

theorem filled_spec {n : Nat} (h : n ≤ queueLimits.maxRecords) :
    (queueSystem queueLimits sampleCodec).Reachable System.Any (filled n) ∧
      (filled n).slots.rows.length = n ∧ (filled n).state.nextSequence = n ∧
      ((filled n).slots.rows.map SlotFile.size).sum ≤ 100 * n ∧
      ∀ f ∈ (filled n).slots, f.location.lane = .ready ∧ f.record.generation = 0 := by
  induction n with
  | zero =>
      exact ⟨System.Reachable.of_init rfl, rfl, rfl, Nat.le_refl 0,
        fun f hf => absurd hf List.not_mem_nil⟩
  | succ n ih =>
      obtain ⟨hreach, hlength, hseq, hbytes, hfiles⟩ := ih (Nat.le_of_succ_le h)
      have hn : n < 4096 := h
      have hnext : (queueSystem queueLimits sampleCodec).Reachable System.Any (filled (n + 1)) :=
        hreach.step trivial rfl
      have hp : prepareRecord sampleCodec ⟨none, none, ()⟩ (sampleUuid n)
          (filled n).state.nextSequence = .ok ⟨sampleUuid n, 0, n, ()⟩ := by
        unfold prepareRecord
        dsimp only [Option.getD_none]
        rw [sampleUuid_canonical, hseq]
        rfl
      obtain ⟨hsize, hencode⟩ := sample_size ⟨sampleUuid n, 0, n, ()⟩ (Nat.zero_le 9)
        (Nat.le_of_lt hn)
      have hroom : Room queueLimits (filled n) ⟨sampleUuid n, 0, n, ()⟩
          (sampleCodec.encodedSize ⟨sampleUuid n, 0, n, ()⟩) := by
        refine ⟨?_, ?_, hseq.symm⟩
        · rw [hlength]
          exact h
        · have hmax : queueLimits.maxRecordBytes = 16777216 := rfl
          omega
      have heffect : QueueEffect queueLimits sampleCodec (filled n) (sampleIntent (sampleUuid n))
          (filled (n + 1)) := perform_effect (counted_of_reachable hreach) sampleCodec _
      cases heffect with
      | enqueue henqueue =>
          generalize filled (n + 1) = t at henqueue hnext
          cases henqueue with
          | invalid hinvalid => cases hp.symm.trans hinvalid
          | existing _ hfile => cases hfile
          | oversized hp' _ hover =>
              cases hp.symm.trans hp'
              cases hencode.symm.trans hover
          | refused hp' _ hsize' hfull =>
              cases hp.symm.trans hp'
              cases hencode.symm.trans hsize'
              exact absurd hroom hfull
          | linked hp' _ hsize' _ _ ht =>
              cases hp.symm.trans hp'
              cases hencode.symm.trans hsize'
              refine ⟨hnext, ?_, ?_, ?_, ?_⟩
              · rw [ht.rows, List.length_append, hlength, List.length_singleton]
              · rw [ht.state]
                show (filled n).state.nextSequence + 1 = n + 1
                rw [hseq]
              · rw [ht.rows, List.map_append, List.sum_append, List.map_singleton,
                  List.sum_singleton]
                dsimp only
                omega
              · intro f hf
                rcases (mem_linked ht).1 hf with hf | rfl
                · exact hfiles f hf
                · exact ⟨rfl, rfl⟩

theorem filled_moves_nothing {n : Nat} (hn : n = queueLimits.maxRecords) :
    (queueSystem queueLimits sampleCodec).Reachable System.Any (filled n) ∧
      total (filled n).state LaneState.count = queueLimits.maxRecords ∧
      ∀ f ∈ (filled n).slots, ∃ size,
        encodeRecord queueLimits sampleCodec (movedRecord (filled n) f.item none) = .ok size ∧
        total (filled n).state LaneState.bytes + size ≤ queueLimits.maxRecordBytes ∧
        (run (queueMove queueLimits sampleCodec f.item .deferred none) (filled n)).1 =
          .error (.capacity "maintenance queue capacity is exhausted") := by
  obtain ⟨hreach, hlength, hseq, hbytes, hfiles⟩ := filled_spec hn.le
  have hd := counted_of_reachable hreach
  have hn' : n = 4096 := hn
  refine ⟨hreach, hd.total_count.trans (hlength.trans hn), ?_⟩
  intro f hf
  obtain ⟨hlane, hgen⟩ := hfiles f hf
  have hgen' : (movedRecord (filled n) f.item none).generation ≤ 9 := by
    show f.record.generation + 1 ≤ 9
    omega
  have hseq' : (movedRecord (filled n) f.item none).sequence ≤ 4096 := (hseq.trans hn').le
  obtain ⟨hsize, hencode⟩ := sample_size _ hgen' hseq'
  have hmax : queueLimits.maxRecordBytes = 16777216 := rfl
  refine ⟨_, hencode, ?_, ?_⟩
  · rw [hd.total_bytes]
    omega
  · apply move_refused hd (canonicalIds_of_reachable hreach f hf) hencode
    · rintro ⟨g, hg, hdeferred, -⟩
      rw [(hfiles g hg).1] at hdeferred
      cases hdeferred
    · intro hroom
      have hrecords := hroom.records
      rw [hlength, hn] at hrecords
      exact lt_irrefl _ hrecords

/-- A queue of 4096 small intents has free bytes, and none of its items can be moved. -/
theorem full_queue_moves_nothing :
    ∃ f ∈ (filled 4096).slots, ∃ size,
      (queueSystem queueLimits sampleCodec).Reachable System.Any (filled 4096) ∧
      total (filled 4096).state LaneState.count = queueLimits.maxRecords ∧
      encodeRecord queueLimits sampleCodec (movedRecord (filled 4096) f.item none) = .ok size ∧
      total (filled 4096).state LaneState.bytes + size ≤ queueLimits.maxRecordBytes ∧
      (run (queueMove queueLimits sampleCodec f.item .deferred none) (filled 4096)).1 =
        .error (.capacity "maintenance queue capacity is exhausted") := by
  have hn : 4096 = queueLimits.maxRecords := rfl
  generalize 4096 = n at hn ⊢
  obtain ⟨hreach, hcount, hmoves⟩ := filled_moves_nothing hn
  have hlength := (filled_spec hn.le).2.1
  have hpos : 0 < (filled n).slots.rows.length := by
    rw [hlength, hn]
    decide
  obtain ⟨f, hf⟩ := List.exists_mem_of_length_pos hpos
  obtain ⟨size, hsize, hbytes, hmove⟩ := hmoves f hf
  exact ⟨f, hf, size, hreach, hcount, hsize, hbytes, hmove⟩

/-- A queue with one intent moves it. -/
theorem queue_move_succeeds_once : ∃ f ∈ (filled 1).slots,
    ∃ place, (run (queueMove queueLimits sampleCodec f.item .deferred none) (filled 1)).1 =
      .ok place := by
  have hone : 1 ≤ queueLimits.maxRecords := by decide
  obtain ⟨hreach, hlength, hseq, hbytes, hfiles⟩ := filled_spec hone
  obtain ⟨f, hf⟩ := List.exists_mem_of_length_pos (by rw [hlength]; exact Nat.one_pos)
  refine ⟨f, hf, ?_⟩
  have hd := counted_of_reachable hreach
  have hgen' : (movedRecord (filled 1) f.item none).generation ≤ 9 := by
    have hgen := (hfiles f hf).2
    show f.record.generation + 1 ≤ 9
    omega
  have hseq' : (movedRecord (filled 1) f.item none).sequence ≤ 4096 := by
    show (filled 1).state.nextSequence ≤ 4096
    omega
  obtain ⟨hsize, hencode⟩ := sample_size _ hgen' hseq'
  have hmax : queueLimits.maxRecordBytes = 16777216 := rfl
  refine (queue_move_succeeds_iff queueLimits sampleCodec hreach hf .deferred none hencode ?_).2
    (Or.inl ?_)
  · rw [hd.total_bytes]
    omega
  · rw [hd.total_count, hlength]
    decide

end WheelForge.Maintenance
