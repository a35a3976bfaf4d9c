import WheelForge.Maintenance.QueueRuns

/-!
# Crashes of the queue

`crashSystem` lets the process stop after any filesystem step of an operation and of the restarts
that follow it, until one restart ends. In the runs whose steps keep record ids unique every
operation is crash atomic (`queue_crash_atomic`): after the restart the live records are those before
the operation or those after it. `_queue_move` links the moved record before it finds out that its
item's slot has a new owner, so that the move of a stale item leaves two records of one id, and a
crash in it loses the record that was live.
-/

set_option autoImplicit false

namespace WheelForge.Maintenance

open WheelForge.Interaction
open WheelForge.Interaction.Program (Stops Answered)
open WheelForge.Relational
open WheelForge.Transition

section Crashes

variable {β : Type} (limits : QueueLimits) (codec : QueueCodec β)

/-- The process stops in an operation: it leaves the directory `s`. -/
def QueueAction.StopsIn (d s : QueueDir β) : QueueAction β → Prop
  | .enqueue lane input fresh deduplicate deduplicateGeneration =>
      Stops (Answered QueueDir.perform)
        (Maintenance.enqueue limits codec lane input fresh deduplicate deduplicateGeneration) d s
  | .complete item => Stops (Answered QueueDir.perform) (Maintenance.complete limits item) d s
  | .move item destination body =>
      Stops (Answered QueueDir.perform) (queueMove limits codec item destination body) d s
  | .peek lane => Stops (Answered QueueDir.perform) (Maintenance.peek limits lane) d s
  | .peekDue lane isDue maxRecords =>
      Stops (Answered QueueDir.perform) (Maintenance.peekDue limits lane isDue maxRecords) d s
  | .reconcile => Stops (Answered QueueDir.perform) (Maintenance.reconcile limits) d s

/-- Restarts, all but the last of which stop too. -/
inductive Restarted : QueueDir β → QueueDir β → Prop
  | ends {s t : QueueDir β} (h : run (restart limits) s = (.ok (), t)) : Restarted s t
  | stops {s s' t : QueueDir β} (h : Stops (Answered QueueDir.perform) (restart limits) s s')
      (ht : Restarted s' t) : Restarted s t

inductive CrashAction (β : Type) where
  | ends (a : QueueAction β)
  | stops (a : QueueAction β)

def CrashAction.action {β : Type} : CrashAction β → QueueAction β
  | .ends a => a
  | .stops a => a

/-- The runs of the queue with crashes. -/
def crashSystem : System (QueueDir β) (CrashAction β) where
  init d := d = QueueDir.initial
  step d c t :=
    match c with
    | .ends a => t = a.perform limits codec d
    | .stops a => ∃ s, a.StopsIn limits codec d s ∧ Restarted limits s t

end Crashes

section Atomicity

variable {β : Type} {limits : QueueLimits} {codec : QueueCodec β} {d s t : QueueDir β}

theorem Atomic.stops {α : Type} {p : QueueProgram β α} {x : Except QueueError α}
    (h : Atomic limits p d t x) (ht : Placed limits t)
    (hstop : Stops (Answered QueueDir.perform) p d s) :
    Placed limits s ∧ (Winner s = Winner d ∨ Winner s = Winner t) := by
  refine hstop.meets h (fun _ _ hu => hu) ?_
  rintro u y ⟨-, rfl⟩
  exact ⟨ht, Or.inr rfl⟩

/-- Where record ids are unique every record is the winner of its id. -/
theorem winner_iff_mem (hu : UniqueIds d) {f : SlotFile β} : Winner d f ↔ f ∈ d.slots := by
  constructor
  · exact fun h => h.1
  · intro hf
    refine ⟨hf, fun g hg hid => ?_⟩
    rw [uniqueIds_iff.1 hu g hg f hf hid]

/-- The restart always works, and keeps the winners. -/
theorem restart_spec (hs : Placed limits s) :
    ∃ t, run (restart limits) s = (.ok (), t) ∧ Reconciled limits s t := by
  obtain ⟨t, hatomic, ht⟩ := reconcile_spec hs
  exact ⟨t, hatomic.run, ht⟩

theorem Restarted.spec (hs : Placed limits s) (h : Restarted limits s t) :
    Counted limits t ∧ UniqueIds t ∧ ∀ f, f ∈ t.slots ↔ Winner s f := by
  induction h with
  | ends h =>
      obtain ⟨t', hrun, ht⟩ := restart_spec hs
      cases h.symm.trans hrun
      exact ⟨ht.toCounted, ht.unique hs, ht.mem_slots⟩
  | stops h _ ih =>
      obtain ⟨u, hatomic, hu⟩ := reconcile_spec hs
      obtain ⟨hplaced, hwinner⟩ := hatomic.stops hu.toPlaced h
      rw [hu.winner, or_self] at hwinner
      rw [← hwinner]
      exact ih hplaced

/-- Between the two halves of a move that keeps record ids unique, the winners are those of an
end. -/
theorem move_between (hcanon : CanonicalIds codec d) {item : QueueItem β} {destination : Lane}
    {body : Option β} (hk : KeepsIds codec d (.move item destination body)) {u : QueueDir β}
    {place : QueueItem β} {x : Except QueueError Unit}
    (h : EnqueueResult limits codec d destination (movedInput item body) "" false true t
      (.ok place)) (hc : CompleteResult limits t item u x) :
    Winner t = Winner d ∨ Winner t = Winner u := by
  rcases h.slots_or_linked with hslots | ⟨record, size, cursor, hp, -, -, -, ht⟩
  · exact Or.inl (winner_congr (by rw [hslots]))
  right
  obtain ⟨hsome, hgeneration, -⟩ := prepareRecord_ok hp
  have hgen : record.generation = item.record.generation + 1 := hgeneration
  have hid : codec.canonicalUuid item.record.recordId = some record.recordId := hsome
  rcases hk with ⟨f, hf, hloc, hfid, hfgen⟩ | hnew | ⟨hfree, hne⟩
  · -- the moved record is above the record it replaces
    obtain rfl := (hc.of_owns (h.keeps hf) hloc hfid hfgen).2
    symm
    refine winner_eq_of_sublist List.filter_sublist fun w hw => ?_
    refine (mem_unlinkSlot (h.keeps hf)).2 ⟨hw.1, ?_⟩
    rintro rfl
    have hrecord : record.recordId = w.record.recordId := by
      rw [← hfid, hcanon w hf] at hid
      exact (Option.some.inj hid).symm
    have hle := hw.2 _ ((mem_linked ht).2 (Or.inr rfl)) hrecord
    exact absurd hle (not_le.2 (SlotFile.rank_lt_of_generation (by dsimp only; omega)))
  · cases hc with
    | stale _ hu => exact hu.winner.symm
    | foreign => rfl
    | released hfile _ hfid hfgen =>
        rcases (mem_linked ht).1 hfile with hold | rfl
        · rw [← hfid, hcanon _ hold] at hid
          exact absurd ⟨_, hold, rfl⟩ (hnew _ (by rw [← hfid, hcanon _ hold]))
        · dsimp only at hfgen
          omega
  · exact (hc.of_free (h.free hfree hne)).winner.symm

/-- Wherever an operation that keeps record ids unique stops, the winners are those before it or
those after it. -/
theorem stops_of_keepsIds (hd : Counted limits d) (hcanon : CanonicalIds codec d)
    {a : QueueAction β} (hk : KeepsIds codec d a) (h : a.StopsIn limits codec d s) :
    Placed limits s ∧ (Winner s = Winner d ∨ Winner s = Winner (a.perform limits codec d)) := by
  cases a with
  | enqueue lane input fresh deduplicate deduplicateGeneration =>
      obtain ⟨t, x, hatomic, ht⟩ :=
        enqueue_spec hd codec lane input fresh deduplicate deduplicateGeneration
      rw [show QueueAction.perform limits codec d (.enqueue lane input fresh deduplicate
        deduplicateGeneration) = t from congrArg Prod.snd hatomic.run]
      exact hatomic.stops (ht.counted hd).toPlaced h
  | complete item =>
      obtain ⟨t, x, hatomic, ht⟩ := complete_spec hd item
      rw [show QueueAction.perform limits codec d (.complete item) = t from
        congrArg Prod.snd hatomic.run]
      exact hatomic.stops (ht.counted hd).toPlaced h
  | move item destination body =>
      obtain ⟨t, x, hatomic, ht⟩ := move_atomic hd codec item destination body
        fun _ _ _ _ => move_between hcanon hk
      rw [show QueueAction.perform limits codec d (.move item destination body) = t from
        congrArg Prod.snd hatomic.run]
      exact hatomic.stops (ht.counted hd).toPlaced h
  | peek lane =>
      rw [show QueueAction.perform limits codec d (.peek lane) = d from
        congrArg Prod.snd (peek_spec hd lane).run]
      exact (peek_spec hd lane).stops hd.toPlaced h
  | peekDue lane isDue maxRecords =>
      obtain ⟨t, x, hatomic, ht⟩ := peekDue_spec hd lane isDue maxRecords
      rw [show QueueAction.perform limits codec d (.peekDue lane isDue maxRecords) = t from
        congrArg Prod.snd hatomic.run]
      apply hatomic.stops _ h
      rcases ht.dir with rfl | ht
      · exact hd.toPlaced
      · exact ht.toPlaced
  | reconcile =>
      obtain ⟨t, hatomic, ht⟩ := reconcile_spec hd.toPlaced
      rw [show QueueAction.perform limits codec d .reconcile = t from
        congrArg Prod.snd hatomic.run]
      exact hatomic.stops ht.toPlaced h

/-- After a crash and a restart the slot files are those before the operation or those after it. -/
theorem crash_slots (hd : Counted limits d) (hcanon : CanonicalIds codec d) (hu : UniqueIds d)
    {a : QueueAction β} (hk : KeepsIds codec d a) (hstop : a.StopsIn limits codec d s)
    (hrestart : Restarted limits s t) :
    Counted limits t ∧ UniqueIds t ∧ ((∀ f, f ∈ t.slots ↔ f ∈ d.slots) ∨
      ∀ f, f ∈ t.slots ↔ f ∈ (a.perform limits codec d).slots) := by
  obtain ⟨hplaced, hwinner⟩ := stops_of_keepsIds hd hcanon hk hstop
  obtain ⟨hcounted, hunique, hmem⟩ := hrestart.spec hplaced
  have hu' := (perform_effect hd codec a).unique hd hcanon hu hk
  refine ⟨hcounted, hunique, hwinner.imp ?_ ?_⟩
  · intro hw f
    rw [hmem, hw, winner_iff_mem hu]
  · intro hw f
    rw [hmem, hw, winner_iff_mem hu']

/-- What holds of the directory between operations. -/
structure Settled (limits : QueueLimits) (codec : QueueCodec β) (d : QueueDir β) : Prop where
  counted : Counted limits d
  canonical : CanonicalIds codec d
  unique : UniqueIds d

theorem Settled.perform (hd : Settled limits codec d) {a : QueueAction β}
    (hk : KeepsIds codec d a) : Settled limits codec (a.perform limits codec d) where
  counted := (perform_effect hd.counted codec a).counted hd.counted
  canonical := (perform_effect hd.counted codec a).canonicalIds hd.canonical
  unique := (perform_effect hd.counted codec a).unique hd.counted hd.canonical hd.unique hk

theorem settled_of_reachable
    (h : (crashSystem limits codec).Reachable (fun d c => KeepsIds codec d c.action) d) :
    Settled limits codec d := by
  apply h.invariant
  · rintro s rfl
    exact ⟨counted_initial, fun f hf => absurd hf List.not_mem_nil, List.nodup_nil⟩
  · rintro s (a | a) t hs hk hstep
    · obtain rfl : t = a.perform limits codec s := hstep
      exact hs.perform hk
    · obtain ⟨s', hstop, hrestart⟩ := hstep
      obtain ⟨hcounted, hunique, hcase⟩ :=
        crash_slots hs.counted hs.canonical hs.unique hk hstop hrestart
      refine ⟨hcounted, fun f hf => ?_, hunique⟩
      rcases hcase with hmem | hmem
      · exact hs.canonical f ((hmem f).1 hf)
      · exact (hs.perform hk).canonical f ((hmem f).1 hf)

/-- The live records with their lanes, without their sequence numbers. -/
def livePairs (d : QueueDir β) : List (Lane × Uuid × Nat × β) :=
  d.slots.rows.map fun f =>
    (f.location.lane, f.record.recordId, f.record.generation, f.record.body)

theorem livePairs_congr (h : ∀ f, f ∈ t.slots ↔ f ∈ d.slots) (p : Lane × Uuid × Nat × β) :
    p ∈ livePairs t ↔ p ∈ livePairs d := by
  unfold livePairs
  rw [List.mem_map, List.mem_map]
  constructor
  · rintro ⟨f, hf, hp⟩
    exact ⟨f, (h f).1 hf, hp⟩
  · rintro ⟨f, hf, hp⟩
    exact ⟨f, (h f).2 hf, hp⟩

/-- In the runs whose steps keep record ids unique every operation is crash atomic. -/
theorem queue_crash_atomic (limits : QueueLimits) (codec : QueueCodec β)
    (h : (crashSystem limits codec).Reachable (fun d c => KeepsIds codec d c.action) d)
    {a : QueueAction β} (hk : KeepsIds codec d a) (hstop : a.StopsIn limits codec d s) :
    (∃ t, Restarted limits s t) ∧ ∀ t, Restarted limits s t →
      ((∀ p, p ∈ livePairs t ↔ p ∈ livePairs d) ∨
        ∀ p, p ∈ livePairs t ↔ p ∈ livePairs (a.perform limits codec d)) ∧ UniqueIds t := by
  have hd := settled_of_reachable h
  constructor
  · obtain ⟨t, hrun, -⟩ := restart_spec (stops_of_keepsIds hd.counted hd.canonical hk hstop).1
    exact ⟨t, .ends hrun⟩
  · intro t hrestart
    obtain ⟨-, hunique, hcase⟩ := crash_slots hd.counted hd.canonical hd.unique hk hstop hrestart
    exact ⟨hcase.imp livePairs_congr livePairs_congr, hunique⟩

end Atomicity

/-! ## A move in two halves -/

/-- The item of the sample record in `ready`. -/
def sampleItem : QueueItem Unit :=
  ⟨⟨.ready, 0, 0⟩, ⟨"00000000-0000-4000-8000-000000000001", 0, 0, ()⟩⟩

/-- The directory that a crash leaves after a move has linked its record. -/
def halfMoved : QueueDir Unit :=
  Program.stopAfter QueueDir.perform 6 (queueMove queueLimits sampleCodec sampleItem .deferred none)
    enqueuedOnce

/-- The crash leaves both records, and the restart the moved one. -/
theorem halfMoved_recovers : halfMoved.slots.rows.length = 2 ∧
    (∃ t, Restarted queueLimits halfMoved t) ∧ ∀ t, Restarted queueLimits halfMoved t →
      ((∀ p, p ∈ livePairs t ↔ p ∈ livePairs enqueuedOnce) ∨
        ∀ p, p ∈ livePairs t ↔ p ∈ livePairs (QueueAction.perform queueLimits sampleCodec
          enqueuedOnce (.move sampleItem .deferred none))) ∧ UniqueIds t := by
  have hfirst : KeepsIds sampleCodec (QueueDir.initial : QueueDir Unit) repeatEnqueue := by
    right
    rintro recordId - ⟨f, hf, -⟩
    exact absurd hf List.not_mem_nil
  have hreach : (crashSystem queueLimits sampleCodec).Reachable
      (fun d c => KeepsIds sampleCodec d c.action) enqueuedOnce :=
    (System.Reachable.of_init rfl).step (a := .ends repeatEnqueue) hfirst rfl
  have howns : KeepsIds sampleCodec enqueuedOnce (.move sampleItem .deferred none) := by
    left
    show ∃ f ∈ enqueuedOnce.slots.rows, f.location = sampleItem.location ∧
      f.record.recordId = sampleItem.record.recordId ∧
        f.record.generation = sampleItem.record.generation
    decide +kernel
  exact ⟨by decide +kernel, queue_crash_atomic queueLimits sampleCodec hreach howns
    (Program.stopAfter_stops QueueDir.perform 6 _ enqueuedOnce)⟩

/-- The sample record is moved to `deferred`. -/
def movedAway : QueueDir Unit :=
  QueueAction.perform queueLimits sampleCodec enqueuedOnce (.move sampleItem .deferred none)

/-- Its item, now stale, is completed. -/
def completedAgain : QueueDir Unit :=
  QueueAction.perform queueLimits sampleCodec movedAway (.complete sampleItem)

/-- Another record takes the slot. -/
def slotReused : QueueDir Unit :=
  (sampleIntent "00000000-0000-4000-8000-000000000002").perform queueLimits sampleCodec
    completedAgain

/-- The move of the stale item. -/
def staleMove : QueueAction Unit := .move sampleItem .ready none

/-- The directory that a crash leaves after the stale move has linked its record. -/
def staleHalf : QueueDir Unit :=
  Program.stopAfter QueueDir.perform 6 (queueMove queueLimits sampleCodec sampleItem .ready none)
    slotReused

/-- After the crash of the stale move the restart keeps the new record in place of the live one,
which is neither the state before the move nor the state after it. -/
theorem staleMove_not_atomic :
    (crashSystem queueLimits sampleCodec).Reachable System.Any slotReused ∧
      staleMove.StopsIn queueLimits sampleCodec slotReused staleHalf ∧
      ∃ t, Restarted queueLimits staleHalf t ∧
        ¬ (∀ p, p ∈ livePairs t ↔ p ∈ livePairs slotReused) ∧
        ¬ ∀ p, p ∈ livePairs t ↔
          p ∈ livePairs (staleMove.perform queueLimits sampleCodec slotReused) := by
  have hruns : (run (restart queueLimits) staleHalf).1 = .ok () ∧
      livePairs (run (restart queueLimits) staleHalf).2 =
        [(.ready, "00000000-0000-4000-8000-000000000002", 0, ()),
          (.ready, "00000000-0000-4000-8000-000000000001", 1, ())] ∧
      livePairs slotReused =
        [(.deferred, "00000000-0000-4000-8000-000000000001", 1, ()),
          (.ready, "00000000-0000-4000-8000-000000000002", 0, ())] ∧
      livePairs (staleMove.perform queueLimits sampleCodec slotReused) =
        [(.deferred, "00000000-0000-4000-8000-000000000001", 1, ()),
          (.ready, "00000000-0000-4000-8000-000000000002", 0, ()),
          (.ready, "00000000-0000-4000-8000-000000000001", 1, ())] := by
    decide +kernel
  obtain ⟨hrestart, hafter, hbefore, hdone⟩ := hruns
  have hreach₁ : (crashSystem queueLimits sampleCodec).Reachable System.Any enqueuedOnce :=
    (System.Reachable.of_init rfl).step (a := .ends repeatEnqueue) trivial rfl
  have hreach₂ : (crashSystem queueLimits sampleCodec).Reachable System.Any movedAway :=
    hreach₁.step (a := .ends (.move sampleItem .deferred none)) trivial rfl
  have hreach₃ : (crashSystem queueLimits sampleCodec).Reachable System.Any completedAgain :=
    hreach₂.step (a := .ends (.complete sampleItem)) trivial rfl
  have hreach : (crashSystem queueLimits sampleCodec).Reachable System.Any slotReused :=
    hreach₃.step (a := .ends (sampleIntent "00000000-0000-4000-8000-000000000002")) trivial rfl
  have hends : run (restart queueLimits) staleHalf =
      (.ok (), (run (restart queueLimits) staleHalf).2) := by
    rw [← hrestart]
  refine ⟨hreach, Program.stopAfter_stops QueueDir.perform 6 _ slotReused, _, .ends hends, ?_, ?_⟩
  · rw [hafter, hbefore]
    intro h
    have hmem := (h (.ready, "00000000-0000-4000-8000-000000000001", 1, ())).1 (by decide)
    revert hmem
    decide
  · rw [hafter, hdone]
    intro h
    have hmem := (h (.deferred, "00000000-0000-4000-8000-000000000001", 1, ())).2 (by decide)
    revert hmem
    decide

end WheelForge.Maintenance
