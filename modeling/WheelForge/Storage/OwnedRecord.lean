import WheelForge.Maintenance.MoveCapacity
import WheelForge.Storage.Publication

/-!
# The queue record of a publication in progress

Between the sections of a call the queue has one record of it: the intent in its own slot, or a
later generation that sweeps have moved out of the lane `ready`. Whatever others do to the queue
leaves that record alone (`Owned.effect`), and a sweep that handles it moves it on
(`Owned.move_self`).
-/

set_option autoImplicit false

namespace WheelForge.Storage

open WheelForge.Maintenance

/-- A record is about the stage file of a call. -/
def Describes (p : Publication) (body : QueueBody) : Prop :=
  ∃ record, body = .publication record ∧ record.stageOwnershipToken = p.stageIdentifier

/-- The one record of a call in progress. -/
structure Owned (d : QueueDir QueueBody) (p : Publication) (f : SlotFile QueueBody) : Prop where
  mem : f ∈ d.slots
  own : f.record.recordId = p.intent.record.recordId
  sole : ∀ g ∈ d.slots,
    g.record.recordId = p.intent.record.recordId ∨ Describes p g.record.body → g = f
  body : f.record.body = p.intent.record.body
  place : f.item = p.intent ∨ (1 ≤ f.record.generation ∧ f.location.lane ≠ .ready)

/-- An operation that neither names the record id of a call nor describes its stage file. -/
def Apart (codec : QueueCodec QueueBody) (p : Publication) : QueueAction QueueBody → Prop
  | .enqueue _ input fresh _ _ =>
      (∀ id, codec.canonicalUuid (input.recordId.getD fresh) = some id →
        p.intent.record.recordId ≠ id) ∧ ¬ Describes p input.body
  | .complete item => p.intent.record.recordId ≠ item.record.recordId
  | .move item _ body =>
      p.intent.record.recordId ≠ item.record.recordId ∧
      (∀ id, codec.canonicalUuid item.record.recordId = some id →
        p.intent.record.recordId ≠ id) ∧
      ¬ Describes p (body.getD item.record.body)
  | _ => True

section Others

variable {limits : QueueLimits} {codec : QueueCodec QueueBody} {d t u : QueueDir QueueBody}
  {p : Publication} {f : SlotFile QueueBody}

/-- The record stays while the files of the queue are a part of what they were and contain it. -/
theorem Owned.of_subset (h : Owned d p f) (hmem : f ∈ t.slots)
    (hsub : ∀ g ∈ t.slots, g ∈ d.slots) : Owned t p f :=
  ⟨hmem, h.own, fun g hg => h.sole g (hsub g hg), h.body, h.place⟩

theorem Owned.of_slots (h : Owned d p f) (hslots : t.slots = d.slots) : Owned t p f := by
  refine h.of_subset ?_ ?_
  · rw [hslots]
    exact h.mem
  · intro g hg
    rw [hslots] at hg
    exact hg

/-- The one record of its id is what reconciliation keeps. -/
theorem Owned.reconciled (h : Owned d p f) (ht : Reconciled limits d t) : Owned t p f := by
  have hwinner : Winner d f := by
    refine ⟨h.mem, fun g hg hid => ?_⟩
    rw [h.sole g hg (Or.inl (hid.trans h.own))]
  exact h.of_subset ((ht.mem_slots f).2 hwinner) fun g hg => ht.slots.subset hg

theorem Owned.enqueue (ho : Owned d p f) {lane : Lane} {input : RecordInput QueueBody}
    {fresh : Uuid} {deduplicate deduplicateGeneration : Bool}
    {x : Except QueueError (QueueItem QueueBody)}
    (h : EnqueueResult limits codec d lane input fresh deduplicate deduplicateGeneration t x)
    (hid : ∀ id, codec.canonicalUuid (input.recordId.getD fresh) = some id →
      p.intent.record.recordId ≠ id) (hbody : ¬ Describes p input.body) : Owned t p f := by
  rcases h.slots_or_linked with hslots | ⟨record, size, cursor, hp, -, -, -, ht⟩
  · exact ho.of_slots hslots
  · obtain ⟨hcanon, -, hrecord⟩ := prepareRecord_ok hp
    refine ⟨(mem_linked ht).2 (Or.inl ho.mem), ho.own, ?_, ho.body, ho.place⟩
    intro g hg hcase
    rcases (mem_linked ht).1 hg with hold | rfl
    · exact ho.sole g hold hcase
    · -- the linked record is about something else
      rcases hcase with hsame | hdescribes
      · exact absurd hsame.symm (hid _ hcanon)
      · dsimp only at hdescribes
        rw [hrecord] at hdescribes
        exact absurd hdescribes hbody

theorem Owned.complete (ho : Owned d p f) {item : QueueItem QueueBody}
    {x : Except QueueError Unit} (h : CompleteResult limits d item t x)
    (hid : p.intent.record.recordId ≠ item.record.recordId) : Owned t p f := by
  cases h with
  | stale _ ht => exact ho.reconciled ht
  | foreign => exact ho
  | released hfile _ hitem =>
      refine ho.of_subset ((mem_unlinkSlot hfile).2 ⟨ho.mem, ?_⟩) ?_
      · rintro rfl
        exact hid (ho.own.symm.trans hitem)
      · exact fun g hg => ((mem_unlinkSlot hfile).1 hg).1

/-- Operations of others leave the record of a call. -/
theorem Owned.effect (ho : Owned d p f) {a : QueueAction QueueBody}
    (h : QueueEffect limits codec d a t) (ha : Apart codec p a) : Owned t p f := by
  cases h with
  | enqueue h => exact ho.enqueue h ha.1 ha.2
  | complete h => exact ho.complete h ha
  | move h =>
      obtain ⟨hid, hcanon, hbody⟩ := ha
      cases h with
      | failed h => exact ho.enqueue h hcanon hbody
      | unreleased h hc => exact (ho.enqueue h hcanon hbody).complete hc hid
      | moved h hc => exact (ho.enqueue h hcanon hbody).complete hc hid
  | peek => exact ho
  | peekDue h =>
      rcases h with rfl | ht
      · exact ho
      · exact ho.reconciled ht
  | reconcile ht => exact ho.reconciled ht

end Others

section Own

variable {limits : QueueLimits} {codec : QueueCodec QueueBody} {d t u : QueueDir QueueBody}
  {p : Publication} {f : SlotFile QueueBody}

/-- The destination does not hold the next generation of a record that is alone. -/
theorem Owned.not_holdsNext (ho : Owned d p f) (destination : Lane) :
    ¬ HoldsNext d f.item destination := by
  rintro ⟨g, hg, -, hid, hgen⟩
  have hsame := ho.sole g hg (Or.inl (hid.trans ho.own))
  rw [hsame] at hgen
  exact Nat.succ_ne_self _ hgen.symm

/-- How the enqueue of a move of the record of a call ends. -/
theorem Owned.enqueue_moved (hd : Counted limits d) (ho : Owned d p f)
    (hcanon : codec.canonicalUuid f.record.recordId = some f.record.recordId)
    {destination : Lane} {body : Option QueueBody} {x : Except QueueError (QueueItem QueueBody)}
    (h : EnqueueResult limits codec d destination (movedInput f.item body) "" false true t x) :
    (t.slots = d.slots ∧ ∃ e, x = .error e) ∨ ∃ size cursor,
      x = .ok ⟨locationAt limits destination cursor, movedRecord d f.item body⟩ ∧
      FirstFree limits d destination cursor ∧
      Linked limits d destination (movedRecord d f.item body) size cursor t := by
  have hp : prepareRecord codec (movedInput f.item body) "" d.state.nextSequence =
      .ok (movedRecord d f.item body) := prepareRecord_moved codec d hcanon body
  cases h with
  | invalid => exact Or.inl ⟨rfl, _, rfl⟩
  | oversized => exact Or.inl ⟨rfl, _, rfl⟩
  | refused => exact Or.inl ⟨rfl, _, rfl⟩
  | existing h hfile =>
      cases hp.symm.trans h
      have hne : existingItem limits d destination (movedInput f.item body)
          (movedRecord d f.item body) false true ≠ none := by
        rw [hfile]
        exact Option.some_ne_none _
      exact absurd ((holdsNext_iff hd.toPlaced).1 hne) (ho.not_holdsNext destination)
  | linked h _ _ _ hcursor ht =>
      cases hp.symm.trans h
      exact Or.inr ⟨_, _, rfl, hcursor, ht⟩

/-- A sweep that defers or holds the record of a call moves it on. -/
theorem Owned.move_self (hd : Counted limits d) (ho : Owned d p f)
    (hcanon : codec.canonicalUuid f.record.recordId = some f.record.recordId)
    {destination : Lane} (hlane : destination ≠ .ready) {body : Option QueueBody}
    (hbody : body.getD f.record.body = f.record.body)
    {x : Except QueueError (QueueItem QueueBody)}
    (h : MoveResult limits codec d f.item destination body u x) : ∃ g, Owned u p g := by
  cases h with
  | failed h => exact ⟨f, ho.of_slots h.slots_of_error⟩
  | unreleased h hc =>
      have hx := (hc.of_owns (h.keeps ho.mem) rfl rfl rfl).1
      cases hx
  | moved h hc =>
      rcases ho.enqueue_moved hd hcanon h with ⟨-, e, he⟩ | ⟨size, cursor, -, hcursor, ht⟩
      · cases he
      · obtain rfl := (hc.of_owns (h.keeps ho.mem) rfl rfl rfl).2
        have hmem := fun g => mem_unlinkSlot (f := g) (h.keeps ho.mem)
        have hne : (⟨locationAt limits destination cursor, movedRecord d f.item body, size⟩ :
            SlotFile QueueBody) ≠ f := by
          rintro heq
          exact hcursor.free f ho.mem (congrArg SlotFile.location heq.symm)
        refine ⟨⟨locationAt limits destination cursor, movedRecord d f.item body, size⟩,
          (hmem _).2 ⟨(mem_linked ht).2 (Or.inr rfl), hne⟩, ho.own, ?_, ?_, ?_⟩
        · intro g hg hcase
          obtain ⟨hg, hnot⟩ := (hmem g).1 hg
          rcases (mem_linked ht).1 hg with hold | hnew
          · exact absurd (ho.sole g hold hcase) hnot
          · exact hnew
        · exact hbody.trans ho.body
        · exact Or.inr ⟨Nat.le_add_left 1 _, hlane⟩

end Own

end WheelForge.Storage
