import WheelForge.Maintenance.QueueSpec
import WheelForge.Transition.System

/-!
# Runs of the queue without crashes

`queueSystem` takes the operations of the queue in any order, from the directory that `ensure`
creates. Its counters are exact and its totals within the limits in every reachable state
(`counted_of_reachable`). Record ids are unique as long as every step `KeepsIds`: deduplication is
what keeps them so, and an enqueue that is told not to deduplicate may repeat a live record id.
-/

set_option autoImplicit false

namespace WheelForge.Maintenance

open WheelForge.Interaction
open WheelForge.Relational
open WheelForge.Transition

/-! ## The system -/

inductive QueueAction (β : Type) where
  | enqueue (lane : Lane) (input : RecordInput β) (fresh : Uuid)
      (deduplicate deduplicateGeneration : Bool)
  | complete (item : QueueItem β)
  | move (item : QueueItem β) (destination : Lane) (body : Option β)
  | peek (lane : Lane)
  | peekDue (lane : Lane) (isDue : QueueRecord β → Bool) (maxRecords : Int)
  | reconcile

section System

variable {β : Type} (limits : QueueLimits) (codec : QueueCodec β)

/-- The directory after an operation, however the operation ends. -/
def QueueAction.perform (d : QueueDir β) : QueueAction β → QueueDir β
  | .enqueue lane input fresh deduplicate deduplicateGeneration =>
      (run (Maintenance.enqueue limits codec lane input fresh deduplicate deduplicateGeneration)
        d).2
  | .complete item => (run (Maintenance.complete limits item) d).2
  | .move item destination body => (run (queueMove limits codec item destination body) d).2
  | .peek lane => (run (Maintenance.peek limits lane) d).2
  | .peekDue lane isDue maxRecords =>
      (run (Maintenance.peekDue limits lane isDue maxRecords) d).2
  | .reconcile => (run (Maintenance.reconcile limits) d).2

/-- The runs of the queue. -/
def queueSystem : System (QueueDir β) (QueueAction β) where
  init d := d = QueueDir.initial
  step d a t := t = a.perform limits codec d

end System

section Counters

variable {β : Type} {limits : QueueLimits} {codec : QueueCodec β} {d t : QueueDir β}

theorem counted_initial : Counted limits (QueueDir.initial : QueueDir β) where
  segments_nodup := List.nodup_nil
  segment_lt _ h := absurd h List.not_mem_nil
  file_within _ h := absurd h List.not_mem_nil
  temp_within _ h := absurd h List.not_mem_nil
  temps_le := Nat.zero_le 1
  records_le := Nat.zero_le _
  bytes_le := Nat.zero_le _
  sequences := List.nodup_nil
  valid := by
    rw [validState_iff]
    intro lane
    exact ⟨limits.capacity_pos, limits.capacity_pos, Nat.zero_le _, Nat.zero_le _, Nat.zero_le _⟩
  temps := rfl
  count _ := rfl
  bytes _ := rfl
  segments _ := rfl
  sequence_lt _ h := absurd h List.not_mem_nil

/-- What a step may do. -/
inductive QueueEffect (limits : QueueLimits) (codec : QueueCodec β) (d : QueueDir β) :
    QueueAction β → QueueDir β → Prop
  | enqueue {lane : Lane} {input : RecordInput β} {fresh : Uuid}
      {deduplicate deduplicateGeneration : Bool} {t : QueueDir β}
      {x : Except QueueError (QueueItem β)}
      (h : EnqueueResult limits codec d lane input fresh deduplicate deduplicateGeneration t x) :
      QueueEffect limits codec d (.enqueue lane input fresh deduplicate deduplicateGeneration) t
  | complete {item : QueueItem β} {t : QueueDir β} {x : Except QueueError Unit}
      (h : CompleteResult limits d item t x) : QueueEffect limits codec d (.complete item) t
  | move {item : QueueItem β} {destination : Lane} {body : Option β} {t : QueueDir β}
      {x : Except QueueError (QueueItem β)}
      (h : MoveResult limits codec d item destination body t x) :
      QueueEffect limits codec d (.move item destination body) t
  | peek (lane : Lane) : QueueEffect limits codec d (.peek lane) d
  | peekDue {lane : Lane} {isDue : QueueRecord β → Bool} {maxRecords : Int} {t : QueueDir β}
      (h : t = d ∨ Reconciled limits d t) :
      QueueEffect limits codec d (.peekDue lane isDue maxRecords) t
  | reconcile {t : QueueDir β} (h : Reconciled limits d t) :
      QueueEffect limits codec d .reconcile t

/-- The steps of the queue on exact counters. -/
theorem perform_effect (hd : Counted limits d) (codec : QueueCodec β) (a : QueueAction β) :
    QueueEffect limits codec d a (a.perform limits codec d) := by
  cases a with
  | enqueue lane input fresh deduplicate deduplicateGeneration =>
      obtain ⟨t, x, hatomic, ht⟩ :=
        enqueue_spec hd codec lane input fresh deduplicate deduplicateGeneration
      rw [show QueueAction.perform limits codec d (.enqueue lane input fresh deduplicate
        deduplicateGeneration) = t from congrArg Prod.snd hatomic.run]
      exact .enqueue ht
  | complete item =>
      obtain ⟨t, x, hatomic, ht⟩ := complete_spec hd item
      rw [show QueueAction.perform limits codec d (.complete item) = t from
        congrArg Prod.snd hatomic.run]
      exact .complete ht
  | move item destination body =>
      obtain ⟨t, x, hrun, ht⟩ := move_spec hd codec item destination body
      rw [show QueueAction.perform limits codec d (.move item destination body) = t from
        congrArg Prod.snd hrun]
      exact .move ht
  | peek lane =>
      rw [show QueueAction.perform limits codec d (.peek lane) = d from
        congrArg Prod.snd (peek_spec hd lane).run]
      exact .peek lane
  | peekDue lane isDue maxRecords =>
      obtain ⟨t, x, hatomic, ht⟩ := peekDue_spec hd lane isDue maxRecords
      rw [show QueueAction.perform limits codec d (.peekDue lane isDue maxRecords) = t from
        congrArg Prod.snd hatomic.run]
      exact .peekDue ht.dir
  | reconcile =>
      obtain ⟨t, hatomic, ht⟩ := reconcile_spec hd.toPlaced
      rw [show QueueAction.perform limits codec d .reconcile = t from
        congrArg Prod.snd hatomic.run]
      exact .reconcile ht

/-- Every step keeps the counters exact. -/
theorem QueueEffect.counted {a : QueueAction β} (hd : Counted limits d)
    (h : QueueEffect limits codec d a t) : Counted limits t := by
  cases h with
  | enqueue h => exact h.counted hd
  | complete h => exact h.counted hd
  | move h => exact h.counted hd
  | peek => exact hd
  | peekDue h =>
      rcases h with rfl | h
      · exact hd
      · exact h.toCounted
  | reconcile h => exact h.toCounted

/-- An invariant of exact directories, step by step. -/
theorem reachable_induction {C : QueueDir β → QueueAction β → Prop} {P : QueueDir β → Prop}
    (hinit : P QueueDir.initial)
    (hstep : ∀ {s t : QueueDir β} {a : QueueAction β}, Counted limits s → P s → C s a →
      QueueEffect limits codec s a t → P t)
    (h : (queueSystem limits codec).Reachable C d) : Counted limits d ∧ P d := by
  apply h.invariant
  · rintro s rfl
    exact ⟨counted_initial, hinit⟩
  · rintro s a t ⟨hs, hp⟩ hc rfl
    have heffect := perform_effect hs codec a
    exact ⟨heffect.counted hs, hstep hs hp hc heffect⟩

theorem counted_of_reachable {C : QueueDir β → QueueAction β → Prop}
    (h : (queueSystem limits codec).Reachable C d) : Counted limits d :=
  (reachable_induction (P := fun _ => True) trivial (fun _ _ _ _ => trivial) h).1

end Counters

/-! ## Record ids -/

section Ids

variable {β : Type} {limits : QueueLimits} {codec : QueueCodec β} {d t u : QueueDir β}

/-- A record id is live. -/
def Live (d : QueueDir β) (recordId : Uuid) : Prop := ∃ f ∈ d.slots, f.record.recordId = recordId

/-- The slot of an item holds the item's record. -/
def Owns (d : QueueDir β) (item : QueueItem β) : Prop :=
  ∃ f ∈ d.slots, f.location = item.location ∧ f.record.recordId = item.record.recordId ∧
    f.record.generation = item.record.generation

/-- Record ids are canonical texts. -/
def CanonicalIds (codec : QueueCodec β) (d : QueueDir β) : Prop :=
  ∀ f ∈ d.slots, codec.canonicalUuid f.record.recordId = some f.record.recordId

/-- The steps that keep record ids unique: an enqueue deduplicates, or brings a record id that is
not live; the item of a move still owns its slot, or its record id is not live, or its slot is
empty and in another lane than the destination. -/
def KeepsIds (codec : QueueCodec β) (d : QueueDir β) : QueueAction β → Prop
  | .enqueue _ input fresh deduplicate _ =>
      (deduplicate = true ∧ input.recordId.isSome = true) ∨
        ∀ recordId, codec.canonicalUuid (input.recordId.getD fresh) = some recordId →
          ¬ Live d recordId
  | .move item destination _ =>
      Owns d item ∨
        (∀ recordId, codec.canonicalUuid item.record.recordId = some recordId →
          ¬ Live d recordId) ∨
        (Free d item.location ∧ destination ≠ item.location.lane)
  | _ => True

theorem findRecordId_eq_none (hd : Placed limits d) {lanes : List Lane} {recordId : Uuid}
    {generation : Option Nat} (h : findRecordId limits d lanes recordId generation = none)
    {f : SlotFile β} (hf : f ∈ d.slots) (hl : f.location.lane ∈ lanes)
    (hid : f.record.recordId = recordId) :
    ∃ g, generation = some g ∧ f.record.generation ≠ g := by
  have hwithin := hd.file_within f hf
  have hcursor := Location.cursor_lt hwithin hd.segment_lt
  unfold findRecordId at h
  rw [List.findSome?_eq_none_iff] at h
  have hlane := h _ hl
  rw [List.findSome?_eq_none_iff] at hlane
  have hslot := hlane _ (List.mem_range.2 hcursor)
  rw [locationAt_cursor hwithin.2, readSlot_eq hd,
    show d.slots.find? f.location = some f from Table.find?_of_mem hf] at hslot
  cases generation with
  | none => simp [hid] at hslot
  | some g =>
      refine ⟨g, rfl, ?_⟩
      rintro rfl
      simp [hid] at hslot

theorem findRecordId_eq_some (hd : Placed limits d) {lanes : List Lane} {recordId : Uuid}
    {generation : Option Nat} {f : SlotFile β}
    (h : findRecordId limits d lanes recordId generation = some f) :
    f ∈ d.slots ∧ f.location.lane ∈ lanes ∧ f.record.recordId = recordId ∧
      ∀ g, generation = some g → f.record.generation = g := by
  unfold findRecordId at h
  obtain ⟨lane, hlane, h⟩ := List.exists_of_findSome?_eq_some h
  obtain ⟨cursor, -, hslot⟩ := List.exists_of_findSome?_eq_some h
  rw [readSlot_eq hd, Option.filter_eq_some_iff, Bool.and_eq_true, decide_eq_true_eq] at hslot
  obtain ⟨hfind, hid, hgen⟩ := hslot
  have hloc : f.location = locationAt limits lane cursor := Table.key_of_find? hfind
  refine ⟨Table.mem_of_find? hfind, ?_, hid, ?_⟩
  · rw [hloc]
    exact hlane
  · rintro g rfl
    exact of_decide_eq_true hgen

theorem uniqueIds_iff : UniqueIds d ↔ ∀ f ∈ d.slots, ∀ g ∈ d.slots,
    f.record.recordId = g.record.recordId → f = g := by
  have hrows : d.slots.rows.Nodup := List.Nodup.of_map _ d.slots.nodup
  constructor
  · intro h f hf g hg hid
    exact List.inj_on_of_nodup_map h hf hg hid
  · intro h
    exact List.Nodup.map_on h hrows

theorem UniqueIds.of_subset (h : UniqueIds d) (hsub : ∀ f ∈ t.slots, f ∈ d.slots) :
    UniqueIds t := by
  rw [uniqueIds_iff] at h ⊢
  intro f hf g hg hid
  exact h f (hsub f hf) g (hsub g hg) hid

/-- Completion adds no slot file. -/
theorem CompleteResult.subset {item : QueueItem β} {x : Except QueueError Unit}
    (h : CompleteResult limits d item t x) {f : SlotFile β} (hf : f ∈ t.slots) : f ∈ d.slots := by
  cases h with
  | stale _ ht => exact ht.slots.subset hf
  | foreign => exact hf
  | released hfile => exact ((mem_unlinkSlot hfile).1 hf).1

theorem prepareRecord_ok {input : RecordInput β} {fresh : Uuid} {sequence : Nat}
    {record : QueueRecord β} (h : prepareRecord codec input fresh sequence = .ok record) :
    codec.canonicalUuid (input.recordId.getD fresh) = some record.recordId ∧
      record.generation = (input.generation.getD 0).toNat ∧ record.body = input.body := by
  unfold prepareRecord at h
  split at h
  · cases h
  · next recordId hid =>
    split at h
    · cases h
      exact ⟨hid, rfl, rfl⟩
    · cases h

/-- An enqueue links its record, or leaves the slot files as they are. -/
theorem EnqueueResult.slots_or_linked {lane : Lane} {input : RecordInput β} {fresh : Uuid}
    {deduplicate deduplicateGeneration : Bool} {x : Except QueueError (QueueItem β)}
    (h : EnqueueResult limits codec d lane input fresh deduplicate deduplicateGeneration t x) :
    t.slots = d.slots ∨ ∃ record size cursor,
      prepareRecord codec input fresh d.state.nextSequence = .ok record ∧
      existingItem limits d lane input record deduplicate deduplicateGeneration = none ∧
      x = .ok ⟨locationAt limits lane cursor, record⟩ ∧
      FirstFree limits d lane cursor ∧ Linked limits d lane record size cursor t := by
  cases h with
  | invalid => exact Or.inl rfl
  | existing => exact Or.inl rfl
  | oversized => exact Or.inl rfl
  | refused => exact Or.inl rfl
  | linked hp hnone _ _ hcursor ht => exact Or.inr ⟨_, _, _, hp, hnone, rfl, hcursor, ht⟩

/-- A slot file after an enqueue is an old one or has the enqueued record. -/
theorem EnqueueResult.mem {lane : Lane} {input : RecordInput β} {fresh : Uuid}
    {deduplicate deduplicateGeneration : Bool} {x : Except QueueError (QueueItem β)}
    (h : EnqueueResult limits codec d lane input fresh deduplicate deduplicateGeneration t x)
    {f : SlotFile β} (hf : f ∈ t.slots) :
    f ∈ d.slots ∨ codec.canonicalUuid (input.recordId.getD fresh) = some f.record.recordId := by
  rcases h.slots_or_linked with hslots | ⟨record, size, cursor, hp, -, -, -, ht⟩
  · rw [hslots] at hf
    exact Or.inl hf
  · rcases (mem_linked ht).1 hf with hf | rfl
    · exact Or.inl hf
    · exact Or.inr (prepareRecord_ok hp).1

/-- An enqueue removes nothing. -/
theorem EnqueueResult.keeps {lane : Lane} {input : RecordInput β} {fresh : Uuid}
    {deduplicate deduplicateGeneration : Bool} {x : Except QueueError (QueueItem β)}
    (h : EnqueueResult limits codec d lane input fresh deduplicate deduplicateGeneration t x)
    {f : SlotFile β} (hf : f ∈ d.slots) : f ∈ t.slots := by
  rcases h.slots_or_linked with hslots | ⟨record, size, cursor, -, -, -, -, ht⟩
  · rw [hslots]
    exact hf
  · exact (mem_linked ht).2 (Or.inl hf)

/-- Live record ids are canonical in every run. -/
theorem QueueEffect.canonicalIds {a : QueueAction β} (hd : CanonicalIds codec d)
    (h : QueueEffect limits codec d a t) : CanonicalIds codec t := by
  have henqueue : ∀ {lane input fresh deduplicate deduplicateGeneration} {u : QueueDir β} {x},
      EnqueueResult limits codec d lane input fresh deduplicate deduplicateGeneration u x →
        CanonicalIds codec u := by
    intro lane input fresh deduplicate deduplicateGeneration u x h f hf
    rcases h.mem hf with hf | hid
    · exact hd f hf
    · exact codec.canonical hid
  cases h with
  | enqueue h => exact henqueue h
  | complete h => exact fun f hf => hd f (h.subset hf)
  | move h =>
      cases h with
      | failed h => exact henqueue h
      | unreleased h hc => exact fun f hf => henqueue h f (hc.subset hf)
      | moved h hc => exact fun f hf => henqueue h f (hc.subset hf)
  | peek => exact hd
  | peekDue h =>
      rcases h with rfl | h
      · exact hd
      · exact fun f hf => hd f (h.slots.subset hf)
  | reconcile h => exact fun f hf => hd f (h.slots.subset hf)

/-- An enqueue keeps record ids unique unless it links a live one. -/
theorem EnqueueResult.unique {lane : Lane} {input : RecordInput β} {fresh : Uuid}
    {deduplicate deduplicateGeneration : Bool} {x : Except QueueError (QueueItem β)}
    (hu : UniqueIds d)
    (h : EnqueueResult limits codec d lane input fresh deduplicate deduplicateGeneration t x)
    (hnew : ∀ record, prepareRecord codec input fresh d.state.nextSequence = .ok record →
      existingItem limits d lane input record deduplicate deduplicateGeneration = none →
        ¬ Live d record.recordId) : UniqueIds t := by
  rcases h.slots_or_linked with hslots | ⟨record, size, cursor, hp, hnone, -, -, ht⟩
  · apply hu.of_subset
    intro f hf
    rw [hslots] at hf
    exact hf
  · have hlive := hnew _ hp hnone
    rw [uniqueIds_iff] at hu ⊢
    intro f hf g hg hid
    rcases (mem_linked ht).1 hf with hf | rfl <;> rcases (mem_linked ht).1 hg with hg | rfl
    · exact hu f hf g hg hid
    · exact absurd ⟨f, hf, hid⟩ hlive
    · exact absurd ⟨g, hg, hid.symm⟩ hlive
    · rfl

/-- Completion keeps record ids unique. -/
theorem CompleteResult.unique {item : QueueItem β} {x : Except QueueError Unit}
    (hu : UniqueIds d) (h : CompleteResult limits d item t x) : UniqueIds t :=
  hu.of_subset fun _ => h.subset

/-- The completion of an item that owns its slot removes that slot file alone. -/
theorem CompleteResult.of_owns {item : QueueItem β} {x : Except QueueError Unit} {f : SlotFile β}
    (hf : f ∈ d.slots) (hloc : f.location = item.location)
    (hid : f.record.recordId = item.record.recordId)
    (hgen : f.record.generation = item.record.generation)
    (h : CompleteResult limits d item t x) : x = .ok () ∧ t = d.released limits f := by
  have hsame : ∀ {g : SlotFile β}, g ∈ d.slots → g.location = item.location → g = f :=
    fun hg hl => Table.eq_of_key_eq hg hf (hl.trans hloc.symm)
  cases h with
  | stale hfree => exact absurd hloc (hfree f hf)
  | foreign hg hl hne =>
      obtain rfl := hsame hg hl
      exact absurd hne (by rw [not_or, not_not, not_not]; exact ⟨hid, hgen⟩)
  | released hg hl =>
      obtain rfl := hsame hg hl
      exact ⟨rfl, rfl⟩

/-- The move of an item that owns its slot puts the moved record in the place of the item's. -/
theorem MoveResult.mem_of_owns {item : QueueItem β} {destination : Lane} {body : Option β}
    {x : Except QueueError (QueueItem β)} {f : SlotFile β} (hf : f ∈ d.slots)
    (hloc : f.location = item.location) (hid : f.record.recordId = item.record.recordId)
    (hgen : f.record.generation = item.record.generation)
    (h : MoveResult limits codec d item destination body u x) :
    u.slots = d.slots ∨ (∀ g, g ∈ u.slots ↔ g ∈ d.slots ∧ g ≠ f) ∨
      ∃ record size cursor, prepareRecord codec (movedInput item body) "" d.state.nextSequence =
          .ok record ∧ Free d (locationAt limits destination cursor) ∧
        ∀ g, g ∈ u.slots ↔ (g ∈ d.slots ∧ g ≠ f) ∨
          g = ⟨locationAt limits destination cursor, record, size⟩ := by
  cases h with
  | failed h =>
      rcases h.slots_or_linked with hslots | ⟨_, _, _, -, -, hx, -⟩
      · exact Or.inl hslots
      · cases hx
  | unreleased h hc =>
      have hx := (hc.of_owns (h.keeps hf) hloc hid hgen).1
      cases hx
  | moved h hc =>
      obtain rfl := (hc.of_owns (h.keeps hf) hloc hid hgen).2
      have hmem := fun g => mem_unlinkSlot (f := g) (h.keeps hf)
      rcases h.slots_or_linked with hslots | ⟨record, size, cursor, hp, -, -, hcursor, ht⟩
      · refine Or.inr (Or.inl fun g => ?_)
        rw [← hslots]
        exact hmem g
      · refine Or.inr (Or.inr ⟨record, size, cursor, hp, hcursor.free, fun g => ?_⟩)
        refine (hmem g).trans ?_
        rw [mem_linked ht]
        constructor
        · rintro ⟨hg | rfl, hne⟩
          · exact Or.inl ⟨hg, hne⟩
          · exact Or.inr rfl
        · rintro (⟨hg, hne⟩ | rfl)
          · exact ⟨Or.inl hg, hne⟩
          · refine ⟨Or.inr rfl, ?_⟩
            rintro rfl
            exact hcursor.free _ hf rfl

theorem EnqueueResult.slots_of_error {lane : Lane} {input : RecordInput β} {fresh : Uuid}
    {deduplicate deduplicateGeneration : Bool} {e : QueueError}
    (h : EnqueueResult limits codec d lane input fresh deduplicate deduplicateGeneration t
      (.error e)) : t.slots = d.slots := by
  rcases h.slots_or_linked with hslots | ⟨_, _, _, -, -, hx, -⟩
  · exact hslots
  · cases hx

/-- After an enqueue in another lane an empty slot is still empty. -/
theorem EnqueueResult.free {lane : Lane} {input : RecordInput β} {fresh : Uuid}
    {deduplicate deduplicateGeneration : Bool} {x : Except QueueError (QueueItem β)}
    (h : EnqueueResult limits codec d lane input fresh deduplicate deduplicateGeneration t x)
    {l : Location} (hl : Free d l) (hne : lane ≠ l.lane) : Free t l := by
  rcases h.slots_or_linked with hslots | ⟨record, size, cursor, -, -, -, -, ht⟩
  · unfold Free
    rw [hslots]
    exact hl
  · intro f hf
    rcases (mem_linked ht).1 hf with hf | rfl
    · exact hl f hf
    · rintro rfl
      exact hne rfl

/-- The completion of an item whose slot is empty reconciles. -/
theorem CompleteResult.of_free {item : QueueItem β} {x : Except QueueError Unit}
    (hfree : Free d item.location) (h : CompleteResult limits d item t x) :
    Reconciled limits d t := by
  cases h with
  | stale _ ht => exact ht
  | foreign hf hloc => exact absurd hloc (hfree _ hf)
  | released hf hloc => exact absurd hloc (hfree _ hf)

/-- The move of an item whose slot is empty, to another lane, ends in a reconciliation. -/
theorem MoveResult.of_free {item : QueueItem β} {destination : Lane} {body : Option β}
    {x : Except QueueError (QueueItem β)} (hd : Counted limits d) (hfree : Free d item.location)
    (hne : destination ≠ item.location.lane)
    (h : MoveResult limits codec d item destination body u x) :
    u.slots = d.slots ∨ ∃ t, Counted limits t ∧ Reconciled limits t u := by
  cases h with
  | failed h => exact Or.inl h.slots_of_error
  | unreleased h hc => exact Or.inr ⟨_, h.counted hd, hc.of_free (h.free hfree hne)⟩
  | moved h hc => exact Or.inr ⟨_, h.counted hd, hc.of_free (h.free hfree hne)⟩

/-- The move of a record id that is not live keeps record ids unique. -/
theorem MoveResult.unique_of_new {item : QueueItem β} {destination : Lane} {body : Option β}
    {x : Except QueueError (QueueItem β)} (hu : UniqueIds d)
    (hnew : ∀ recordId, codec.canonicalUuid item.record.recordId = some recordId →
      ¬ Live d recordId) (h : MoveResult limits codec d item destination body u x) :
    UniqueIds u := by
  have henqueue : ∀ {t y}, EnqueueResult limits codec d destination (movedInput item body) ""
      false true t y → UniqueIds t :=
    fun h => h.unique hu fun record hp _ => hnew _ (prepareRecord_ok hp).1
  cases h with
  | failed h => exact henqueue h
  | unreleased h hc => exact hc.unique (henqueue h)
  | moved h hc => exact hc.unique (henqueue h)

/-- A step that `KeepsIds` keeps record ids unique. -/
theorem QueueEffect.unique {a : QueueAction β} (hd : Counted limits d)
    (hcanon : CanonicalIds codec d) (hu : UniqueIds d) (hk : KeepsIds codec d a)
    (h : QueueEffect limits codec d a t) : UniqueIds t := by
  cases h with
  | @enqueue lane input fresh deduplicate deduplicateGeneration t x h =>
      apply h.unique hu
      rintro record hp hnone ⟨f, hf, hid⟩
      rcases hk with ⟨rfl, hsome⟩ | hnew
      · -- deduplication finds every live record
        unfold existingItem at hnone
        rw [if_pos (by rw [hsome]; rfl)] at hnone
        have hlane : f.location.lane ∈ Lane.all := by cases f.location.lane <;> simp [Lane.all]
        obtain ⟨g, hg, -⟩ := findRecordId_eq_none hd.toPlaced hnone hf hlane hid
        cases hg
      · exact hnew _ (prepareRecord_ok hp).1 ⟨f, hf, hid⟩
  | complete h => exact h.unique hu
  | @move item destination body t x h =>
      rcases hk with ⟨f, hf, hloc, hid, hgen⟩ | hnew | ⟨hfree, hne⟩
      · rcases h.mem_of_owns hf hloc hid hgen with hslots | hsub | ⟨record, size, cursor, hp, -, hmem⟩
        · apply hu.of_subset
          intro g hg
          rw [hslots] at hg
          exact hg
        · exact hu.of_subset fun g hg => ((hsub g).1 hg).1
        · -- the moved record has the record id of the released one
          have hrecord : record.recordId = f.record.recordId := by
            have hsome := (prepareRecord_ok hp).1
            rw [show (movedInput item body).recordId.getD "" = f.record.recordId from hid.symm,
              hcanon f hf] at hsome
            exact (Option.some.inj hsome).symm
          rw [uniqueIds_iff] at hu ⊢
          intro g hg g' hg' hgid
          rcases (hmem g).1 hg with ⟨hg, hne⟩ | rfl <;> rcases (hmem g').1 hg' with ⟨hg', hne'⟩ | rfl
          · exact hu g hg g' hg' hgid
          · exact absurd (hu g hg f hf (hgid.trans hrecord)) hne
          · exact absurd (hu g' hg' f hf (hgid.symm.trans hrecord)) hne'
          · rfl
      · exact h.unique_of_new hu hnew
      · rcases h.of_free hd hfree hne with hslots | ⟨s, hs, ht⟩
        · apply hu.of_subset
          intro g hg
          rw [hslots] at hg
          exact hg
        · exact ht.unique hs.toPlaced
  | peek => exact hu
  | peekDue h =>
      rcases h with rfl | h
      · exact hu
      · exact h.unique hd.toPlaced
  | reconcile h => exact h.unique hd.toPlaced

/-- Counters, totals and record ids in every run. -/
theorem queue_counters (limits : QueueLimits) (codec : QueueCodec β) :
    (∀ d, (queueSystem limits codec).Reachable System.Any d →
      (∀ lane, (d.state.lanes lane).count = (laneFiles d lane).length ∧
        (d.state.lanes lane).bytes = ((laneFiles d lane).map SlotFile.size).sum ∧
        (d.state.lanes lane).segments = (laneSegments d lane).length) ∧
      total d.state LaneState.count ≤ limits.maxRecords ∧
      total d.state LaneState.bytes ≤ limits.maxRecordBytes) ∧
    ∀ d, (queueSystem limits codec).Reachable (KeepsIds codec) d → UniqueIds d := by
  constructor
  · intro d h
    have hd := counted_of_reachable h
    refine ⟨fun lane => ⟨hd.count lane, hd.bytes lane, hd.segments lane⟩, ?_, ?_⟩
    · rw [hd.total_count]
      exact hd.records_le
    · rw [hd.total_bytes]
      exact hd.bytes_le
  · intro d h
    have hinit : CanonicalIds codec (QueueDir.initial : QueueDir β) ∧
        UniqueIds (QueueDir.initial : QueueDir β) :=
      ⟨fun f hf => absurd hf List.not_mem_nil, List.nodup_nil⟩
    have hinv : Counted limits d ∧ CanonicalIds codec d ∧ UniqueIds d := by
      apply reachable_induction hinit _ h
      · rintro s t a hs ⟨hcanon, hu⟩ hk heffect
        exact ⟨heffect.canonicalIds hcanon, heffect.unique hs hcanon hu hk⟩
    exact hinv.2.2

end Ids

/-! ## A record id enqueued twice -/

/-- The codec on canonical UUID texts, for records without other fields. -/
def sampleCodec : QueueCodec Unit where
  canonicalUuid text := if text.length = 36 then some text else none
  encodedSize record :=
    89 + (Nat.toDigits 10 record.generation).length + (Nat.toDigits 10 record.sequence).length
  canonical := by
    intro text recordId h
    split at h
    · next hlength =>
      cases h
      exact if_pos hlength
    · cases h

def sampleInput : RecordInput Unit := ⟨some "00000000-0000-4000-8000-000000000001", none, ()⟩

/-- An enqueue of the same record id, not deduplicated. -/
def repeatEnqueue : QueueAction Unit := .enqueue .ready sampleInput "" false false

/-- The enqueue of an intent, which has no record id of its own. -/
def sampleIntent (fresh : Uuid) : QueueAction Unit :=
  .enqueue .ready ⟨none, none, ()⟩ fresh true false

def enqueuedOnce : QueueDir Unit :=
  repeatEnqueue.perform queueLimits sampleCodec QueueDir.initial

def enqueuedTwice : QueueDir Unit := repeatEnqueue.perform queueLimits sampleCodec enqueuedOnce

/-- The first of the two enqueues brings a new record id. -/
theorem queue_counters_once : UniqueIds enqueuedOnce ∧
    total enqueuedOnce.state LaneState.count ≤ 4096 := by
  have hfirst : KeepsIds sampleCodec (QueueDir.initial : QueueDir Unit) repeatEnqueue := by
    right
    rintro recordId - ⟨f, hf, -⟩
    exact absurd hf List.not_mem_nil
  exact ⟨(queue_counters queueLimits sampleCodec).2 _
      ((System.Reachable.of_init rfl).step hfirst rfl),
    ((queue_counters queueLimits sampleCodec).1 _
      ((System.Reachable.of_init rfl).step trivial rfl)).2.1⟩

theorem enqueuedTwice_not_unique :
    (queueSystem queueLimits sampleCodec).Reachable System.Any enqueuedTwice ∧
      ¬ UniqueIds enqueuedTwice := by
  constructor
  · exact ((System.Reachable.of_init rfl).step trivial rfl).step trivial rfl
  · unfold UniqueIds
    decide +kernel

end WheelForge.Maintenance
