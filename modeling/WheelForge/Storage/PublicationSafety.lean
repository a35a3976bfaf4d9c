import WheelForge.Storage.PublicationRuns

/-!
# When a publication completes

The second section of a call moves its intent as it remembers it. Sweeps may have moved the record
in the meantime: after one move the snapshot still wins the reconciliation, after two it loses, and
when the slot of the intent has been taken again the move fails. `publication_completes_iff` is the
exact condition, and `sweptTwice_not_completed` a run with two sweeps.
-/

set_option autoImplicit false

namespace WheelForge.Storage

open WheelForge.Maintenance
open WheelForge.Relational
open WheelForge.Transition

/-! ## The move of an intent -/

/-- The second section finds the intent in its slot; or the slot empty and not the next to be
taken, and the record one generation on. -/
def IntentUsable (limits : QueueLimits) (d : QueueDir QueueBody) (p : Publication) : Prop :=
  (∃ f ∈ d.slots, f.item = p.intent) ∨
    (Free d p.intent.location ∧
      (∀ cursor, FirstFree limits d .ready cursor →
        locationAt limits .ready cursor ≠ p.intent.location) ∧
      ∃ f ∈ d.slots, f.record.recordId = p.intent.record.recordId ∧ f.record.generation = 1)

/-- A record is a call's own, by its record id or by its stage file. -/
def Concerns (p : Publication) (g : SlotFile QueueBody) : Prop :=
  g.record.recordId = p.intent.record.recordId ∨ Describes p g.record.body

/-- A slot file is the only one that concerns a call. -/
structure Sole (d : QueueDir QueueBody) (p : Publication) (f : SlotFile QueueBody) : Prop where
  mem : f ∈ d.slots
  own : f.record.recordId = p.intent.record.recordId
  only : ∀ g ∈ d.slots, Concerns p g → g = f

section Moving

variable {limits : QueueLimits} {codec : QueueCodec QueueBody} {d t u : QueueDir QueueBody}
  {p : Publication} {f : SlotFile QueueBody} {body : Option QueueBody}

theorem FirstFree.unique {lane : Lane} {c c' : Nat} (h : FirstFree limits d lane c)
    (h' : FirstFree limits d lane c') : c = c' := by
  obtain ⟨k, -, rfl, hfree, hbefore⟩ := h
  obtain ⟨k', -, rfl, hfree', hbefore'⟩ := h'
  rcases lt_trichotomy k k' with hlt | rfl | hgt
  · exact absurd hfree (hbefore' k hlt)
  · rfl
  · exact absurd hfree' (hbefore k' hgt)

/-- The destination of an intent does not hold its next generation. -/
theorem Owned.intent_not_next (ho : Owned d p f)
    (hgen : p.intent.record.generation = 0) : ¬ HoldsNext d p.intent .ready := by
  rintro ⟨g, hg, hglane, hid, hggen⟩
  obtain rfl := ho.sole g hg (Or.inl hid)
  rcases ho.place with hitem | ⟨-, hnot⟩
  · have hzero := congrArg (fun i : QueueItem QueueBody => i.record.generation) hitem
    dsimp only [SlotFile.item] at hzero
    omega
  · exact hnot hglane

/-- With room the snapshot is linked at the first free slot. -/
theorem Owned.enqueue_snapshot (hd : Counted limits d) (ho : Owned d p f)
    (hcanon : codec.canonicalUuid p.intent.record.recordId = some p.intent.record.recordId)
    (hgen : p.intent.record.generation = 0) {size : Nat}
    (hsize : encodeRecord limits codec (movedRecord d p.intent body) = .ok size)
    (hroom : Room limits d (movedRecord d p.intent body) size)
    {x : Except QueueError (QueueItem QueueBody)}
    (h : EnqueueResult limits codec d .ready (movedInput p.intent body) "" false true t x) :
    ∃ cursor, x = .ok ⟨locationAt limits .ready cursor, movedRecord d p.intent body⟩ ∧
      FirstFree limits d .ready cursor ∧
      Linked limits d .ready (movedRecord d p.intent body) size cursor t := by
  have hp : prepareRecord codec (movedInput p.intent body) "" d.state.nextSequence =
      .ok (movedRecord d p.intent body) := prepareRecord_moved codec d hcanon body
  cases h with
  | invalid h =>
      rw [hp] at h
      cases h
  | oversized h _ hover =>
      cases hp.symm.trans h
      rw [hsize] at hover
      cases hover
  | refused h _ hsize' hfull =>
      cases hp.symm.trans h
      cases hsize.symm.trans hsize'
      exact absurd hroom hfull
  | existing h hfile =>
      cases hp.symm.trans h
      have hne : existingItem limits d .ready (movedInput p.intent body)
          (movedRecord d p.intent body) false true ≠ none := by
        rw [hfile]
        exact Option.some_ne_none _
      exact absurd ((holdsNext_iff hd.toPlaced).1 hne) (ho.intent_not_next hgen)
  | linked h _ hsize' _ hcursor ht =>
      cases hp.symm.trans h
      cases hsize.symm.trans hsize'
      exact ⟨_, rfl, hcursor, ht⟩

/-- How the move of an intent to its snapshot ends. -/
inductive SnapshotResult (limits : QueueLimits) (d : QueueDir QueueBody) (p : Publication)
    (f : SlotFile QueueBody) (body : Option QueueBody) :
    QueueDir QueueBody → Except QueueError (QueueItem QueueBody) → Prop
  /-- The snapshot is the only record of the call. -/
  | won {u : QueueDir QueueBody} {g : SlotFile QueueBody} (h : IntentUsable limits d p)
      (hg : Sole u p g) (hrecord : g.record = movedRecord d p.intent body) :
      SnapshotResult limits d p f body u (.ok g.item)
  /-- The record that sweeps have moved is the only one, and the snapshot is gone. -/
  | lost {u : QueueDir QueueBody} {place : QueueItem QueueBody} (h : ¬ IntentUsable limits d p)
      (hf : Sole u p f) (hplace : Free u place.location) :
      SnapshotResult limits d p f body u (.ok place)
  | confused {u : QueueDir QueueBody} {e : QueueError} (h : ¬ IntentUsable limits d p) :
      SnapshotResult limits d p f body u (.error e)

/-- Reconciliation keeps the higher of two records that alone concern a call. -/
theorem sole_of_reconciled {f g : SlotFile QueueBody} (ht : Reconciled limits t u)
    (hg : g ∈ t.slots) (hown : g.record.recordId = p.intent.record.recordId) (hf : f ∈ t.slots)
    (hid : f.record.recordId = g.record.recordId)
    (honly : ∀ h ∈ t.slots, Concerns p h → h = f ∨ h = g) (hrank : f.rank < g.rank) :
    Sole u p g ∧ f ∉ u.slots := by
  have hwinner : Winner t g := by
    refine ⟨hg, fun h hh hsame => ?_⟩
    rcases honly h hh (Or.inl (hsame.trans hown)) with rfl | rfl
    · exact hrank.le
    · exact le_rfl
  have hloser : f ∉ u.slots := by
    intro hmem
    exact absurd (((ht.mem_slots f).1 hmem).2 g hg hid.symm) (not_le.2 hrank)
  refine ⟨⟨(ht.mem_slots g).2 hwinner, hown, fun h hh hconcerns => ?_⟩, hloser⟩
  rcases honly h (ht.slots.subset hh) hconcerns with rfl | rfl
  · exact absurd hh hloser
  · rfl

/-- The directory between the two halves of the move: the snapshot is linked as `new`. -/
structure SnapshotLinked (limits : QueueLimits) (d : QueueDir QueueBody) (p : Publication)
    (body : Option QueueBody) (t : QueueDir QueueBody) (new : SlotFile QueueBody) : Prop where
  mem : ∀ g, g ∈ t.slots ↔ g ∈ d.slots ∨ g = new
  record : new.record = movedRecord d p.intent body
  cursor : ∃ cursor, FirstFree limits d .ready cursor ∧
    new.location = locationAt limits .ready cursor

section Completing

variable {new : SlotFile QueueBody} {z : Except QueueError Unit}

theorem SnapshotLinked.new_mem (h : SnapshotLinked limits d p body t new) : new ∈ t.slots :=
  (h.mem new).2 (Or.inr rfl)

theorem SnapshotLinked.own (h : SnapshotLinked limits d p body t new) :
    new.record.recordId = p.intent.record.recordId := by
  rw [h.record]
  rfl

theorem SnapshotLinked.only (h : SnapshotLinked limits d p body t new) (ho : Owned d p f) :
    ∀ g ∈ t.slots, Concerns p g → g = f ∨ g = new :=
  fun g hg hconcerns => ((h.mem g).1 hg).imp_left fun hold => ho.sole g hold hconcerns

theorem SnapshotLinked.ne (h : SnapshotLinked limits d p body t new) {g : SlotFile QueueBody}
    (hg : g ∈ d.slots) : g ≠ new := by
  rintro rfl
  obtain ⟨cursor, hcursor, hlocation⟩ := h.cursor
  exact hcursor.free _ hg hlocation

/-- The intent is still in its slot. -/
theorem SnapshotLinked.complete_in_place (h : SnapshotLinked limits d p body t new)
    (ho : Owned d p f) (hitem : f.item = p.intent) (hc : CompleteResult limits t p.intent u z) :
    SnapshotResult limits d p f body u (z.map fun _ => new.item) := by
  have hf : f ∈ t.slots := (h.mem f).2 (Or.inl ho.mem)
  rw [← hitem] at hc
  obtain ⟨rfl, rfl⟩ := hc.of_owns hf rfl rfl rfl
  have hmem := fun g => mem_unlinkSlot (f := g) hf
  refine .won (Or.inl ⟨f, ho.mem, hitem⟩) ⟨(hmem new).2 ⟨h.new_mem, (h.ne ho.mem).symm⟩, h.own, ?_⟩
    h.record
  intro g hg hconcerns
  obtain ⟨hg, hne⟩ := (hmem g).1 hg
  exact (h.only ho g hg hconcerns).resolve_left hne

/-- A sweep has moved the record on. -/
theorem Owned.not_in_place (ho : Owned d p f) (hlane : p.intent.location.lane = .ready)
    (hmoved : f.location.lane ≠ .ready) : ¬ ∃ g ∈ d.slots, g.item = p.intent := by
  rintro ⟨g, hg, hitem⟩
  have hid : g.record.recordId = p.intent.record.recordId :=
    congrArg (fun i : QueueItem QueueBody => i.record.recordId) hitem
  obtain rfl := ho.sole g hg (Or.inl hid)
  exact hmoved ((congrArg (fun i : QueueItem QueueBody => i.location.lane) hitem).trans hlane)

/-- Another record is in the slot of the intent. -/
theorem SnapshotLinked.complete_taken (h : SnapshotLinked limits d p body t new)
    (ho : Owned d p f) (hlane : p.intent.location.lane = .ready)
    (hgen : p.intent.record.generation = 0) (hmoved : f.location.lane ≠ .ready)
    (hunusable : ¬ IntentUsable limits d p) {g : SlotFile QueueBody} (hg : g ∈ t.slots)
    (hlocation : g.location = p.intent.location) (hc : CompleteResult limits t p.intent u z) :
    SnapshotResult limits d p f body u (z.map fun _ => new.item) := by
  cases hc with
  | stale hfree => exact absurd hlocation (hfree g hg)
  | foreign => exact .confused hunusable
  | released hfile hloc hid hsame =>
      obtain rfl := Table.eq_of_key_eq hfile hg (hloc.trans hlocation.symm)
      rcases h.only ho _ hg (Or.inl hid) with rfl | rfl
      · exact absurd ((congrArg Location.lane hlocation).trans hlane) hmoved
      · rw [h.record, hgen] at hsame
        exact absurd hsame (by show ¬ p.intent.record.generation + 1 = 0; omega)

/-- The slot of the intent is empty: reconciliation decides between the two records. -/
theorem SnapshotLinked.complete_free (h : SnapshotLinked limits d p body t new)
    (hd : Counted limits d) (ho : Owned d p f) (hlane : p.intent.location.lane = .ready)
    (hgen : p.intent.record.generation = 0) (hmoved : f.location.lane ≠ .ready)
    (hlater : 1 ≤ f.record.generation) (hfree : Free d p.intent.location)
    (hnew : new.location ≠ p.intent.location) (hc : CompleteResult limits t p.intent u z) :
    SnapshotResult limits d p f body u (z.map fun _ => new.item) := by
  have hf : f ∈ t.slots := (h.mem f).2 (Or.inl ho.mem)
  have hfree' : Free t p.intent.location := by
    intro g hg
    rcases (h.mem g).1 hg with hold | rfl
    · exact hfree g hold
    · exact hnew
  have hnewGen : new.record.generation = 1 := by
    rw [h.record]
    show p.intent.record.generation + 1 = 1
    rw [hgen]
  obtain ⟨cursor, hcursor, hlocation⟩ := h.cursor
  cases hc with
  | foreign hfile hloc => exact absurd hloc (hfree' _ hfile)
  | released hfile hloc => exact absurd hloc (hfree' _ hfile)
  | stale _ ht =>
      by_cases hone : f.record.generation = 1
      · -- the snapshot has the later sequence number
        have hrank : f.rank < new.rank := by
          apply SlotFile.rank_lt_of_sequence (hone.trans hnewGen.symm)
          rw [h.record]
          exact hd.sequence_lt f ho.mem
        obtain ⟨hsole, -⟩ := sole_of_reconciled ht h.new_mem h.own hf (ho.own.trans h.own.symm)
          (h.only ho) hrank
        refine .won (Or.inr ⟨hfree, ?_, f, ho.mem, ho.own, hone⟩) hsole h.record
        intro cursor' hcursor'
        obtain rfl := FirstFree.unique hcursor hcursor'
        rw [← hlocation]
        exact hnew
      · -- two moves have raised the generation above that of the snapshot
        have hrank : new.rank < f.rank := SlotFile.rank_lt_of_generation (by omega)
        obtain ⟨hsole, hgone⟩ := sole_of_reconciled ht hf ho.own h.new_mem
          (h.own.trans ho.own.symm) (fun g hg hconcerns => (h.only ho g hg hconcerns).symm) hrank
        refine .lost ?_ hsole ?_
        · rintro (hplace | ⟨-, -, g, hg, hid, hsame⟩)
          · exact ho.not_in_place hlane hmoved hplace
          · obtain rfl := ho.sole g hg (Or.inl hid)
            exact hone hsame
        · intro g hg hloc
          obtain rfl := Table.eq_of_key_eq (ht.slots.subset hg) h.new_mem hloc
          exact hgone hg

end Completing

/-- The move of an intent to its snapshot. -/
theorem Owned.move_snapshot (hd : Counted limits d) (ho : Owned d p f)
    (hcanon : codec.canonicalUuid p.intent.record.recordId = some p.intent.record.recordId)
    (hlane : p.intent.location.lane = .ready) (hgen : p.intent.record.generation = 0) {size : Nat}
    (hsize : encodeRecord limits codec (movedRecord d p.intent body) = .ok size)
    (hroom : Room limits d (movedRecord d p.intent body) size)
    {x : Except QueueError (QueueItem QueueBody)}
    (h : MoveResult limits codec d p.intent .ready body u x) :
    SnapshotResult limits d p f body u x := by
  have henqueue : ∀ {t y}, EnqueueResult limits codec d .ready (movedInput p.intent body) ""
      false true t y → ∃ new : SlotFile QueueBody, y = .ok new.item ∧
        SnapshotLinked limits d p body t new := by
    intro t y h
    obtain ⟨cursor, hy, hcursor, ht⟩ := ho.enqueue_snapshot hd hcanon hgen hsize hroom h
    exact ⟨⟨locationAt limits .ready cursor, movedRecord d p.intent body, size⟩, hy,
      fun g => mem_linked ht, rfl, cursor, hcursor, rfl⟩
  have hcomplete : ∀ {t new z}, SnapshotLinked limits d p body t new →
      CompleteResult limits t p.intent u z →
        SnapshotResult limits d p f body u (z.map fun _ => new.item) := by
    intro t new z h hc
    rcases ho.place with hitem | ⟨hlater, hmoved⟩
    · exact h.complete_in_place ho hitem hc
    · have hplace := ho.not_in_place hlane hmoved
      by_cases hfree : Free d p.intent.location
      · by_cases hnew : new.location = p.intent.location
        · -- the enqueue has taken the intent's own slot
          refine h.complete_taken ho hlane hgen hmoved ?_ h.new_mem hnew hc
          obtain ⟨cursor, hcursor, hlocation⟩ := h.cursor
          rintro (hin | ⟨-, hnext, -⟩)
          · exact hplace hin
          · exact hnext cursor hcursor (hlocation.symm.trans hnew)
        · exact h.complete_free hd ho hlane hgen hmoved hlater hfree hnew hc
      · -- the slot was taken before
        unfold Free at hfree
        push Not at hfree
        obtain ⟨g, hg, hlocation⟩ := hfree
        refine h.complete_taken ho hlane hgen hmoved ?_ ((h.mem g).2 (Or.inl hg)) hlocation hc
        rintro (hin | ⟨hempty, -⟩)
        · exact hplace hin
        · exact hempty g hg hlocation
  cases h with
  | failed h =>
      obtain ⟨new, hx, -⟩ := henqueue h
      cases hx
  | unreleased h hc =>
      obtain ⟨new, -, hlinked⟩ := henqueue h
      exact hcomplete hlinked hc
  | moved h hc =>
      obtain ⟨new, hx, hlinked⟩ := henqueue h
      cases hx
      exact hcomplete hlinked hc

end Moving

/-! ## The second section -/

/-- A record identifies the file under the object key of a call, with its content. -/
def Identifies (codec : StorageCodec) (files : FileSystem) (p : Publication)
    (g : SlotFile QueueBody) : Prop :=
  ∃ record identity, g.record.body = .publication record ∧ record.objectKey = p.objectKey ∧
    files.entries p.parts = some identity ∧
    record.source = some ⟨identity, (files.inodes identity).content.length,
      (files.inodes identity).mtime, codec.sha256 (files.inodes identity).content⟩

/-- A call has completed: its content is under its object key, and the queue has one record of an
artifact, which identifies it, and none of any other object. -/
structure Completed (codec : StorageCodec) (call : Nat) (p : Publication) (w : World) : Prop where
  published : ∃ p', w.calls call = some p' ∧ p'.phase = .published
  content : ∃ identity, w.root.files.entries p.parts = some identity ∧
    (w.root.files.inodes identity).content = p.written
  artifact : artifactMatch p.objectKey ≠ none → ∃ g ∈ w.root.queue.slots,
    Identifies codec w.root.files p g ∧ ∀ h ∈ w.root.queue.slots, Concerns p h → h = g
  other : artifactMatch p.objectKey = none → ∀ g ∈ w.root.queue.slots, ¬ Concerns p g

/-- The queue has room for the snapshot of a call. -/
def RoomForSnapshot (limits : QueueLimits) (codec : StorageCodec) (d : QueueDir QueueBody)
    (p : Publication) (status : FileStatus) : Prop :=
  ∃ size, encodeRecord limits codec.toQueueCodec
      (movedRecord d p.intent (some (snapshotBody codec p status))) = .ok size ∧
    Room limits d (movedRecord d p.intent (some (snapshotBody codec p status))) size

section Finishing

variable {limits : QueueLimits} {codec : StorageCodec} {root : DataRoot} {p : Publication}
  {status : FileStatus}

/-- The stage file is the one whose status was read. -/
theorem requireNamedIdentity_apply (path : Path) (identity : FileId) (root : DataRoot) :
    requireNamedIdentity path identity root =
      (match root.files.entries path with
        | none => throw .fileNotFound
        | some named => if named = identity then pure ()
            else throw (.os "object identity changed") : Gated Unit) root := rfl

theorem identifyStage_eq (h : root.files.entries p.stagePath = some status.identity) :
    identifyStage limits codec p status root =
      onQueue (queueMove limits codec.toQueueCodec p.intent .ready
        (some (snapshotBody codec p status))) root := by
  have hnamed : requireNamedIdentity p.stagePath status.identity root = .ok () root := by
    rw [requireNamedIdentity_apply, h]
    dsimp only
    rw [if_pos rfl]
    rfl
  unfold identifyStage
  show EStateM.bind _ _ root = _
  unfold EStateM.bind
  rw [hnamed]

/-- The files after the stage file was linked under a free key. -/
def linkedFiles (files : FileSystem) (p : Publication) (identity : FileId) : FileSystem :=
  (files.setEntry p.parts (some identity)).unlink p.stagePath

theorem linkNoReplace_apply (source target : Path) (root : DataRoot) :
    linkNoReplace source target root =
      (match root.files.entries source, root.files.entries target with
        | none, _ => throw .fileNotFound
        | some _, some _ => throw .fileExists
        | some identity, none => setFiles (root.files.setEntry target (some identity)) :
          Gated Unit) root := rfl

theorem linkStage_eq (limits : QueueLimits) (root : DataRoot) {identity : FileId} (hstage : root.files.entries p.stagePath = some identity)
    (hfree : root.files.entries p.parts = none) (intent : QueueItem QueueBody) :
    linkStage limits p intent root =
      (if (artifactMatch p.objectKey).isNone then onQueue (complete limits intent) else pure ())
        { root with files := linkedFiles root.files p identity } := by
  have hlink : linkNoReplace p.stagePath p.parts root =
      .ok () { root with files := root.files.setEntry p.parts (some identity) } := by
    rw [linkNoReplace_apply, hstage, hfree]
    rfl
  unfold linkStage
  show EStateM.bind _ _ root = _
  unfold EStateM.bind
  rw [hlink]
  rfl

theorem linkedFiles_entry {files : FileSystem} {identity : FileId}
    (hne : p.parts ≠ p.stagePath) :
    (linkedFiles files p identity).entries p.parts = some identity := by
  unfold linkedFiles FileSystem.unlink
  rw [FileSystem.setEntry_entries_ne _ _ hne, FileSystem.setEntry_entries_self]

/-- The completion of the only record of a call leaves none. -/
theorem Sole.complete {d u : QueueDir QueueBody} {g : SlotFile QueueBody} (hg : Sole d p g)
    {x : Except QueueError Unit} (hc : CompleteResult limits d g.item u x) :
    x = .ok () ∧ ∀ h ∈ u.slots, ¬ Concerns p h := by
  obtain ⟨rfl, rfl⟩ := hc.of_owns hg.mem rfl rfl rfl
  refine ⟨rfl, fun h hh hconcerns => ?_⟩
  obtain ⟨hh, hne⟩ := (mem_unlinkSlot hg.mem).1 hh
  exact hne (hg.only h hh hconcerns)

/-- Completing an item that is gone keeps the only record of a call. -/
theorem Sole.complete_gone {d u : QueueDir QueueBody} {f : SlotFile QueueBody} (hf : Sole d p f)
    {place : QueueItem QueueBody} (hfree : Free d place.location) {x : Except QueueError Unit}
    (hc : CompleteResult limits d place u x) : x = .ok () ∧ f ∈ u.slots := by
  cases hc with
  | foreign hfile hloc => exact absurd hloc (hfree _ hfile)
  | released hfile hloc => exact absurd hloc (hfree _ hfile)
  | stale _ ht =>
      refine ⟨rfl, (ht.mem_slots f).2 ⟨hf.mem, fun g hg hid => ?_⟩⟩
      rw [hf.only g hg (Or.inl (hid.trans hf.own))]

end Finishing

section Claim

variable {limits : QueueLimits} {codec : StorageCodec} {call : Nat} {w : World} {p : Publication}
  {status : FileStatus}

theorem perform_finish (hp : w.calls call = some p) :
    (StorageAction.finish call).perform limits codec w = finishCall limits codec w call p := by
  show onCall w call _ = _
  unfold onCall
  rw [hp]

/-- The second section when the move of the intent fails. -/
theorem finishCall_confused (hphase : p.phase = .copied status)
    (hstage : w.root.files.entries p.stagePath = some status.identity) {e : QueueError}
    {u : QueueDir QueueBody} (hrun : run (queueMove limits codec.toQueueCodec p.intent .ready
      (some (snapshotBody codec p status))) w.root.queue = (.error e, u)) :
    finishCall limits codec w call p =
      ({ w with root := { w.root with queue := u } }).setCall call { p with phase := .failing } := by
  unfold finishCall
  rw [hphase]
  dsimp only
  rw [identifyStage_eq hstage]
  unfold onQueue
  rw [hrun]

/-- The second section when the move of the intent succeeds. -/
theorem finishCall_moved (hphase : p.phase = .copied status)
    (hstage : w.root.files.entries p.stagePath = some status.identity)
    (hkey : w.root.files.entries p.parts = none) {intent : QueueItem QueueBody}
    {u v : QueueDir QueueBody} (hrun : run (queueMove limits codec.toQueueCodec p.intent .ready
      (some (snapshotBody codec p status))) w.root.queue = (.ok intent, u))
    (hcomplete : run (complete limits intent) u = (.ok (), v)) :
    finishCall limits codec w call p =
      ({ w with root := ⟨if (artifactMatch p.objectKey).isNone then v else u,
          linkedFiles w.root.files p status.identity⟩ }).setCall call
        { p with intent := intent, phase := .published } := by
  unfold finishCall
  rw [hphase]
  dsimp only
  rw [identifyStage_eq hstage]
  unfold onQueue
  rw [hrun]
  dsimp only
  rw [linkStage_eq limits { w.root with queue := u } hstage hkey intent]
  cases hartifact : (artifactMatch p.objectKey).isNone with
  | true =>
      rw [if_pos rfl, if_pos rfl]
      unfold onQueue
      rw [hcomplete]
  | false =>
      rw [if_neg Bool.false_ne_true, if_neg Bool.false_ne_true]
      rfl

/-- The second section of a tracked call completes it exactly when the intent is usable. -/
theorem WorldInv.finish_iff (h : WorldInv limits codec call w) (hp : w.calls call = some p)
    (hphase : p.phase = .copied status) (hkey : w.root.files.entries p.parts = none)
    (hroom : RoomForSnapshot limits codec w.root.queue p status) :
    Completed codec call p ((StorageAction.finish call).perform limits codec w) ↔
      IntentUsable limits w.root.queue p := by
  have hprogress : p.inProgress = true := by
    unfold Publication.inProgress
    rw [hphase]
  have hwell := h.distinct.wellFormed _ _ hp
  have hcurrent := h.root.current p (sparedCall_some.2 ⟨hp, hprogress⟩)
  obtain ⟨hdescriptor, hstatus⟩ := hcurrent.status status hphase
  obtain ⟨identity, hstaged⟩ := hcurrent.staged
  obtain rfl : identity = status.identity :=
    Option.some.inj (hstaged.descriptor.symm.trans hdescriptor)
  obtain ⟨f, hf⟩ := hcurrent.owned
  obtain ⟨hlane, hgen, now, hbody⟩ := hwell.intent hprogress
  have hne : p.parts ≠ p.stagePath := by
    intro heq
    rw [heq, hstaged.entry] at hkey
    cases hkey
  obtain ⟨size, hsize, hroom⟩ := hroom
  obtain ⟨u, x, hrun, hmove⟩ := move_spec h.root.safe.counted codec.toQueueCodec p.intent .ready
    (some (snapshotBody codec p status))
  have hcounted := hmove.counted h.root.safe.counted
  rw [perform_finish hp]
  have hsnapshot := hf.move_snapshot h.root.safe.counted hwell.record hlane hgen hsize hroom hmove
  cases hsnapshot with
  | confused hunusable =>
      refine iff_of_false (fun hdone => ?_) hunusable
      obtain ⟨p', hp', hpublished⟩ := hdone.published
      rw [finishCall_confused hphase hstaged.entry hrun] at hp'
      obtain rfl := (update_some hp').resolve_right (fun h => h.1 rfl) |>.2
      cases hpublished
  | @won g husable hg hrecord =>
      refine iff_of_true ?_ husable
      obtain ⟨v, z, hatomic, hc⟩ := complete_spec hcounted g.item
      obtain ⟨rfl, hnone⟩ := hg.complete hc
      rw [finishCall_moved hphase hstaged.entry hkey hrun hatomic.run]
      refine ⟨⟨_, Function.update_self .., rfl⟩, ⟨status.identity, linkedFiles_entry hne,
        hstaged.content⟩, fun hartifact => ?_, fun hother => ?_⟩
      · have hqueue : (if (artifactMatch p.objectKey).isNone = true then v else u) = u := by
          rw [if_neg]
          rwa [Option.isNone_iff_eq_none]
        have hsource : (⟨status.identity, status.size, status.mtime, codec.sha256 p.written⟩ :
            SourceIdentity) = ⟨status.identity,
              (w.root.files.inodes status.identity).content.length,
              (w.root.files.inodes status.identity).mtime,
              codec.sha256 (w.root.files.inodes status.identity).content⟩ := by
          have hsize := congrArg FileStatus.size hstatus
          have hmtime := congrArg FileStatus.mtime hstatus
          rw [← hsize, ← hmtime, hstaged.content]
          simp [FileSystem.fstat, hstaged.content]
        show ∃ g' ∈ (if (artifactMatch p.objectKey).isNone = true then v else u).slots, _ ∧ ∀ h ∈ (if
          (artifactMatch p.objectKey).isNone = true then v else u).slots, _
        rw [hqueue]
        refine ⟨g, hg.mem, ⟨snapshot (intentRecord p.objectKey p.parts p.owner p.stageIdentifier
          now) status (codec.sha256 p.written), status.identity, ?_, rfl, linkedFiles_entry hne,
          congrArg some hsource⟩, hg.only⟩
        rw [hrecord]
        show snapshotBody codec p status = _
        unfold snapshotBody
        rw [hbody]
      · have hqueue : (if (artifactMatch p.objectKey).isNone = true then v else u) = v :=
          if_pos (Option.isNone_iff_eq_none.2 hother)
        show ∀ g ∈ (if (artifactMatch p.objectKey).isNone = true then v else u).slots, _
        rw [hqueue]
        exact hnone
  | @lost place hunusable hsole hplace =>
      refine iff_of_false (fun hdone => ?_) hunusable
      obtain ⟨v, z, hatomic, hc⟩ := complete_spec hcounted place
      obtain ⟨rfl, hmem⟩ := hsole.complete_gone hplace hc
      rw [finishCall_moved hphase hstaged.entry hkey hrun hatomic.run] at hdone
      by_cases hartifact : artifactMatch p.objectKey = none
      · -- the moved record stays in the queue
        have hqueue : (if (artifactMatch p.objectKey).isNone = true then v else u) = v :=
          if_pos (Option.isNone_iff_eq_none.2 hartifact)
        have hnone : ∀ g ∈ (if (artifactMatch p.objectKey).isNone = true then v else u).slots,
            ¬ Concerns p g := hdone.other hartifact
        rw [hqueue] at hnone
        exact hnone f hmem (Or.inl hsole.own)
      · -- the only record of the artifact has no snapshot
        have hqueue : (if (artifactMatch p.objectKey).isNone = true then v else u) = u := by
          rw [if_neg]
          rwa [Option.isNone_iff_eq_none]
        obtain ⟨g, -, ⟨record, identity, hrecord, -, -, hsource⟩, honly⟩ := hdone.artifact hartifact
        have honly : ∀ h ∈ (if (artifactMatch p.objectKey).isNone = true then v else u).slots,
            Concerns p h → h = g := honly
        rw [hqueue] at honly
        obtain rfl := honly f hsole.mem (Or.inl hsole.own)
        rw [hf.body, hbody] at hrecord
        cases hrecord
        cases hsource

/-- The queue has room for the intent of a new call. -/
def RoomForIntent (limits : QueueLimits) (codec : StorageCodec) (d : QueueDir QueueBody)
    (input : PublishInput) (parts : Path) (owner : Option Uuid) : Prop :=
  ∃ size, encodeRecord limits codec.toQueueCodec ⟨input.recordId, 0, d.state.nextSequence,
      .publication (intentRecord input.objectKey parts owner input.stageIdentifier input.now)⟩ =
        .ok size ∧
    Room limits d ⟨input.recordId, 0, d.state.nextSequence,
      .publication (intentRecord input.objectKey parts owner input.stageIdentifier input.now)⟩ size

/-- With room the first section of a call succeeds. -/
theorem WorldInv.start_copies (h : WorldInv limits codec call w) {c : Nat} {input : PublishInput}
    (hfresh : Fresh codec w c input) {parts : Path} {owner : Option Uuid}
    (hargs : publishArguments codec input = .ok (parts, owner))
    (hroom : RoomForIntent limits codec w.root.queue input parts owner) :
    ∃ p, ((StorageAction.start c input).perform limits codec w).calls c = some p ∧
      p.phase = .copying ∧ p.objectKey = input.objectKey ∧ p.parts = parts := by
  obtain ⟨size, hsize, hroom⟩ := hroom
  obtain ⟨t, x, hatomic, ht⟩ := enqueue_spec h.root.safe.counted codec.toQueueCodec .ready
    ⟨none, none, .publication
      (intentRecord input.objectKey parts owner input.stageIdentifier input.now)⟩
    input.recordId true false
  have hprepared : prepareRecord codec.toQueueCodec ⟨none, none, .publication
      (intentRecord input.objectKey parts owner input.stageIdentifier input.now)⟩ input.recordId
        w.root.queue.state.nextSequence = .ok ⟨input.recordId, 0, w.root.queue.state.nextSequence,
          .publication (intentRecord input.objectKey parts owner input.stageIdentifier
            input.now)⟩ := by
    unfold prepareRecord
    dsimp only [Option.getD_none]
    rw [hfresh.record_canonical]
    rfl
  have hintent : ∃ intent, enqueueIntent limits codec input parts owner w.root =
      .ok intent { w.root with queue := t } := by
    unfold enqueueIntent onQueue
    rw [hatomic.run]
    cases ht with
    | existing _ hfile => cases hfile
    | linked => exact ⟨_, rfl⟩
    | invalid hp =>
        rw [hprepared] at hp
        cases hp
    | oversized hp _ hover =>
        cases hprepared.symm.trans hp
        rw [hsize] at hover
        cases hover
    | refused hp _ hsize' hfull =>
        cases hprepared.symm.trans hp
        cases hsize.symm.trans hsize'
        exact absurd hroom hfull
  obtain ⟨intent, hintent⟩ := hintent
  have hstage : w.root.files.entries (startedCall input parts owner intent).stagePath = none :=
    hfresh.stage_entry _ _
  have hcreate := createExclusive_ok { w.root with queue := t } hstage input.descriptor
    input.stageIdentifier input.mtime
  refine ⟨startedCall input parts owner intent, ?_, rfl, rfl, rfl⟩
  show (startCall limits codec w c input).calls c = _
  unfold startCall
  rw [hargs]
  dsimp only
  rw [hintent]
  dsimp only
  rw [hcreate]
  exact Function.update_self ..

/-- The stage file of a tracked call has the size of what the call has written. -/
theorem WorldInv.close_copied (h : WorldInv limits codec call w) (hp : w.calls call = some p)
    (hphase : p.phase = .copying) :
    ∃ p' status, ((StorageAction.close call).perform limits codec w).calls call = some p' ∧
      p'.phase = .copied status ∧ p'.written = p.written ∧ p'.parts = p.parts := by
  have hprogress : p.inProgress = true := by
    unfold Publication.inProgress
    rw [hphase]
  have hcurrent := h.root.current p (sparedCall_some.2 ⟨hp, hprogress⟩)
  obtain ⟨identity, hstaged⟩ := hcurrent.staged
  have hsize : (w.root.files.fstat identity).size = p.written.length := by
    show (w.root.files.inodes identity).content.length = _
    rw [hstaged.content]
  refine ⟨{ p with phase := .copied (w.root.files.fstat identity) }, _, ?_, rfl, rfl, rfl⟩
  show (onCall w call fun p => closeCall w call p).calls call = _
  unfold onCall
  rw [hp]
  dsimp only
  unfold closeCall
  rw [hphase, hstaged.descriptor]
  dsimp only
  rw [if_pos hsize]
  exact Function.update_self ..

/-- In every run whose sweeps find the stage file of a call young or its owner active: with room in
the queue the call gets through its first section and its copy, and its second section completes it
under a free key exactly when it finds the intent usable. -/
theorem publication_completes_iff (limits : QueueLimits) (codec : StorageCodec) (call : Nat)
    (h : (storageSystem limits codec).Reachable (Protects call) w) :
    (∀ input parts owner, Fresh codec w call input →
      publishArguments codec input = .ok (parts, owner) →
      RoomForIntent limits codec w.root.queue input parts owner →
      ∃ p, ((StorageAction.start call input).perform limits codec w).calls call = some p ∧
        p.phase = .copying ∧ p.objectKey = input.objectKey ∧ p.parts = parts) ∧
    (∀ p, w.calls call = some p → p.phase = .copying →
      ∃ p' status, ((StorageAction.close call).perform limits codec w).calls call = some p' ∧
        p'.phase = .copied status ∧ p'.written = p.written ∧ p'.parts = p.parts) ∧
    ∀ p status, w.calls call = some p → p.phase = .copied status →
      w.root.files.entries p.parts = none → RoomForSnapshot limits codec w.root.queue p status →
      (Completed codec call p ((StorageAction.finish call).perform limits codec w) ↔
        IntentUsable limits w.root.queue p) := by
  have hinv := tracked_of_reachable h
  refine ⟨?_, ?_, ?_⟩
  · exact fun input parts owner hfresh hargs hroom => hinv.start_copies hfresh hargs hroom
  · exact fun p hp hphase => hinv.close_copied hp hphase
  · exact fun p status hp hphase hkey hroom => hinv.finish_iff hp hphase hkey hroom

end Claim

/-! ## A publication overtaken by sweeps -/

/-- The length of the JSON text of a publication record whose texts need no escapes; the times are
of the width of the sample's. -/
def publicationSize (record : QueueRecord QueueBody) : Nat :=
  match record.body with
  | .publication r =>
      169 + 26 + (Nat.toDigits 10 record.generation).length +
        (Nat.toDigits 10 record.sequence).length + record.recordId.length + r.objectKey.length +
        r.stageObjectKey.length + r.stageOwnershipToken.length +
        (match r.ownerExecutionId with
        | some owner => owner.length + 2
        | none => 4) +
        match r.source with
        | some source =>
            69 + (Nat.toDigits 10 source.identity.1).length +
              (Nat.toDigits 10 source.identity.2).length +
              (Nat.toDigits 10 source.mtime.toNat).length + (Nat.toDigits 10 source.size).length +
              source.sha256.length
        | none => 0
  | _ => 0

/-- The codec on canonical UUID texts, for publication records and the content `hi`. -/
def publicationCodec : StorageCodec where
  canonicalUuid text := if uuidPattern text.toList then some text else none
  encodedSize := publicationSize
  canonical := by
    intro text id h
    split at h
    · next hpattern =>
      cases h
      exact if_pos hpattern
    · cases h
  sha256 _ := "8f434346648f6b96df89dda901c5176b10a6d83961dd3c1ac88b59b2dc327aa4"
  uuid_pattern := by
    intro text id h
    split at h
    · next hpattern =>
      cases h
      exact hpattern
    · cases h

/-- A data root without files, and no calls. -/
def emptyWorld : World :=
  ⟨⟨QueueDir.initial, ⟨fun _ => none, fun _ => ⟨[], 0, none⟩⟩⟩, fun _ => none⟩

def sampleInput : PublishInput where
  objectKey := "requirements/normalized/input.txt"
  ownerExecutionId := none
  stageIdentifier := "00000000-0000-4000-8000-000000000002"
  recordId := "00000000-0000-4000-8000-000000000001"
  now := 100
  descriptor := (1, 7)
  mtime := 100

/-- A sweep with the default budget and a cutoff before the stage file was written. -/
def sampleSweep : SweepInput where
  cutoff := 50
  referencedArtifactKeys := []
  activeExecutionIds := []
  activeBuildExecutions := []
  budget := ⟨32, 1024, 64⟩
  now := 200
  inTime _ _ := true
  recoverQuarantine _ files := (.held, files)
  rootEntries := []

/-- The call between its sections, after a number of sweeps. -/
def swept : Nat → World
  | 0 => [StorageAction.start 0 sampleInput, .write 0 [104, 105] 101, .close 0].foldl
      (StorageAction.perform queueLimits publicationCodec) emptyWorld
  | n + 1 => (StorageAction.sweep sampleSweep).perform queueLimits publicationCodec (swept n)

theorem copied_protected : Protects 0 (swept 0) (.sweep sampleSweep) := by
  have hcheck : (((swept 0).calls 0).all fun p => p.descriptor.all fun identity =>
      keepsStage sampleSweep ((swept 0).root.files.fstat identity) p.owner) = true := by
    decide +kernel
  intro p hp _ identity hidentity
  rw [hp, Option.all_some, hidentity, Option.all_some] at hcheck
  exact hcheck

theorem sample_fresh : Fresh publicationCodec emptyWorld 0 sampleInput where
  call := rfl
  record_canonical := by decide
  stage_canonical := by decide
  record_call _ _ h := nomatch h
  record_live _ h := absurd h List.not_mem_nil
  stage_call _ _ h := nomatch h
  stage_live _ h := absurd h List.not_mem_nil
  stage_entry _ _ := rfl
  inode_entry _ h := nomatch h
  inode_open _ _ h := nomatch h

/-- After a sweep that spares a call the same sweep would spare it again. -/
theorem reachable_sweep {limits : QueueLimits} {codec : StorageCodec} {call : Nat} {w : World}
    {input : SweepInput} (h : (storageSystem limits codec).Reachable (Protects call) w)
    (hsweep : ∀ body files, KeepsStages files (input.recoverQuarantine body files).2)
    (hprotects : Protects call w (.sweep input)) :
    (storageSystem limits codec).Reachable (Protects call)
        ((StorageAction.sweep input).perform limits codec w) ∧
      Protects call ((StorageAction.sweep input).perform limits codec w) (.sweep input) := by
  have hspared := (tracked_of_reachable h).spared hsweep hprotects
  refine ⟨h.step hprotects ⟨hsweep, rfl⟩, fun p hp hprogress => ?_⟩
  exact (hspared.tracked p (sparedCall_some.2 ⟨hp, hprogress⟩)).2.2.2

/-- The sweeps of the sample leave its stage file alone. -/
theorem swept_reachable (n : Nat) :
    (storageSystem queueLimits publicationCodec).Reachable (Protects 0) (swept n) ∧
      Protects 0 (swept n) (.sweep sampleSweep) := by
  induction n with
  | zero =>
      have hinit : (storageSystem queueLimits publicationCodec).Reachable (Protects 0)
          emptyWorld := System.Reachable.of_init ⟨rfl, rfl⟩
      have hstart := hinit.step (a := StorageAction.start 0 sampleInput) trivial ⟨sample_fresh, rfl⟩
      have hwrite := hstart.step (a := StorageAction.write 0 [104, 105] 101) trivial
        ⟨trivial, rfl⟩
      have hclose := hwrite.step (a := StorageAction.close 0) trivial ⟨trivial, rfl⟩
      exact ⟨hclose, copied_protected⟩
  | succ n ih =>
      unfold swept
      exact reachable_sweep ih.1 (fun _ _ => ⟨rfl, fun _ _ _ => rfl⟩) ih.2

theorem roomForSnapshot_of {limits : QueueLimits} {codec : StorageCodec} {d : QueueDir QueueBody}
    {p : Publication} {status : FileStatus}
    (hsize : codec.encodedSize (movedRecord d p.intent (some (snapshotBody codec p status))) ≤
      limits.recordMaxBytes) (hrecords : d.slots.rows.length < limits.maxRecords)
    (hbytes : (d.slots.rows.map SlotFile.size).sum + limits.recordMaxBytes ≤
      limits.maxRecordBytes) : RoomForSnapshot limits codec d p status :=
  ⟨_, if_pos hsize, hrecords, (Nat.add_le_add_left hsize _).trans hbytes, rfl⟩

/-- The sample's call is at the end of its copy, its key is free and the queue has room. The records
of the queue have the given generation and are in the lane `deferred`, and `ready` goes on behind
the slot of the intent. -/
structure ReadyToFinish (w : World) (generation : Nat) (p : Publication) : Prop where
  call : w.calls 0 = some p
  phase : p.phase = .copied ⟨(1, 7), 2, 101⟩
  key : w.root.files.entries p.parts = none
  room : RoomForSnapshot queueLimits publicationCodec w.root.queue p ⟨(1, 7), 2, 101⟩
  slot : p.intent.location = ⟨.ready, 0, 0⟩
  next : (w.root.queue.state.lanes .ready).writeCursor = 1
  moved : ∀ f ∈ w.root.queue.slots,
    f.location.lane = .deferred ∧ f.record.generation = generation

/-- The test of `ReadyToFinish`. -/
def readyToFinish (w : World) (generation : Nat) : Bool :=
  (w.calls 0).any fun p =>
    decide (p.phase = .copied ⟨(1, 7), 2, 101⟩) && decide (w.root.files.entries p.parts = none) &&
      decide (publicationSize (movedRecord w.root.queue p.intent
        (some (snapshotBody publicationCodec p ⟨(1, 7), 2, 101⟩))) ≤ 8192) &&
      decide (w.root.queue.slots.rows.length < 4096) &&
      decide ((w.root.queue.slots.rows.map SlotFile.size).sum + 8192 ≤ 16777216) &&
      decide (p.intent.location = ⟨.ready, 0, 0⟩) &&
      decide ((w.root.queue.state.lanes .ready).writeCursor = 1) &&
      w.root.queue.slots.rows.all fun f =>
        decide (f.location.lane = .deferred) && decide (f.record.generation = generation)

theorem readyToFinish_spec {w : World} {generation : Nat} (h : readyToFinish w generation = true) :
    ∃ p, ReadyToFinish w generation p := by
  unfold readyToFinish at h
  obtain ⟨p, hp, h⟩ := (Option.any_eq_true _ _).1 h
  simp only [Bool.and_eq_true, decide_eq_true_eq, List.all_eq_true] at h
  obtain ⟨⟨⟨⟨⟨⟨⟨hphase, hkey⟩, hsize⟩, hrecords⟩, hbytes⟩, hslot⟩, hnext⟩, hmoved⟩ := h
  exact ⟨p, hp, hphase, hkey, roomForSnapshot_of hsize hrecords hbytes, hslot, hnext, hmoved⟩

/-- After one sweep the intent is usable: its slot is empty and behind the write cursor. -/
theorem ReadyToFinish.usable {w : World} {p : Publication} (h : ReadyToFinish w 1 p)
    (hinv : WorldInv queueLimits publicationCodec 0 w) : IntentUsable queueLimits w.root.queue p := by
  have hprogress : p.inProgress = true := by
    unfold Publication.inProgress
    rw [h.phase]
  obtain ⟨f, hf⟩ := (hinv.root.current p (sparedCall_some.2 ⟨h.call, hprogress⟩)).owned
  have hfree : ∀ location : Location, location.lane = .ready → Free w.root.queue location := by
    intro location hlane g hg heq
    have hdeferred := (h.moved g hg).1
    rw [heq, hlane] at hdeferred
    cases hdeferred
  refine Or.inr ⟨?_, ?_, f, hf.mem, hf.own, (h.moved f hf.mem).2⟩
  · apply hfree
    rw [h.slot]
  · intro cursor hcursor heq
    have hnext : FirstFree queueLimits w.root.queue .ready 1 := by
      refine ⟨0, by decide, ?_, hfree _ rfl, fun j hj => absurd hj (Nat.not_lt_zero j)⟩
      rw [h.next]
      decide
    rw [FirstFree.unique hcursor hnext, h.slot] at heq
    exact absurd heq (by decide)

/-- After two sweeps it is not: the record is two generations on. -/
theorem ReadyToFinish.not_usable {w : World} {p : Publication} (h : ReadyToFinish w 2 p) :
    ¬ IntentUsable queueLimits w.root.queue p := by
  rintro (⟨f, hf, hitem⟩ | ⟨-, -, f, hf, -, hone⟩)
  · have hlane := congrArg (fun i : QueueItem QueueBody => i.location.lane) hitem
    dsimp only [SlotFile.item] at hlane
    rw [(h.moved f hf).1, h.slot] at hlane
    cases hlane
  · rw [(h.moved f hf).2] at hone
    cases hone

/-- A call that one sweep overtakes completes. -/
theorem publication_completes_sweptOnce : ∃ p, (swept 1).calls 0 = some p ∧
    Completed publicationCodec 0 p
      ((StorageAction.finish 0).perform queueLimits publicationCodec (swept 1)) := by
  have hcheck : readyToFinish (swept 1) 1 = true := by decide +kernel
  obtain ⟨p, h⟩ := readyToFinish_spec hcheck
  refine ⟨p, h.call, ?_⟩
  refine ((publication_completes_iff queueLimits publicationCodec 0
    (swept_reachable 1).1).2.2 p _ h.call h.phase h.key h.room).2 ?_
  exact h.usable (tracked_of_reachable (swept_reachable 1).1)

/-- A call that two sweeps overtake leaves a record in the queue. -/
theorem sweptTwice_not_completed :
    (storageSystem queueLimits publicationCodec).Reachable (Protects 0) (swept 2) ∧
    ∃ p status, (swept 2).calls 0 = some p ∧ p.phase = .copied status ∧
      (swept 2).root.files.entries p.parts = none ∧
      RoomForSnapshot queueLimits publicationCodec (swept 2).root.queue p status ∧
      ¬ Completed publicationCodec 0 p
        ((StorageAction.finish 0).perform queueLimits publicationCodec (swept 2)) := by
  have hcheck : readyToFinish (swept 2) 2 = true := by decide +kernel
  obtain ⟨p, h⟩ := readyToFinish_spec hcheck
  have hreach := (swept_reachable 2).1
  refine ⟨hreach, p, _, h.call, h.phase, h.key, h.room, ?_⟩
  rw [(tracked_of_reachable hreach).finish_iff h.call h.phase h.key h.room]
  exact h.not_usable

end WheelForge.Storage
