import WheelForge.Storage.SweepSafety

/-!
# Runs of publications

The invariant of `storageSystem` for a call whose stage file every sweep is to spare
(`tracked_of_reachable`): until its second section the call keeps its stage file, with what it has
written, and one record in the queue.
-/

set_option autoImplicit false

namespace WheelForge.Storage

open WheelForge.Maintenance
open WheelForge.Transition

/-! ## The calls -/

/-- The calls do not share record ids, stage identifiers or open inodes. -/
structure CallsDistinct (codec : StorageCodec) (calls : Nat → Option Publication) : Prop where
  wellFormed : ∀ c p, calls c = some p → WellFormed codec p
  records : ∀ c c' p p', calls c = some p → calls c' = some p' → c ≠ c' →
    p.intent.record.recordId ≠ p'.intent.record.recordId
  stages : ∀ c c' p p', calls c = some p → calls c' = some p' → c ≠ c' →
    p.stageIdentifier ≠ p'.stageIdentifier
  descriptors : ∀ c c' p p', calls c = some p → calls c' = some p' → c ≠ c' → p.Open → p'.Open →
    ∀ identity, p.descriptor = some identity → p'.descriptor ≠ some identity

/-- A later state of the locals of a call. -/
structure Follows (p p' : Publication) : Prop where
  record : p'.intent.record.recordId = p.intent.record.recordId
  stage : p'.stageIdentifier = p.stageIdentifier
  descriptor : p'.descriptor = p.descriptor
  opened : p'.Open → p.Open

section Calls

variable {codec : StorageCodec} {calls : Nat → Option Publication} {c : Nat} {p p' : Publication}

theorem update_some {c' : Nat} {q : Publication}
    (h : Function.update calls c (some p) c' = some q) :
    (c' = c ∧ q = p) ∨ (c' ≠ c ∧ calls c' = some q) := by
  by_cases hc : c' = c
  · subst hc
    rw [Function.update_self] at h
    exact Or.inl ⟨rfl, (Option.some.inj h).symm⟩
  · rw [Function.update_of_ne hc] at h
    exact Or.inr ⟨hc, h⟩

/-- A relation between different calls after the update of one of them. -/
theorem pairwise_update {R : Publication → Publication → Prop} (hsymm : ∀ p q, R p q → R q p)
    (h : ∀ c c' p p', calls c = some p → calls c' = some p' → c ≠ c' → R p p')
    (hnew : ∀ c' q, c' ≠ c → calls c' = some q → R p q) {c₁ c₂ : Nat} {p₁ p₂ : Publication}
    (h₁ : Function.update calls c (some p) c₁ = some p₁)
    (h₂ : Function.update calls c (some p) c₂ = some p₂) (hne : c₁ ≠ c₂) : R p₁ p₂ := by
  rcases update_some h₁ with ⟨rfl, rfl⟩ | ⟨hc₁, hold₁⟩ <;>
    rcases update_some h₂ with ⟨rfl, rfl⟩ | ⟨hc₂, hold₂⟩
  · exact absurd rfl hne
  · exact hnew _ _ hc₂ hold₂
  · exact hsymm _ _ (hnew _ _ hc₁ hold₁)
  · exact h _ _ _ _ hold₁ hold₂ hne

theorem CallsDistinct.set (h : CallsDistinct codec calls) (hp' : WellFormed codec p')
    (hrecord : ∀ c' q, c' ≠ c → calls c' = some q →
      p'.intent.record.recordId ≠ q.intent.record.recordId)
    (hstage : ∀ c' q, c' ≠ c → calls c' = some q → p'.stageIdentifier ≠ q.stageIdentifier)
    (hdescriptor : ∀ c' q, c' ≠ c → calls c' = some q → p'.Open → q.Open → ∀ identity,
      p'.descriptor = some identity → q.descriptor ≠ some identity) :
    CallsDistinct codec (Function.update calls c (some p')) where
  wellFormed := by
    intro c' q hq
    rcases update_some hq with ⟨-, rfl⟩ | ⟨-, hq⟩
    · exact hp'
    · exact h.wellFormed c' q hq
  records := fun _ _ _ _ => pairwise_update (fun _ _ => Ne.symm) h.records hrecord
  stages := fun _ _ _ _ => pairwise_update (fun _ _ => Ne.symm) h.stages hstage
  descriptors := fun _ _ _ _ => pairwise_update
    (R := fun p q => p.Open → q.Open → ∀ identity, p.descriptor = some identity →
      q.descriptor ≠ some identity)
    (fun _ _ hR hq hp identity hid hid' => hR hp hq identity hid' hid) h.descriptors hdescriptor

/-- The step of a call keeps the calls distinct. -/
theorem CallsDistinct.follow (h : CallsDistinct codec calls) (hc : calls c = some p)
    (hf : Follows p p') (hp' : WellFormed codec p') :
    CallsDistinct codec (Function.update calls c (some p')) := by
  apply h.set hp'
  · intro c' q hne hq
    rw [hf.record]
    exact h.records c c' p q hc hq (Ne.symm hne)
  · intro c' q hne hq
    rw [hf.stage]
    exact h.stages c c' p q hc hq (Ne.symm hne)
  · intro c' q hne hq hopen hq'
    rw [hf.descriptor]
    exact h.descriptors c c' p q hc hq (Ne.symm hne) (hf.opened hopen) hq'

theorem Publication.open_of_inProgress (h : p.inProgress = true) : p.Open := by
  unfold Publication.inProgress at h
  unfold Publication.Open
  split at h
  · next hphase => rw [hphase]; exact ⟨nofun, nofun⟩
  · next hphase => rw [hphase]; exact ⟨nofun, nofun⟩
  · cases h

end Calls

/-! ## The root between sections -/

/-- A safe queue, and what belongs to the call that nothing may disturb, if any. -/
structure Undisturbed (limits : QueueLimits) (codec : StorageCodec) (spared : Option Publication)
    (root : DataRoot) : Prop where
  safe : Safe limits codec root.queue
  current : ∀ p, spared = some p → Current root p

section Undisturbing

variable {limits : QueueLimits} {codec : StorageCodec} {spared : Option Publication}
  {root : DataRoot} {files : FileSystem} {t : QueueDir QueueBody} {p q : Publication}

theorem Undisturbed.of_files (h : Undisturbed limits codec spared root)
    (hfiles : ∀ p, spared = some p → KeepsStaged root.files files p) :
    Undisturbed limits codec spared { root with files := files } :=
  ⟨h.safe, fun p hp => (h.current p hp).keeps (hfiles p hp) fun f hf => ⟨f, hf⟩⟩

/-- An operation of the queue that is apart from the undisturbed call. -/
theorem Undisturbed.effect {a : QueueAction QueueBody} (h : Undisturbed limits codec spared root)
    (heffect : QueueEffect limits codec.toQueueCodec root.queue a t) (ha : WritesGenuine codec a)
    (hapart : ∀ p, spared = some p → Apart codec.toQueueCodec p a) :
    Undisturbed limits codec spared { root with queue := t } where
  safe := h.safe.effect heffect ha
  current := fun p hp => (h.current p hp).keeps ⟨rfl, fun _ _ => rfl⟩
    fun f hf => ⟨f, hf.effect heffect (hapart p hp)⟩

/-- Two calls that have nothing in common. -/
structure Separate (codec : StorageCodec) (p q : Publication) : Prop where
  left : WellFormed codec p
  right : WellFormed codec q
  record : p.intent.record.recordId ≠ q.intent.record.recordId
  stage : p.stageIdentifier ≠ q.stageIdentifier

theorem Separate.stagePath_ne (h : Separate codec p q) : p.stagePath ≠ q.stagePath :=
  h.left.stagePath_ne (h.right.genuine 0) (fun heq => h.stage heq.symm) q.parts.dropLast

/-- A section that is apart from the undisturbed call ends with it undisturbed. -/
def Quiet {α : Type} (limits : QueueLimits) (codec : StorageCodec) (spared : Option Publication)
    (x : Gated α) (root : DataRoot) (Q : α → Prop) : Prop :=
  Ends (Undisturbed limits codec spared) x root
    fun a r => Undisturbed limits codec spared r ∧ Q a

theorem quiet_move (h : Undisturbed limits codec spared root) {item : QueueItem QueueBody}
    {destination : Lane} {body : Option QueueBody}
    (hcanon : codec.canonicalUuid item.record.recordId = some item.record.recordId)
    (hbody : ∀ record, body.getD item.record.body = .publication record → Genuine codec record)
    (hapart : ∀ p, spared = some p → p.intent.record.recordId ≠ item.record.recordId ∧
      ¬ Describes p (body.getD item.record.body)) :
    Quiet limits codec spared (onQueue (queueMove limits codec.toQueueCodec item destination body))
      root fun place => place.record.recordId = item.record.recordId := by
  obtain ⟨t, x, hrun, ht⟩ := move_spec h.safe.counted codec.toQueueCodec item destination body
  have hquiet : Undisturbed limits codec spared { root with queue := t } := by
    refine h.effect (.move ht) hbody fun p hp => ⟨(hapart p hp).1, ?_, (hapart p hp).2⟩
    intro id hid
    rw [← Option.some.inj (hcanon.symm.trans hid)]
    exact (hapart p hp).1
  refine ends_onQueue hrun (fun place hplace => ⟨hquiet, ?_⟩) fun _ _ => hquiet
  subst hplace
  cases ht with
  | moved henqueue _ =>
      have hprepared : ∀ {record}, prepareRecord codec.toQueueCodec (movedInput item body) ""
          root.queue.state.nextSequence = .ok record →
            record.recordId = item.record.recordId := by
        intro record hrecord
        exact (Option.some.inj (hcanon.symm.trans (prepareRecord_ok hrecord).1)).symm
      cases henqueue with
      | @existing record file hrecord hfile =>
          have hfind : findRecordId limits root.queue [destination] record.recordId
              (some record.generation) = some file := hfile
          exact (findRecordId_eq_some h.safe.counted.toPlaced hfind).2.2.1.trans
            (hprepared hrecord)
      | linked hrecord => exact hprepared hrecord

theorem quiet_complete (h : Undisturbed limits codec spared root) {item : QueueItem QueueBody}
    (hapart : ∀ p, spared = some p → p.intent.record.recordId ≠ item.record.recordId) :
    Quiet limits codec spared (onQueue (complete limits item)) root fun _ => True := by
  obtain ⟨t, x, hatomic, ht⟩ := complete_spec h.safe.counted item
  have hquiet : Undisturbed limits codec spared { root with queue := t } :=
    h.effect (.complete ht) trivial hapart
  exact ends_onQueue hatomic.run (fun _ _ => ⟨hquiet, trivial⟩) fun _ _ => hquiet

theorem quiet_unlink (h : Undisturbed limits codec spared root) {path : Path}
    (hpath : ∀ p, spared = some p → p.stagePath ≠ path) :
    Quiet limits codec spared (unlinkNamed path) root fun _ => True :=
  ⟨h.of_files fun p hp => KeepsPath.staged (.unlink (hpath p hp)), trivial⟩

theorem quiet_link (h : Undisturbed limits codec spared root) (source target : Path) :
    Quiet limits codec spared (linkNoReplace source target) root fun _ => True := by
  unfold Quiet linkNoReplace
  refine Ends.bind (ends_get (Q := fun a r => a = root ∧ r = root) ⟨rfl, rfl⟩) ?_
  rintro _ _ ⟨rfl, rfl⟩
  split
  · exact h
  · exact h
  · next identity _ htarget =>
    refine ends_setFiles ⟨h.of_files fun p hp => ?_, trivial⟩
    obtain ⟨stage, hstaged⟩ := (h.current p hp).staged
    refine ⟨FileSystem.setEntry_entries_ne _ _ ?_, fun _ _ => rfl⟩
    rintro rfl
    rw [hstaged.entry] at htarget
    cases htarget

/-- The second section of another call up to its assignment of `intent`. -/
theorem identifyStage_quiet (h : Undisturbed limits codec spared root) (hq : WellFormed codec q)
    (hprogress : q.inProgress = true) (hseparate : ∀ p, spared = some p → Separate codec p q)
    (status : FileStatus) :
    Quiet limits codec spared (identifyStage limits codec q status) root
      fun intent => intent.record.recordId = q.intent.record.recordId := by
  obtain ⟨-, -, now, hbody⟩ := hq.intent hprogress
  have hsnapshot : snapshotBody codec q status = .publication
      (snapshot (intentRecord q.objectKey q.parts q.owner q.stageIdentifier now) status
        (codec.sha256 q.written)) := by
    unfold snapshotBody
    rw [hbody]
  unfold identifyStage
  refine Ends.bind (Q := fun _ => Undisturbed limits codec spared) ?_ ?_
  · unfold requireNamedIdentity
    refine Ends.bind (ends_get (Q := fun a r => a = root ∧ r = root) ⟨rfl, rfl⟩) ?_
    rintro _ _ ⟨rfl, rfl⟩
    split
    · exact h
    · split <;> exact h
  · intro _ r hr
    apply quiet_move hr hq.record
    · intro record hrecord
      rw [Option.getD_some, hsnapshot] at hrecord
      cases hrecord
      obtain ⟨htoken, howner, hstage⟩ := hq.genuine now
      exact ⟨htoken, howner, hstage⟩
    · intro p hp
      refine ⟨(hseparate p hp).record, ?_⟩
      rw [Option.getD_some, hsnapshot]
      rintro ⟨record, hrecord, htoken⟩
      cases hrecord
      exact (hseparate p hp).stage htoken.symm

/-- The rest of the second section of another call. -/
theorem linkStage_quiet (h : Undisturbed limits codec spared root)
    (hseparate : ∀ p, spared = some p → Separate codec p q) {intent : QueueItem QueueBody}
    (hintent : intent.record.recordId = q.intent.record.recordId) :
    Quiet limits codec spared (linkStage limits q intent) root fun _ => True := by
  unfold linkStage
  refine Ends.bind (quiet_link h _ _) fun _ r hr => ?_
  refine Ends.bind (quiet_unlink hr.1 fun p hp => (hseparate p hp).stagePath_ne) fun _ r hr => ?_
  split
  · refine quiet_complete hr.1 fun p hp => ?_
    rw [hintent]
    exact (hseparate p hp).record
  · exact ⟨hr.1, trivial⟩

/-- The clean-up of another call. -/
theorem cleanUp_quiet (h : Undisturbed limits codec spared root)
    (hseparate : ∀ p, spared = some p → Separate codec p q) :
    Quiet limits codec spared (cleanUp limits q) root fun _ => True := by
  have hcomplete : ∀ {r}, Undisturbed limits codec spared r →
      Quiet limits codec spared (onQueue (complete limits q.intent)) r fun _ => True :=
    fun hr => quiet_complete hr fun p hp => (hseparate p hp).record
  unfold cleanUp
  split
  · exact hcomplete h
  · refine Ends.bind (ends_get (Q := fun a r => a = root ∧ r = root) ⟨rfl, rfl⟩) ?_
    rintro _ _ ⟨rfl, rfl⟩
    split
    · split
      · exact ⟨h, trivial⟩
      · split
        · exact Ends.bind (quiet_unlink h fun p hp => (hseparate p hp).stagePath_ne)
            fun _ r hr => hcomplete hr.1
        · exact h
    · exact ⟨h, trivial⟩

/-! ## The start of a call -/

theorem createExclusive_apply (root : DataRoot) (path : Path) (identity : FileId) (marker : String)
    (mtime : Int) :
    createExclusive path identity marker mtime root =
      (match root.files.entries path with
        | some _ => throw .fileExists
        | none => setFiles ((root.files.setEntry path (some identity)).setInode identity
            ⟨[], mtime, some marker⟩) : Gated Unit) root := rfl

theorem createExclusive_ok (root : DataRoot) {path : Path}
    (h : root.files.entries path = none) (identity : FileId)
    (marker : String) (mtime : Int) :
    createExclusive path identity marker mtime root = .ok () { root with
      files := (root.files.setEntry path (some identity)).setInode identity
        ⟨[], mtime, some marker⟩ } := by
  rw [createExclusive_apply, h]
  rfl

theorem publishArguments_ok {input : PublishInput} {parts : Path} {owner : Option Uuid}
    (h : publishArguments codec input = .ok (parts, owner)) :
    objectKeyParts input.objectKey = .ok parts ∧
      ∀ o, owner = some o → uuidPattern o.toList = true := by
  unfold publishArguments at h
  split at h
  · cases h
  · next parts' hparts =>
    split at h
    · cases h
    · next owner' howner =>
      cases h
      refine ⟨hparts, ?_⟩
      rintro o rfl
      unfold canonicalOwner at howner
      split at howner
      · cases howner
      · cases howner
      · split at howner
        · next hcanon =>
          cases howner
          exact codec.uuid_pattern hcanon
        · cases howner

/-- The root after the first section of a call. -/
theorem current_startedCall {input : PublishInput} {parts : Path} {owner : Option Uuid}
    {intent : QueueItem QueueBody} {f : SlotFile QueueBody}
    (hf : Owned root.queue (startedCall input parts owner intent) f) :
    Current { root with
      files := (root.files.setEntry (startedCall input parts owner intent).stagePath
        (some input.descriptor)).setInode input.descriptor
          ⟨[], input.mtime, some input.stageIdentifier⟩ } (startedCall input parts owner intent) := by
  refine ⟨⟨⟨input.descriptor, rfl, ?_, ?_, ?_⟩, f, hf⟩, nofun⟩
  · rw [FileSystem.setInode_entries, FileSystem.setEntry_entries_self]
  · rw [FileSystem.setInode_inodes_self]
    rfl
  · rw [FileSystem.setInode_inodes_self]
    rfl

/-- A call after its first section is well-formed. -/
theorem wellFormed_startedCall {input : PublishInput} {parts : Path} {owner : Option Uuid}
    (hargs : publishArguments codec input = .ok (parts, owner))
    (hstage : codec.canonicalUuid input.stageIdentifier = some input.stageIdentifier)
    {intent : QueueItem QueueBody}
    (hrecord : codec.canonicalUuid intent.record.recordId = some intent.record.recordId)
    (hlane : intent.location.lane = .ready) (hgen : intent.record.generation = 0)
    (hbody : intent.record.body = .publication
      (intentRecord input.objectKey parts owner input.stageIdentifier input.now)) :
    WellFormed codec (startedCall input parts owner intent) where
  parts := (publishArguments_ok hargs).1
  owner := (publishArguments_ok hargs).2
  stage := hstage
  record := hrecord
  intent _ := ⟨hlane, hgen, input.now, hbody⟩

/-- The enqueue of the intent of a new call. -/
theorem enqueueIntent_quiet (h : Undisturbed limits codec spared root) {input : PublishInput}
    {parts : Path} {owner : Option Uuid}
    (hargs : publishArguments codec input = .ok (parts, owner))
    (hrecord : codec.canonicalUuid input.recordId = some input.recordId)
    (hstage : codec.canonicalUuid input.stageIdentifier = some input.stageIdentifier)
    (hlive : ∀ f ∈ root.queue.slots, f.record.recordId ≠ input.recordId)
    (htoken : ∀ f ∈ root.queue.slots, ∀ record, f.record.body = .publication record →
      record.stageOwnershipToken ≠ input.stageIdentifier)
    (hspared : ∀ p, spared = some p → p.intent.record.recordId ≠ input.recordId ∧
      p.stageIdentifier ≠ input.stageIdentifier) :
    Ends (Undisturbed limits codec spared) (enqueueIntent limits codec input parts owner) root
      fun intent r => (Undisturbed limits codec spared r ∧ r.files = root.files ∧
        intent.record.recordId = input.recordId) ∧
        WellFormed codec (startedCall input parts owner intent) ∧
        ∃ f, Owned r.queue (startedCall input parts owner intent) f := by
  obtain ⟨t, x, hatomic, ht⟩ := enqueue_spec h.safe.counted codec.toQueueCodec .ready
    ⟨none, none, .publication
      (intentRecord input.objectKey parts owner input.stageIdentifier input.now)⟩
    input.recordId true false
  have hgenuine : Genuine codec
      (intentRecord input.objectKey parts owner input.stageIdentifier input.now) :=
    ⟨hstage, (publishArguments_ok hargs).2, parts, (publishArguments_ok hargs).1, rfl⟩
  have hquiet : Undisturbed limits codec spared { root with queue := t } := by
    refine h.effect (.enqueue ht) ?_ fun p hp => ⟨?_, ?_⟩
    · intro record hbody
      cases hbody
      exact hgenuine
    · intro id hid
      rw [← Option.some.inj (hrecord.symm.trans hid)]
      exact (hspared p hp).1
    · rintro ⟨record, hbody, hsame⟩
      cases hbody
      exact (hspared p hp).2 hsame.symm
  refine ends_onQueue hatomic.run ?_ fun _ _ => hquiet
  rintro intent rfl
  cases ht with
  | existing _ hfile => cases hfile
  | @linked record size cursor t hprepared _ _ _ hcursor hlinked =>
      obtain ⟨hcanon, hgen, hbody⟩ := prepareRecord_ok hprepared
      have hid : record.recordId = input.recordId :=
        (Option.some.inj (hrecord.symm.trans hcanon)).symm
      refine ⟨⟨hquiet, rfl, hid⟩, ?_, ?_⟩
      · refine wellFormed_startedCall hargs hstage ?_ rfl hgen hbody
        show codec.canonicalUuid record.recordId = some record.recordId
        rw [hid]
        exact hrecord
      · refine ⟨⟨locationAt limits .ready cursor, record, size⟩,
          (mem_linked hlinked).2 (Or.inr rfl), rfl, ?_, rfl, Or.inl rfl⟩
        intro g hg hcase
        rcases (mem_linked hlinked).1 hg with hold | hnew
        · -- nothing in the queue was about the new call
          rcases hcase with hsame | ⟨record', hbody', hsame⟩
          · exact absurd (hsame.trans hid) (hlive g hold)
          · exact absurd hsame (htoken g hold record' hbody')
        · exact hnew

end Undisturbing

/-! ## The invariant -/

/-- The call that must not be disturbed, as long as it is in progress. -/
def sparedCall (call : Nat) (w : World) : Option Publication :=
  (w.calls call).filter fun p => p.inProgress

/-- The same while another call takes a step; a call may disturb itself. -/
def sparedBy (call c : Nat) (w : World) : Option Publication :=
  if c = call then none else sparedCall call w

/-- The invariant of runs whose sweeps spare the stage file of `call`. -/
structure WorldInv (limits : QueueLimits) (codec : StorageCodec) (call : Nat) (w : World) :
    Prop where
  distinct : CallsDistinct codec w.calls
  root : Undisturbed limits codec (sparedCall call w) w.root

/-- The sweeps find the stage file of the call young or its owner active. -/
def Protects (call : Nat) (w : World) : StorageAction → Prop
  | .sweep input => ∀ p, w.calls call = some p → p.inProgress = true →
      Protected input w.root.files p
  | _ => True

section Steps

variable {limits : QueueLimits} {codec : StorageCodec} {call c : Nat} {w : World}
  {p p' q : Publication} {root : DataRoot}

theorem sparedCall_some : sparedCall call w = some p ↔
    w.calls call = some p ∧ p.inProgress = true := by
  unfold sparedCall
  exact Option.filter_eq_some_iff

theorem sparedBy_some : sparedBy call c w = some p ↔
    c ≠ call ∧ w.calls call = some p ∧ p.inProgress = true := by
  unfold sparedBy
  split
  · next heq => exact ⟨nofun, fun h => absurd heq h.1⟩
  · next hne =>
    rw [sparedCall_some]
    exact ⟨fun h => ⟨hne, h⟩, fun h => h.2⟩

theorem WorldInv.sparedBy (h : WorldInv limits codec call w) (c : Nat) :
    Undisturbed limits codec (sparedBy call c w) w.root :=
  ⟨h.root.safe, fun p hp => h.root.current p (sparedCall_some.2 (sparedBy_some.1 hp).2)⟩

theorem WorldInv.separate (h : WorldInv limits codec call w) (hq : w.calls c = some q)
    (hp : Storage.sparedBy call c w = some p) : Separate codec p q := by
  obtain ⟨hne, hp, -⟩ := sparedBy_some.1 hp
  exact ⟨h.distinct.wellFormed _ _ hp, h.distinct.wellFormed _ _ hq,
    h.distinct.records _ _ _ _ hp hq (Ne.symm hne), h.distinct.stages _ _ _ _ hp hq (Ne.symm hne)⟩

/-- A step of one call. -/
theorem WorldInv.call_step (h : WorldInv limits codec call w) (hq : w.calls c = some q)
    (hfollow : Follows q p') (hwell : WellFormed codec p')
    (hroot : Undisturbed limits codec (Storage.sparedBy call c w) root)
    (hown : c = call → p'.inProgress = true → Current root p') :
    WorldInv limits codec call ({ w with root := root }.setCall c p') where
  distinct := h.distinct.follow hq hfollow hwell
  root := by
    refine ⟨hroot.safe, fun p hp => ?_⟩
    obtain ⟨hcall, hprogress⟩ := sparedCall_some.1 hp
    rcases update_some hcall with ⟨rfl, rfl⟩ | ⟨hne, hcall⟩
    · exact hown rfl hprogress
    · exact hroot.current p (sparedBy_some.2 ⟨Ne.symm hne, hcall, hprogress⟩)

/-- A step that leaves the calls as they are. -/
theorem WorldInv.root_step (h : WorldInv limits codec call w)
    (hroot : Undisturbed limits codec (sparedCall call w) root) :
    WorldInv limits codec call { w with root := root } :=
  ⟨h.distinct, hroot⟩

theorem WorldInv.write (h : WorldInv limits codec call w) (hq : w.calls c = some q)
    (chunk : List UInt8) (mtime : Int) :
    WorldInv limits codec call (writeCall w c q chunk mtime) := by
  unfold writeCall
  split
  · next identity hphase hdescriptor =>
    have hprogress : q.inProgress = true := by
      unfold Publication.inProgress
      rw [hphase]
    have hwell := h.distinct.wellFormed c q hq
    refine h.call_step hq ⟨rfl, rfl, rfl, fun hopen => hopen⟩ ?_ ?_ ?_
    · exact ⟨hwell.parts, hwell.owner, hwell.stage, hwell.record, hwell.intent⟩
    · refine (h.sparedBy c).of_files fun p hp => ⟨rfl, fun other hother => ?_⟩
      obtain ⟨hne, hp, hin⟩ := sparedBy_some.1 hp
      refine FileSystem.setInode_inodes_ne _ _ ?_
      rintro rfl
      exact h.distinct.descriptors _ _ _ _ hp hq (Ne.symm hne) (Publication.open_of_inProgress hin)
        (Publication.open_of_inProgress hprogress) _ hother hdescriptor
    · rintro rfl -
      have hcurrent := h.root.current q (sparedCall_some.2 ⟨hq, hprogress⟩)
      obtain ⟨stage, hstaged⟩ := hcurrent.staged
      obtain rfl : stage = identity :=
        Option.some.inj (hstaged.descriptor.symm.trans hdescriptor)
      refine ⟨⟨⟨stage, hdescriptor, hstaged.entry, ?_, ?_⟩, ?_⟩, ?_⟩
      · rw [FileSystem.setInode_inodes_self]
        show (w.root.files.inodes stage).content ++ chunk = q.written ++ chunk
        rw [hstaged.content]
      · rw [FileSystem.setInode_inodes_self]
        exact hstaged.marker
      · obtain ⟨f, hf⟩ := hcurrent.owned
        exact ⟨f, hf.mem, hf.own, hf.sole, hf.body, hf.place⟩
      · intro status hcopied
        rw [hphase] at hcopied
        cases hcopied
  · exact h

theorem WorldInv.close (h : WorldInv limits codec call w) (hq : w.calls c = some q) :
    WorldInv limits codec call (closeCall w c q) := by
  unfold closeCall
  split
  · next identity hphase hdescriptor =>
    have hprogress : q.inProgress = true := by
      unfold Publication.inProgress
      rw [hphase]
    have hwell := h.distinct.wellFormed c q hq
    have hopen := Publication.open_of_inProgress hprogress
    refine h.call_step hq ⟨rfl, rfl, rfl, fun _ => hopen⟩ ?_ (h.sparedBy c) ?_
    · exact ⟨hwell.parts, hwell.owner, hwell.stage, hwell.record, fun _ => hwell.intent hprogress⟩
    · rintro rfl -
      have hcurrent := h.root.current q (sparedCall_some.2 ⟨hq, hprogress⟩)
      obtain ⟨stage, hstaged⟩ := hcurrent.staged
      obtain ⟨f, hf⟩ := hcurrent.owned
      refine ⟨⟨⟨stage, hstaged.descriptor, hstaged.entry, hstaged.content, hstaged.marker⟩,
        f, hf.mem, hf.own, hf.sole, hf.body, hf.place⟩, ?_⟩
      intro status hcopied
      dsimp only at hcopied
      split at hcopied
      · cases hcopied
        exact ⟨hdescriptor, rfl⟩
      · cases hcopied
  · exact h

theorem WorldInv.finish (h : WorldInv limits codec call w) (hq : w.calls c = some q) :
    WorldInv limits codec call (finishCall limits codec w c q) := by
  unfold finishCall
  split
  · next status hphase =>
    have hprogress : q.inProgress = true := by
      unfold Publication.inProgress
      rw [hphase]
    have hwell := h.distinct.wellFormed c q hq
    have hopen := Publication.open_of_inProgress hprogress
    -- a call that has left its second section is not in progress
    have hstep : ∀ (intent : QueueItem QueueBody) (phase : Phase) (root : DataRoot),
        (∀ p : Publication, p.phase = phase → p.inProgress = false) →
        intent.record.recordId = q.intent.record.recordId →
        Undisturbed limits codec (Storage.sparedBy call c w) root →
        WorldInv limits codec call
          ({ w with root := root }.setCall c { q with intent := intent, phase := phase }) := by
      intro intent phase root hend hid hroot
      refine h.call_step hq ⟨hid, rfl, rfl, fun _ => hopen⟩ ?_ hroot ?_
      · refine ⟨hwell.parts, hwell.owner, hwell.stage, ?_, fun hin => ?_⟩
        · show codec.canonicalUuid intent.record.recordId = some intent.record.recordId
          rw [hid]
          exact hwell.record
        · rw [hend _ rfl] at hin
          cases hin
      · intro _ hin
        rw [hend _ rfl] at hin
        cases hin
    have hfailing : ∀ p : Publication, p.phase = .failing → p.inProgress = false := by
      intro p hp
      unfold Publication.inProgress
      rw [hp]
    have hpublished : ∀ p : Publication, p.phase = .published → p.inProgress = false := by
      intro p hp
      unfold Publication.inProgress
      rw [hp]
    have hidentify := identifyStage_quiet (h.sparedBy c) hwell hprogress
      (fun p hp => h.separate hq hp) status
    unfold Quiet Ends at hidentify
    split
    · next e root hresult =>
      rw [hresult] at hidentify
      exact hstep q.intent .failing root hfailing rfl hidentify
    · next intent root hresult =>
      rw [hresult] at hidentify
      obtain ⟨hroot, hid⟩ := hidentify
      have hlink := linkStage_quiet hroot (fun p hp => h.separate hq hp) hid
      unfold Quiet Ends at hlink
      split
      · next e root hresult =>
        rw [hresult] at hlink
        exact hstep intent .failing root hfailing hid hlink
      · next root hresult =>
        rw [hresult] at hlink
        exact hstep intent .published root hpublished hid hlink.1
  · exact h

theorem WorldInv.fail (h : WorldInv limits codec call w) (hq : w.calls c = some q) :
    WorldInv limits codec call (failCall w c q) := by
  unfold failCall
  split
  · next hprogress =>
    have hwell := h.distinct.wellFormed c q hq
    refine h.call_step hq ⟨rfl, rfl, rfl, fun _ => Publication.open_of_inProgress hprogress⟩ ?_
      (h.sparedBy c) nofun
    exact ⟨hwell.parts, hwell.owner, hwell.stage, hwell.record, nofun⟩
  · exact h

theorem WorldInv.cleanUp (h : WorldInv limits codec call w) (hq : w.calls c = some q) :
    WorldInv limits codec call (cleanUpCall limits w c q) := by
  unfold cleanUpCall
  split
  · next hphase =>
    have hwell := h.distinct.wellFormed c q hq
    refine h.call_step hq ⟨rfl, rfl, rfl, fun hopen => absurd rfl hopen.2⟩ ?_ ?_ nofun
    · exact ⟨hwell.parts, hwell.owner, hwell.stage, hwell.record, nofun⟩
    · have hclean := cleanUp_quiet (h.sparedBy c) fun p hp => h.separate hq hp
      unfold Quiet Ends at hclean
      unfold rootAfter
      split
      · next root hresult =>
        rw [hresult] at hclean
        exact hclean.1
      · next root hresult =>
        rw [hresult] at hclean
        exact hclean
  · exact h

/-- The first section of a new call. -/
theorem WorldInv.start (h : WorldInv limits codec call w) {input : PublishInput}
    (hfresh : Fresh codec w c input) :
    WorldInv limits codec call (startCall limits codec w c input) := by
  have hspared : ∀ p, sparedCall call w = some p →
      p.intent.record.recordId ≠ input.recordId ∧ p.stageIdentifier ≠ input.stageIdentifier :=
    fun p hp => ⟨hfresh.record_call _ _ (sparedCall_some.1 hp).1,
      hfresh.stage_call _ _ (sparedCall_some.1 hp).1⟩
  unfold startCall
  split
  · exact h
  · next parts owner hargs =>
    have henqueue := enqueueIntent_quiet h.root hargs hfresh.record_canonical
      hfresh.stage_canonical hfresh.record_live hfresh.stage_live hspared
    unfold Ends at henqueue
    split
    · next e root hresult =>
      rw [hresult] at henqueue
      exact h.root_step henqueue
    · next intent root hresult =>
      rw [hresult] at henqueue
      obtain ⟨⟨hroot, hfiles, hid⟩, hwell, f, hf⟩ := henqueue
      have hpath : root.files.entries (startedCall input parts owner intent).stagePath = none := by
        rw [hfiles]
        exact hfresh.stage_entry _ _
      have hcreate := createExclusive_ok root hpath input.descriptor input.stageIdentifier
        input.mtime
      dsimp only
      rw [hcreate]
      dsimp only
      refine ⟨?_, hroot.safe, fun p hp => ?_⟩
      · apply h.distinct.set hwell
        · intro c' q _ hq heq
          exact hfresh.record_call c' q hq (heq.symm.trans hid)
        · intro c' q _ hq
          exact (hfresh.stage_call c' q hq).symm
        · intro c' q _ hq _ hopen identity hidentity
          cases hidentity
          exact hfresh.inode_open c' q hq hopen
      · obtain ⟨hcall, hprogress⟩ := sparedCall_some.1 hp
        rcases update_some hcall with ⟨rfl, rfl⟩ | ⟨hne, hcall⟩
        · exact current_startedCall hf
        · have hp := sparedCall_some.2 ⟨hcall, hprogress⟩
          have hwellp := h.distinct.wellFormed _ _ hcall
          refine (hroot.current p hp).keeps ⟨?_, fun other hother => ?_⟩ fun g hg => ⟨g, hg⟩
          · refine FileSystem.setEntry_entries_ne _ _ ?_
            intro heq
            obtain ⟨stage, hstaged⟩ := (hroot.current p hp).staged
            rw [← heq, hstaged.entry] at hpath
            cases hpath
          · refine FileSystem.setInode_inodes_ne _ _ ?_
            rintro rfl
            exact hfresh.inode_open _ _ hcall (Publication.open_of_inProgress hprogress) hother

/-- A sweep spares the call and leaves its stage file as young as it was. -/
theorem WorldInv.spared (h : WorldInv limits codec call w) {input : SweepInput}
    (hsweep : ∀ body files, KeepsStages files (input.recoverQuarantine body files).2)
    (hprotects : Protects call w (.sweep input)) :
    Spared limits codec input (sparedCall call w)
      (rootAfter (sweepAbandoned limits codec input) w.root) := by
  apply sweepAbandoned_spares hsweep
  refine ⟨h.root.safe, fun p hp => ?_⟩
  obtain ⟨hcall, hprogress⟩ := sparedCall_some.1 hp
  exact ⟨h.distinct.wellFormed _ _ hcall, hprogress, h.root.current p hp, hprotects p hcall hprogress⟩

theorem WorldInv.sweep (h : WorldInv limits codec call w) {input : SweepInput}
    (hsweep : ∀ body files, KeepsStages files (input.recoverQuarantine body files).2)
    (hprotects : Protects call w (.sweep input)) :
    WorldInv limits codec call
      { w with root := rootAfter (sweepAbandoned limits codec input) w.root } := by
  have hspared := h.spared hsweep hprotects
  exact h.root_step ⟨hspared.safe, fun p hp => (hspared.tracked p hp).2.2.1⟩

theorem WorldInv.queue (h : WorldInv limits codec call w) {a : QueueAction QueueBody}
    (ha : Foreign codec w a) :
    WorldInv limits codec call { w with root := { w.root with
      queue := a.perform limits codec.toQueueCodec w.root.queue } } := by
  have heffect := perform_effect h.root.safe.counted codec.toQueueCodec a
  refine h.root_step (h.root.effect heffect ?_ fun p hp => ?_)
  · cases a with
    | enqueue => exact fun record hbody => absurd hbody (ha.2 record)
    | move => exact fun record hbody => absurd hbody (ha.2 record)
    | complete => trivial
    | peek => trivial
    | peekDue => trivial
    | reconcile => trivial
  · have hcall := (sparedCall_some.1 hp).1
    cases a with
    | enqueue lane input fresh =>
        refine ⟨fun id hid => ha.1 id hid call p hcall, ?_⟩
        rintro ⟨record, hbody, -⟩
        exact ha.2 record hbody
    | complete item => exact ha call p hcall
    | move item destination body =>
        refine ⟨ha.1 _ (Or.inl rfl) call p hcall, fun id hid => ha.1 id (Or.inr hid) call p hcall, ?_⟩
        rintro ⟨record, hbody, -⟩
        exact ha.2 record hbody
    | peek => trivial
    | peekDue => trivial
    | reconcile => trivial

/-- Every step that protects the call keeps the invariant. -/
theorem WorldInv.step (h : WorldInv limits codec call w) {a : StorageAction}
    (henabled : Enabled codec w a) (hprotects : Protects call w a) :
    WorldInv limits codec call (a.perform limits codec w) := by
  have hon : ∀ {c} {f : Publication → World}, (∀ q, w.calls c = some q →
      WorldInv limits codec call (f q)) → WorldInv limits codec call (onCall w c f) := by
    intro c f hf
    unfold onCall
    split
    · next q hq => exact hf q hq
    · exact h
  cases a with
  | start c input => exact h.start henabled
  | write c chunk mtime => exact hon fun q hq => h.write hq chunk mtime
  | close c => exact hon fun q hq => h.close hq
  | finish c => exact hon fun q hq => h.finish hq
  | fail c => exact hon fun q hq => h.fail hq
  | cleanUp c => exact hon fun q hq => h.cleanUp hq
  | sweep input => exact h.sweep henabled hprotects
  | queue action => exact h.queue henabled
  | entry path target =>
      refine h.root_step (h.root.of_files fun p _ => ⟨?_, fun _ _ => rfl⟩)
      exact FileSystem.setEntry_entries_ne _ _ fun heq => henabled _ _ _ heq.symm

/-- The invariant of the runs whose sweeps spare the stage file of a call. -/
theorem tracked_of_reachable (h : (storageSystem limits codec).Reachable (Protects call) w) :
    WorldInv limits codec call w := by
  apply h.invariant
  · rintro s ⟨hqueue, hcalls⟩
    have hnone : ∀ {c p}, s.calls c ≠ some p := by
      intro c p hp
      rw [hcalls] at hp
      cases hp
    refine ⟨⟨fun _ _ hp => absurd hp hnone, fun _ _ _ _ hp => absurd hp hnone,
      fun _ _ _ _ hp => absurd hp hnone, fun _ _ _ _ hp => absurd hp hnone⟩, ?_, ?_⟩
    · rw [hqueue]
      exact ⟨counted_initial, fun f hf => absurd hf List.not_mem_nil,
        fun f hf => absurd hf List.not_mem_nil⟩
    · exact fun p hp => absurd (sparedCall_some.1 hp).1 hnone
  · rintro s a t hs hprotects ⟨henabled, rfl⟩
    exact hs.step henabled hprotects

end Steps

end WheelForge.Storage
