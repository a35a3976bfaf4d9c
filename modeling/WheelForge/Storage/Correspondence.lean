import WheelForge.Storage.DataSweep
import WheelForge.Storage.PublishedObjects

/-!
# Operations with two models

The sweep of the data root is modelled call by call where its budget matters, and step by step where
the files matter. A run of the calls that the files answer changes them by steps of the other model
(`DataSweep.sweepAbandoned_sweptTo`), so it removes files for the reasons of the steps
(`DataSweep.sweepAbandoned_removes`).

The metadata of a quarantine is a text where it is read and written, and the typed record that the
text holds elsewhere. Both are made, changed and refused together (`Holds.readable_iff`).
-/

set_option autoImplicit false

namespace WheelForge.Storage

open WheelForge.Interaction WheelForge.Maintenance WheelForge.Python

/-! ## The sweep of the data root -/

/-- The files are reached by steps of a sweep. -/
def SweptTo (codec : StorageCodec) (input : SweepInput) (files files' : FileSystem) : Prop :=
  ∃ steps, SweptFrom codec input files steps files'

section SweptTo

variable {codec : StorageCodec} {input : SweepInput} {files files' files'' : FileSystem}

theorem SweptTo.refl : SweptTo codec input files files := ⟨[], rfl⟩

theorem SweptTo.step (h : SweptTo codec input files files') (swept : Swept)
    (hbefore : swept.before = files') (hafter : swept.after codec input = files'') :
    SweptTo codec input files files'' := by
  obtain ⟨steps, hsteps⟩ := h
  exact ⟨steps ++ [swept], hsteps.append ⟨hbefore, hafter.symm⟩⟩

end SweptTo

namespace DataSweep

/-- How the files answer the calls of the sweep; the queue and the clocks are free. -/
def AnsweredBy (codec : StorageCodec) (input : SweepInput) (files : FileSystem) :
    (call : DataCall) → Except SweepError call.Answer → FileSystem → Prop
  | .recoverRecord body, answer, files' =>
      (answer = .ok (recoverRecord codec input files body).1 ∧
        files' = (recoverRecord codec input files body).2) ∨
      (answer.isOk = false ∧ files' = files)
  | .lstat .root name, answer, files' =>
      files' = files ∧ ∀ status : EntryStatus, answer = .ok status → status.regular = true →
        ∃ found, files.stat [name] = some found ∧ status.mtime = found.mtime
  | .unlink .root name, answer, files' =>
      (answer.isOk = true ∧ files' = files.unlink [name]) ∨ (answer.isOk = false ∧ files' = files)
  | _, _, files' => files' = files

/-- A call that leaves the files alone. -/
def DataCall.spares : DataCall → Bool
  | .recoverRecord _ | .unlink .root _ => false
  | _ => true

theorem AnsweredBy.files_eq {codec : StorageCodec} {input : SweepInput} {files files' : FileSystem}
    {call : DataCall} {answer : Except SweepError call.Answer}
    (h : AnsweredBy codec input files call answer files') (hspares : call.spares = true) :
    files' = files := by
  unfold AnsweredBy at h
  split at h
  · cases hspares
  · exact h.1
  · cases hspares
  · exact h

/-- Both inputs take the same stage files for abandoned. -/
structure SameStages (sweep : DataSweepInput) (input : SweepInput) : Prop where
  cutoff : sweep.cutoffTimestamp = input.cutoff
  active : sweep.activeExecutionIds = input.activeExecutionIds

section Files

variable {limits : QueueLimits} {codec : StorageCodec} {sweep : DataSweepInput}
  {input : SweepInput} {deadline : Int} {first : FileSystem} {stats : StorageSweepStats}
  {directory : ScannedDirectory} {name : Name}

/-- A program whose calls change the files by steps of a sweep. -/
abbrev KeepsSteps {α : Type} (codec : StorageCodec) (input : SweepInput) (first : FileSystem)
    (p : DataProgram α) : Prop :=
  Program.Keeps (AnsweredBy codec input) (SweptTo codec input first) p

theorem keeps_call {call : DataCall} (hspares : call.spares = true) :
    KeepsSteps codec input first (perform call) := by
  apply Program.keeps_op
  intro files answer files' hswept hanswer
  rw [hanswer.files_eq hspares]
  exact hswept

theorem keeps_onQueue {α : Type} (p : QueueProgram QueueBody α) :
    KeepsSteps codec input first (onQueue p) := by
  apply Program.Keeps.embed
  rintro files call answer files' hswept rfl
  exact hswept

theorem keeps_recoverRecord {body : QueueBody} :
    KeepsSteps codec input first (perform (.recoverRecord body)) := by
  apply Program.keeps_op
  rintro files answer files' hswept (⟨-, hfiles⟩ | ⟨-, rfl⟩)
  · exact hswept.step (.record files body) rfl hfiles.symm
  · exact hswept

/-- The removal of a stage file is the step for its entry. -/
theorem scanRootEntry_unlink (hsame : SameStages sweep input) {owner : Option Uuid}
    (hmatch : stageMatch name = some owner) {files : FileSystem} {found : FileStatus}
    (hfound : files.stat [name] = some found) (hold : found.mtime ≤ sweep.cutoffTimestamp)
    (hidle : ownerActive sweep owner = false) :
    Storage.scanRootEntry input files name = files.unlink [name] := by
  have hkeep : keepsStage input found owner = false := by
    have hactive : activeOwner input owner = ownerActive sweep owner := by
      cases owner <;> simp [activeOwner, ownerActive, hsame.active]
    unfold keepsStage
    rw [hactive, hidle, ← hsame.cutoff, Bool.or_false, decide_eq_false_iff_not]
    exact not_lt.2 hold
  unfold Storage.scanRootEntry
  rw [hmatch, hfound]
  exact if_neg (by simp [hkeep])

theorem scanStage_keeps (hsame : SameStages sweep input) {owner : Option Uuid}
    (hmatch : stageMatch name = some owner) :
    KeepsSteps codec input first (scanStage sweep name owner stats) := by
  intro files hswept
  unfold scanStage perform
  rw [Program.meets_bind, Program.meets_op]
  refine ⟨trivial, ?_⟩
  rintro (e | status) files' ⟨rfl, hstatus⟩
  · exact hswept
  dsimp only
  split
  · next hremove =>
      simp only [Bool.and_eq_true, Bool.not_eq_true', decide_eq_true_eq] at hremove
      obtain ⟨⟨hregular, hold⟩, hidle⟩ := hremove
      obtain ⟨found, hfound, hmtime⟩ := hstatus status rfl hregular
      -- nothing comes between the look at the entry and its removal
      rw [Program.meets_bind, Program.meets_op]
      refine ⟨trivial, ?_⟩
      rintro (e | answer) files'' hunlink
      · rcases hunlink with ⟨hok, -⟩ | ⟨-, rfl⟩
        · cases hok
        · exact hswept
      · rcases hunlink with ⟨-, rfl⟩ | ⟨hok, -⟩
        · have hentry := scanRootEntry_unlink hsame hmatch hfound (hmtime ▸ hold) hidle
          exact (Program.Keeps.bind (keeps_call rfl) fun _ => Program.keeps_pure) _
            (hswept.step (.entry files' name) rfl hentry)
        · cases hok
  · exact hswept

theorem dataBudgetAvailable_keeps :
    KeepsSteps codec input first (dataBudgetAvailable sweep deadline stats) :=
  Program.Keeps.bind (keeps_call rfl) fun _ => Program.keeps_pure

theorem nextItem_keeps {lane : Lane} :
    KeepsSteps codec input first (nextItem limits sweep lane stats) := by
  have hpeek : KeepsSteps codec input first (do
      let item ← onQueue (peek limits lane)
      return (item, if item.isSome then stats.scanned 1 else stats) :
        DataProgram (Option (QueueItem QueueBody) × StorageSweepStats)) :=
    Program.Keeps.bind (keeps_onQueue _) fun _ => Program.keeps_pure
  cases lane with
  | ready => exact hpeek
  | held => exact hpeek
  | deferred =>
      exact Program.Keeps.bind (keeps_call rfl) fun _ =>
        Program.Keeps.bind (keeps_onQueue _) fun _ => Program.keeps_pure

theorem settle_keeps {item : QueueItem QueueBody} {outcome : Outcome} :
    KeepsSteps codec input first (settle limits codec item outcome stats) := by
  cases outcome with
  | done => exact Program.Keeps.bind (keeps_onQueue _) fun _ => Program.keeps_pure
  | deferred =>
      exact Program.Keeps.bind (keeps_call rfl) fun _ =>
        Program.Keeps.bind (keeps_onQueue _) fun _ => Program.keeps_pure
  | held => exact Program.Keeps.bind (keeps_onQueue _) fun _ => Program.keeps_pure

theorem processDataQueueItem_keeps {item : QueueItem QueueBody} :
    KeepsSteps codec input first (processDataQueueItem limits codec item stats) :=
  Program.Keeps.bind keeps_recoverRecord fun _ =>
    Program.Keeps.bind settle_keeps fun _ => Program.keeps_pure

theorem sweepLane_keeps {lane : Lane} (n : Nat) :
    KeepsSteps codec input first (sweepLane limits codec sweep deadline lane n stats) := by
  -- induction on the number of records that the lane may still give
  induction n generalizing stats with
  | zero => exact Program.keeps_pure
  | succ n ih =>
      refine Program.Keeps.bind dataBudgetAvailable_keeps fun available => ?_
      split
      · refine Program.Keeps.bind nextItem_keeps fun found => ?_
        split
        · exact Program.keeps_pure
        · split
          · exact Program.keeps_pure
          · exact Program.Keeps.bind processDataQueueItem_keeps fun _ => ih
      · exact Program.keeps_pure

/-! ### The legacy scan -/

theorem quarantineMetadata_keeps :
    KeepsSteps codec input first (quarantineMetadata directory name) := by
  refine Program.Keeps.handle (keeps_call rfl) fun e => ?_
  split
  · exact Program.keeps_pure
  · exact Program.keeps_raise

theorem oldEnough_keeps {metadata : Option OwnedDelete.Metadata} :
    KeepsSteps codec input first (oldEnough sweep directory name metadata) := by
  unfold oldEnough
  split
  · exact Program.keeps_pure
  · exact Program.Keeps.bind (keeps_call rfl) fun _ => Program.keeps_pure

theorem indexLegacyQuarantine_keeps {quarantineId : Uuid}
    {metadata : Option OwnedDelete.Metadata} :
    KeepsSteps codec input first
      (indexLegacyQuarantine limits codec sweep directory name quarantineId metadata stats) := by
  have hstate : KeepsSteps codec input first (do
      perform (.setLegacyState directory name)
      perform (.fsyncQuarantine directory name)
      return stats.mutated 16 : DataProgram StorageSweepStats) :=
    Program.Keeps.bind (keeps_call rfl) fun _ =>
      Program.Keeps.bind (keeps_call rfl) fun _ => Program.keeps_pure
  unfold indexLegacyQuarantine
  split
  · exact Program.keeps_pure
  refine Program.Keeps.bind (keeps_call rfl) fun indexed => ?_
  split
  · exact Program.keeps_pure
  split
  · exact Program.keeps_pure
  refine Program.Keeps.bind (keeps_call rfl) fun fresh =>
    Program.Keeps.bind (keeps_onQueue _) fun _ => ?_
  split
  · exact Program.Keeps.bind (keeps_call rfl) fun _ => hstate
  · exact hstate

theorem scanQuarantine_keeps {quarantineId : Uuid} :
    KeepsSteps codec input first
      (scanQuarantine limits codec sweep directory name quarantineId stats) := by
  refine Program.Keeps.bind (keeps_call rfl) fun _ =>
    Program.Keeps.bind quarantineMetadata_keeps fun metadata =>
      Program.Keeps.bind oldEnough_keeps fun old => ?_
  split
  · refine Program.Keeps.bind (keeps_call rfl) fun empty => ?_
    split
    · exact Program.Keeps.bind (keeps_call rfl) fun _ =>
        Program.Keeps.bind (keeps_call rfl) fun _ => Program.keeps_pure
    · exact indexLegacyQuarantine_keeps
  · exact Program.keeps_pure

theorem scanRootEntry_keeps (hsame : SameStages sweep input) :
    KeepsSteps codec input first (scanRootEntry limits codec sweep name stats) := by
  unfold scanRootEntry
  split
  · next hmatch => exact scanStage_keeps hsame hmatch
  · exact scanQuarantine_keeps
  · exact Program.keeps_pure

theorem scanArtifactsEntry_keeps :
    KeepsSteps codec input first (scanArtifactsEntry limits codec sweep name stats) := by
  unfold scanArtifactsEntry
  split
  · exact scanQuarantine_keeps
  · exact Program.keeps_pure

section Listing

variable {body : Name → StorageSweepStats → DataProgram StorageSweepStats}

theorem scanEntries_keeps
    (hbody : ∀ name stats, KeepsSteps codec input first (body name stats)) (n : Nat) :
    KeepsSteps codec input first (scanEntries sweep deadline directory body n stats) := by
  -- induction on the number of entries that may still be scanned
  induction n generalizing stats with
  | zero => exact Program.keeps_pure
  | succ n ih =>
      refine Program.Keeps.bind (keeps_call rfl) fun entry => ?_
      split
      · exact Program.keeps_pure
      · refine Program.Keeps.bind dataBudgetAvailable_keeps fun available => ?_
        split
        · exact Program.Keeps.bind (hbody _ _) fun _ => ih
        · exact Program.keeps_pure

theorem scanDirectory_keeps
    (hbody : ∀ name stats, KeepsSteps codec input first (body name stats)) :
    KeepsSteps codec input first (scanDirectory sweep deadline directory body stats) :=
  Program.Keeps.bind (keeps_call rfl) fun _ => scanEntries_keeps hbody _

end Listing

theorem scanArtifacts_keeps :
    KeepsSteps codec input first (scanArtifacts limits codec sweep deadline stats) := by
  refine Program.Keeps.bind (.attempt (keeps_call rfl)) fun opened => ?_
  split
  · exact Program.Keeps.bind (scanDirectory_keeps fun _ _ => scanArtifactsEntry_keeps) fun _ =>
      Program.keeps_pure
  · exact Program.keeps_pure
  · exact Program.keeps_raise

theorem scanLegacyRootEntries_keeps (hsame : SameStages sweep input) :
    KeepsSteps codec input first (scanLegacyRootEntries limits codec sweep deadline stats) := by
  refine Program.Keeps.bind dataBudgetAvailable_keeps fun available => ?_
  split
  · refine Program.Keeps.bind
      (scanDirectory_keeps fun _ _ => scanRootEntry_keeps hsame) fun scan => ?_
    split
    · refine Program.Keeps.bind dataBudgetAvailable_keeps fun available => ?_
      split
      · exact scanArtifacts_keeps
      · exact Program.keeps_pure
    · exact Program.keeps_pure
  · exact Program.keeps_pure

theorem sweepAbandonedLocked_keeps (hsame : SameStages sweep input) :
    KeepsSteps codec input first (sweepAbandonedLocked limits codec sweep deadline) := by
  refine Program.Keeps.bind (keeps_onQueue _) fun initial => Program.Keeps.bind ?_ fun stats =>
    Program.Keeps.bind (scanLegacyRootEntries_keeps hsame) fun stats =>
      Program.Keeps.bind (keeps_onQueue _) fun counts => Program.keeps_pure
  refine Program.Keeps.bind (sweepLane_keeps _) fun stats => ?_
  split
  · exact Program.keeps_pure
  · exact sweepLane_keeps _

/-- However a sweep of the data root ends, it has changed the files by steps of a sweep. -/
theorem sweepAbandoned_sweptTo (hsame : SameStages sweep input) {files files' : FileSystem}
    {result : Except SweepError StorageSweepStats}
    (hrun : Program.Run (AnsweredBy codec input) (sweepAbandoned limits codec sweep) files result
      files') : SweptTo codec input files files' := by
  refine hrun.keeps ?_ SweptTo.refl
  refine Program.Keeps.bind (keeps_call rfl) fun start =>
    Program.Keeps.bind (keeps_call rfl) fun acquired => ?_
  split
  · exact sweepAbandonedLocked_keeps hsame
  · exact Program.Keeps.bind (keeps_onQueue _) fun _ => Program.keeps_pure

/-- Apart from the recovery of quarantines, a sweep of the data root removes a file in a step that has
a reason for it. -/
theorem sweepAbandoned_removes (hsame : SameStages sweep input) {files files' : FileSystem}
    {result : Except SweepError StorageSweepStats}
    (hrun : Program.Run (AnsweredBy codec input) (sweepAbandoned limits codec sweep) files result
      files') :
    ∃ steps, SweptFrom codec input files steps files' ∧ ∀ swept ∈ steps,
      swept.isQuarantine = false →
        RemovesFor (Reason input swept) swept.before (swept.after codec input) := by
  obtain ⟨steps, hsteps⟩ := sweepAbandoned_sweptTo hsame hrun
  exact ⟨steps, hsteps, fun swept _ hkind => swept.removes hkind⟩

end Files

end DataSweep

/-! ## The metadata of a quarantine -/

open OwnedDelete (Metadata DeleteInput)

/-- The microseconds up to 1970. -/
def epochInstant : Int := 719163 * 86400 * 1000000

/-- The naive time that is the given one. -/
def IsNaive (time : Datetime) (t : DateTime) : Prop :=
  time.offset = none ∧ time.localInstant = t + epochInstant

/-- A text holds the metadata. -/
structure Holds (m : Metadata) (text : QuarantineMetadata) : Prop where
  quarantineId : text.quarantineId = Str.ofString m.quarantineId
  objectKey : text.objectKey = Str.ofString m.objectKey
  originalName : text.originalName = Str.ofText m.originalName
  expectedSha256 : text.expectedSha256 = Str.ofString m.expectedSha256
  ownerExecutionId : text.ownerExecutionId = m.ownerExecutionId.map Str.ofString
  createdAt : IsNaive text.createdAt m.createdAt
  sourceDev : text.sourceDev.map PyInt.value = m.source.map fun s => (s.identity.1 : Int)
  sourceIno : text.sourceIno.map PyInt.value = m.source.map fun s => (s.identity.2 : Int)
  sourceSize : text.sourceSize.map PyInt.value = m.source.map fun s => (s.size : Int)
  sourceMtimeNs : text.sourceMtimeNs.map PyInt.value = m.source.map FileStatus.mtime
  outcome : text.outcome = m.outcome
  attemptCount : text.attemptCount.value = m.attemptCount

namespace Holds

variable {m : Metadata} {text : QuarantineMetadata}

/-- The metadata of a deletion is that of its text. -/
theorem deletion {input : DeleteInput} {name : Name} {now : DateTime} {after : FileStatus}
    {status : SourceStatus} {identifier} {time : Datetime}
    (hid : identifierText identifier = Str.ofString input.quarantineId)
    (htime : IsNaive time now)
    (hstatus : status.dev = after.identity.1 ∧ status.ino = after.identity.2 ∧
      status.size = after.size ∧ status.mtimeNs = after.mtime) :
    Holds (OwnedDelete.deletionMetadata input name now after)
      (deletionRecord (Str.ofString input.objectKey) (Str.ofText name)
        (Str.ofString input.expectedSha256) status identifier time) := by
  obtain ⟨hdev, hino, hsize, hmtime⟩ := hstatus
  have howner : artifactOwner (Str.ofString input.objectKey) =
      ((artifactMatch input.objectKey).bind Prod.snd).map Str.ofString := by
    unfold artifactOwner Str.ofString
    rw [toText?_ofText]
    dsimp only
    rw [String.ofList_toList]
  unfold OwnedDelete.deletionMetadata deletionRecord
  constructor <;> dsimp only
  case quarantineId => exact hid
  case ownerExecutionId => exact howner
  case createdAt => exact htime
  case sourceDev => simp [PyInt.value, hdev]
  case sourceIno => simp [PyInt.value, hino]
  case sourceSize => simp [PyInt.value, hsize]
  case sourceMtimeNs => simp [PyInt.value, hmtime]
  case attemptCount => rfl

theorem persisted (h : Holds m text) (outcome : QuarantineOutcome) :
    Holds (m.withOutcome outcome) (persistQuarantineOutcome text outcome) :=
  { h with
    outcome := rfl
    attemptCount := by
      show min (text.attemptCount.value + 1) 1000000 =
        ((min (m.attemptCount + 1) 1000000 : Nat) : Int)
      rw [h.attemptCount]
      omega }

/-- Metadata is readable if its text has no time before the epoch. -/
theorem sinceEpoch_iff (h : Holds m text) : SinceEpoch text ↔ m.readable = true := by
  have hmtime := h.sourceMtimeNs
  unfold SinceEpoch Metadata.readable
  cases hsource : m.source with
  | none =>
      rw [hsource, Option.map_none, Option.map_eq_none_iff] at hmtime
      simp [hmtime]
  | some status =>
      rw [hsource, Option.map_some, Option.map_eq_some_iff] at hmtime
      obtain ⟨n, hn, hvalue⟩ := hmtime
      simp [hn, hvalue]

/-- Metadata is readable exactly if its text, once written, is read back. -/
theorem readable_iff (h : Holds m text) (formats : ReaderFormats) {payload : Text}
    (hwritten : Written formats text) (hwrite : writeQuarantineMetadata text = .ok payload) :
    m.readable = true ↔
      readQuarantineMetadata formats (some payload) text.quarantineId = .ok (some text) := by
  rw [hwritten.wellFormed.read_iff formats hwrite]
  exact h.sinceEpoch_iff.symm

end Holds

end WheelForge.Storage
