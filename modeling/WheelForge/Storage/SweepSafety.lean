import WheelForge.Storage.OwnedRecord

/-!
# Sweeps spare protected stage files

A sweep that finds the stage file of a call young, or its owner active, does not touch the file and
keeps a record of the call (`sweep_tracked`), whatever else it removes, moves or leaves behind.
-/

set_option autoImplicit false

namespace WheelForge.Storage

open WheelForge.Maintenance

/-! ## Names -/

section Names

theorem stageNameOf_inj {owner owner' : Option Uuid} {token token' : Uuid}
    (h : uuidPattern token.toList = true) (h' : uuidPattern token'.toList = true)
    (heq : stageNameOf owner token = stageNameOf owner' token') : token = token' := by
  unfold stageNameOf at heq
  have hlength : token.toList.length = token'.toList.length := by
    rw [uuidPattern_length h, uuidPattern_length h']
  exact String.toList_inj.1 (List.append_inj_right' heq hlength)

/-- A generated artifact name is no stage name. -/
theorem zipPattern_ne_stage {name : Name} (h : zipPattern name = true) (owner : Option Uuid)
    (token : Uuid) : name ≠ stageNameOf owner token := by
  rintro rfl
  unfold zipPattern at h
  rw [Bool.and_eq_true] at h
  have hdot : '.' ∈ (stageNameOf owner token).take 36 := by
    unfold stageNameOf stagePrefix
    exact List.mem_cons_self
  rcases uuidPattern_char h.1 hdot with hdash | hhex
  · exact absurd hdash (by decide)
  · exact absurd hhex (by decide)

/-- The path of a generated artifact is no stage path. -/
theorem artifact_ne_stage {objectKey : String} {parts : Path} {artifact : Uuid × Option Uuid}
    (hparts : objectKeyParts objectKey = .ok parts) (h : artifactMatch objectKey = some artifact)
    (parent : Path) (owner : Option Uuid) (token : Uuid) :
    parts ≠ parent ++ [stageNameOf owner token] := by
  have hsplit : parts = objectKey.toList.splitOn '/' := by
    unfold objectKeyParts at hparts
    split at hparts
    · cases hparts
    · split at hparts
      · cases hparts
      · split at hparts <;> cases hparts
        rfl
  intro heq
  have hlast : (objectKey.toList.splitOn '/').getLast? = some (stageNameOf owner token) := by
    rw [← hsplit, heq, List.getLast?_concat]
  unfold artifactMatch at h
  split at h
  · next file hshape =>
    rw [hshape] at hlast
    split at h
    · next hcond =>
      rw [Bool.and_eq_true] at hcond
      exact zipPattern_ne_stage hcond.2 owner token (Option.some.inj hlast)
    · cases h
  · next file hshape =>
    rw [hshape] at hlast
    split at h
    · next hcond =>
      rw [Bool.and_eq_true] at hcond
      exact zipPattern_ne_stage hcond.2 owner token (Option.some.inj hlast)
    · cases h
  · cases h

end Names

/-! ## Well-formed calls and records -/

/-- A publication record as a call writes it, with or without the snapshot. -/
structure Genuine (codec : StorageCodec) (record : PublicationRecord) : Prop where
  token : codec.canonicalUuid record.stageOwnershipToken = some record.stageOwnershipToken
  owner : ∀ o, record.ownerExecutionId = some o → uuidPattern o.toList = true
  stage : ∃ parts, objectKeyParts record.objectKey = .ok parts ∧ record.stageObjectKey =
    joinParts (parts.dropLast ++ [stageNameOf record.ownerExecutionId record.stageOwnershipToken])

/-- The locals of a call as its first section leaves them. -/
structure WellFormed (codec : StorageCodec) (p : Publication) : Prop where
  parts : objectKeyParts p.objectKey = .ok p.parts
  owner : ∀ o, p.owner = some o → uuidPattern o.toList = true
  stage : codec.canonicalUuid p.stageIdentifier = some p.stageIdentifier
  record : codec.canonicalUuid p.intent.record.recordId = some p.intent.record.recordId
  intent : p.inProgress = true → p.intent.location.lane = .ready ∧
    p.intent.record.generation = 0 ∧ ∃ now, p.intent.record.body =
      .publication (intentRecord p.objectKey p.parts p.owner p.stageIdentifier now)

section Stages

variable {codec : StorageCodec} {p : Publication} {record : PublicationRecord} {parts : Path}

theorem stageParts_ok {owner : Option Uuid} {token : Uuid}
    (howner : ∀ o, owner = some o → uuidPattern o.toList = true)
    (htoken : uuidPattern token.toList = true) {objectKey : String}
    (hparts : objectKeyParts objectKey = .ok parts) :
    objectKeyParts (joinParts (parts.dropLast ++ [stageNameOf owner token])) =
      .ok (parts.dropLast ++ [stageNameOf owner token]) := by
  apply objectKeyParts_joinParts (by simp)
  intro part hpart
  rcases List.mem_append.1 hpart with hdrop | hstage
  · exact (objectKeyParts_safe hparts).2 part (List.dropLast_subset _ hdrop)
  · rw [List.mem_singleton.1 hstage]
    exact safePart_stageNameOf howner htoken

/-- The paths of a record. -/
theorem Genuine.paths (h : Genuine codec record) : ∃ parts,
    objectKeyParts record.objectKey = .ok parts ∧
    objectKeyParts record.stageObjectKey = .ok (parts.dropLast ++
      [stageNameOf record.ownerExecutionId record.stageOwnershipToken]) := by
  obtain ⟨parts, hparts, hstage⟩ := h.stage
  refine ⟨parts, hparts, ?_⟩
  rw [hstage]
  exact stageParts_ok h.owner (codec.uuid_pattern h.token) hparts

/-- Records with another token have another stage path. -/
theorem WellFormed.stagePath_ne (hp : WellFormed codec p) (h : Genuine codec record)
    (hne : record.stageOwnershipToken ≠ p.stageIdentifier) (parent : Path) :
    p.stagePath ≠ parent ++ [stageNameOf record.ownerExecutionId record.stageOwnershipToken] := by
  intro heq
  have hname := List.append_inj_right' heq rfl
  exact hne (stageNameOf_inj (codec.uuid_pattern h.token) (codec.uuid_pattern hp.stage)
    (List.singleton_inj.1 hname).symm)

theorem WellFormed.genuine (hp : WellFormed codec p) (now : DateTime) :
    Genuine codec (intentRecord p.objectKey p.parts p.owner p.stageIdentifier now) :=
  ⟨hp.stage, hp.owner, p.parts, hp.parts, rfl⟩

end Stages

/-! ## Files that a sweep spares -/

/-- A path names the same inode as before, and no inode changed. -/
structure KeepsPath (path : Path) (files files' : FileSystem) : Prop where
  inodes : files'.inodes = files.inodes
  entry : files'.entries path = files.entries path

section Files

variable {codec : StorageCodec} {sweep : SweepInput} {files files' : FileSystem} {path : Path}
  {p : Publication}

theorem KeepsPath.refl (path : Path) (files : FileSystem) : KeepsPath path files files := ⟨rfl, rfl⟩

theorem KeepsPath.trans {files'' : FileSystem} (h : KeepsPath path files files')
    (h' : KeepsPath path files' files'') : KeepsPath path files files'' :=
  ⟨h'.inodes.trans h.inodes, h'.entry.trans h.entry⟩

theorem KeepsPath.unlink {other : Path} (hne : path ≠ other) :
    KeepsPath path files (files.unlink other) :=
  ⟨rfl, FileSystem.setEntry_entries_ne files none hne⟩

theorem KeepsPath.fstat (h : KeepsPath path files files') (identity : FileId) :
    files'.fstat identity = files.fstat identity := by
  unfold FileSystem.fstat
  rw [h.inodes]

/-- The recovery of an identified record unlinks its stage path and the path of an artifact. -/
theorem recoverIdentified_keeps {objectKey : String} {parts stageParts : Path}
    (hstage : path ≠ stageParts) (hparts : ∀ artifact, artifactMatch objectKey = some artifact →
      path ≠ parts) (stageOwner : Option Uuid) (source : SourceIdentity) :
    KeepsPath path files
      (recoverIdentified sweep files objectKey parts stageParts stageOwner source).2 := by
  unfold recoverIdentified
  split
  · next canonical _ =>
    split
    · split
      · exact .unlink hstage
      · split <;> exact .refl path files
    · split
      · exact .refl path files
      · have hreleased : KeepsPath path files (if isOwned source (files.stat stageParts) then
            files.unlink stageParts else files) := by
          split
          · exact .unlink hstage
          · exact .refl path files
        dsimp only
        generalize (if isOwned source (files.stat stageParts) then
            files.unlink stageParts else files) = released at hreleased ⊢
        cases hartifact : artifactMatch objectKey with
        | none => exact hreleased
        | some artifact =>
            dsimp only
            split
            · exact .refl path files
            · exact hreleased.trans (.unlink (hparts _ hartifact))
  · exact .refl path files
  · split
    · exact .refl path files
    · split
      · exact .refl path files
      · exact .unlink hstage

/-- The recovery of a publication spares the stage files of other calls. -/
theorem recoverPublication_keeps (hp : WellFormed codec p) {record : PublicationRecord}
    (h : Genuine codec record) (hne : record.stageOwnershipToken ≠ p.stageIdentifier) :
    KeepsPath p.stagePath files (recoverPublication codec sweep files record).2 := by
  obtain ⟨parts, hparts, hstageParts⟩ := h.paths
  have hstage := hp.stagePath_ne h hne parts.dropLast
  have hcanonical : ∀ artifact, artifactMatch record.objectKey = some artifact →
      p.stagePath ≠ parts :=
    fun artifact hartifact heq => artifact_ne_stage hparts hartifact p.parts.dropLast p.owner
      p.stageIdentifier heq.symm
  unfold recoverPublication
  rw [hparts, hstageParts]
  dsimp only
  split
  · exact .refl _ files
  · split
    · exact .refl _ files
    · split
      · exact .refl _ files
      · exact recoverIdentified_keeps hstage hcanonical _ _
      · exact .refl _ files
      · split
        · exact .refl _ files
        · split
          · exact .refl _ files
          · exact .unlink hstage

/-- The stage file of a call has the call's content and marker. -/
structure Staged (files : FileSystem) (p : Publication) (identity : FileId) : Prop where
  descriptor : p.descriptor = some identity
  entry : files.entries p.stagePath = some identity
  content : (files.inodes identity).content = p.written
  marker : (files.inodes identity).marker = some p.stageIdentifier

theorem Staged.keeps {identity : FileId} (h : Staged files p identity)
    (hkeeps : KeepsPath p.stagePath files files') : Staged files' p identity where
  descriptor := h.descriptor
  entry := hkeeps.entry.trans h.entry
  content := by
    rw [hkeeps.inodes]
    exact h.content
  marker := by
    rw [hkeeps.inodes]
    exact h.marker

theorem Staged.stat {identity : FileId} (h : Staged files p identity) :
    files.stat p.stagePath = some (files.fstat identity) := by
  unfold FileSystem.stat
  rw [h.entry]
  rfl

/-- A sweep finds the stage file of a call young, or the owner active. -/
def Protected (sweep : SweepInput) (files : FileSystem) (p : Publication) : Prop :=
  ∀ identity, p.descriptor = some identity → keepsStage sweep (files.fstat identity) p.owner = true

theorem Protected.keeps (h : Protected sweep files p)
    (hkeeps : KeepsPath p.stagePath files files') : Protected sweep files' p := by
  intro identity hid
  rw [hkeeps.fstat]
  exact h identity hid

/-- The recovery of a file spares protected stage files. -/
theorem recoverFile_keeps (hp : WellFormed codec p) {identity : FileId}
    (hstaged : Staged files p identity) (hprotected : Protected sweep files p) (kind : FileKind)
    (objectKey : String) : KeepsPath p.stagePath files (recoverFile sweep files kind objectKey).2 := by
  unfold recoverFile
  split
  · exact .refl _ files
  · next parts hparts =>
    split
    · exact .refl _ files
    · next status hstatus =>
      split
      · exact .refl _ files
      · next hold =>
        cases kind with
        | stage =>
            dsimp only
            split
            · exact .refl _ files
            · next owner hmatch =>
              split
              · exact .refl _ files
              · next hinactive =>
                refine .unlink ?_
                rintro rfl
                -- the stage file itself is too young, or its owner is active
                have hname : p.stagePath.getLast?.getD [] = p.stageName := by
                  unfold Publication.stagePath
                  rw [List.getLast?_concat, Option.getD_some]
                rw [hname] at hmatch
                unfold Publication.stageName at hmatch
                rw [stageMatch_stageNameOf hp.owner (codec.uuid_pattern hp.stage)] at hmatch
                obtain rfl := Option.some.inj hmatch
                rw [hstaged.stat] at hstatus
                obtain rfl := Option.some.inj hstatus
                have hkeeps := hprotected identity hstaged.descriptor
                unfold keepsStage at hkeeps
                rw [Bool.or_eq_true, decide_eq_true_eq] at hkeeps
                rcases hkeeps with hyoung | hactive
                · exact hold hyoung
                · exact hinactive hactive
        | artifact =>
            dsimp only
            split
            · exact .refl _ files
            · next artifact hartifact =>
              split
              · exact .refl _ files
              · refine .unlink fun heq => ?_
                exact artifact_ne_stage hparts hartifact p.parts.dropLast p.owner p.stageIdentifier
                  heq.symm

theorem scanRootEntry_keeps (hp : WellFormed codec p) {identity : FileId}
    (hstaged : Staged files p identity) (hprotected : Protected sweep files p) (name : Name) :
    KeepsPath p.stagePath files
      (match stageMatch name, files.stat [name] with
        | some owner, some status =>
            if keepsStage sweep status owner then files else files.unlink [name]
        | _, _ => files) := by
  split
  · next owner status hmatch hstatus =>
    split
    · exact .refl _ files
    · next hremoved =>
      refine .unlink fun heq => hremoved ?_
      have hname : name = p.stageName := by
        have hlast := congrArg List.getLast? heq
        unfold Publication.stagePath at hlast
        rw [List.getLast?_concat] at hlast
        exact (Option.some.inj hlast).symm
      rw [← heq, hstaged.stat] at hstatus
      obtain rfl := Option.some.inj hstatus
      rw [hname] at hmatch
      unfold Publication.stageName at hmatch
      rw [stageMatch_stageNameOf hp.owner (codec.uuid_pattern hp.stage)] at hmatch
      obtain rfl := Option.some.inj hmatch
      exact hprotected identity hstaged.descriptor
  · exact .refl _ files

/-- The scan of the root spares protected stage files. -/
theorem scanRootEntries_keeps (hp : WellFormed codec p) {identity : FileId}
    (hstaged : Staged files p identity) (hprotected : Protected sweep files p)
    (names : List Name) : KeepsPath p.stagePath files (scanRootEntries sweep files names) := by
  induction names generalizing files with
  | nil => exact .refl _ files
  | cons name names ih =>
      unfold scanRootEntries
      have hfirst := scanRootEntry_keeps hp hstaged hprotected name
      exact hfirst.trans (ih (hstaged.keeps hfirst) (hprotected.keeps hfirst))

/-- The recovery of the record of a protected call defers or holds it and changes no file. -/
theorem recoverPublication_own (hp : WellFormed codec p) {identity : FileId}
    (hstaged : Staged files p identity) (hprotected : Protected sweep files p) (now : DateTime) :
    let record := intentRecord p.objectKey p.parts p.owner p.stageIdentifier now
    recoverPublication codec sweep files record = (.deferred, files) ∨
      recoverPublication codec sweep files record = (.held, files) := by
  intro record
  have hstageParts : objectKeyParts record.stageObjectKey = .ok p.stagePath :=
    stageParts_ok hp.owner (codec.uuid_pattern hp.stage) hp.parts
  have hmarker : publicationMarkerMatches codec files p.stagePath p.stageIdentifier = true := by
    unfold publicationMarkerMatches
    rw [hstaged.entry]
    simp [hp.stage, hstaged.marker]
  have hname : p.stagePath.getLast?.getD [] = p.stageName := by
    unfold Publication.stagePath
    rw [List.getLast?_concat, Option.getD_some]
  have hdrop : p.parts.dropLast = p.stagePath.dropLast := by
    unfold Publication.stagePath
    rw [List.dropLast_concat]
  have hmatch : stageMatch p.stageName = some p.owner :=
    stageMatch_stageNameOf hp.owner (codec.uuid_pattern hp.stage)
  unfold recoverPublication
  rw [show objectKeyParts record.objectKey = .ok p.parts from hp.parts, hstageParts]
  dsimp only
  rw [if_neg (not_not.2 hdrop), hname, hmatch]
  dsimp only
  rw [hstaged.stat]
  cases hcanonical : files.stat p.parts with
  | some status => exact Or.inr rfl
  | none =>
      left
      show (if (!publicationMarkerMatches codec files p.stagePath p.stageIdentifier) = true then _
        else _) = _
      rw [hmarker]
      simp [hprotected identity hstaged.descriptor]

end Files

/-! ## Safe roots -/

/-- The queue of the root is exact, and its publication records are those of calls. -/
structure Safe (limits : QueueLimits) (codec : StorageCodec) (d : QueueDir QueueBody) : Prop where
  counted : Counted limits d
  canonical : CanonicalIds codec.toQueueCodec d
  genuine : ∀ f ∈ d.slots, ∀ record, f.record.body = .publication record → Genuine codec record

/-- An operation that writes publication records of calls only. -/
def WritesGenuine (codec : StorageCodec) : QueueAction QueueBody → Prop
  | .enqueue _ input _ _ _ => ∀ record, input.body = .publication record → Genuine codec record
  | .move item _ body =>
      ∀ record, body.getD item.record.body = .publication record → Genuine codec record
  | _ => True

section Roots

variable {limits : QueueLimits} {codec : StorageCodec} {d t : QueueDir QueueBody}
  {p : Publication} {f : SlotFile QueueBody}

theorem enqueue_genuine {lane : Lane} {input : RecordInput QueueBody} {fresh : Uuid}
    {deduplicate deduplicateGeneration : Bool} {x : Except QueueError (QueueItem QueueBody)}
    (h : EnqueueResult limits codec.toQueueCodec d lane input fresh deduplicate
      deduplicateGeneration t x)
    (hd : ∀ f ∈ d.slots, ∀ record, f.record.body = .publication record → Genuine codec record)
    (hinput : ∀ record, input.body = .publication record → Genuine codec record) :
    ∀ f ∈ t.slots, ∀ record, f.record.body = .publication record → Genuine codec record := by
  rcases h.slots_or_linked with hslots | ⟨record, size, cursor, hp, -, -, -, ht⟩
  · rw [hslots]
    exact hd
  · intro f hf record' hbody
    rcases (mem_linked ht).1 hf with hold | rfl
    · exact hd f hold record' hbody
    · dsimp only at hbody
      rw [(prepareRecord_ok hp).2.2] at hbody
      exact hinput record' hbody

/-- Safety is kept by every operation that writes genuine records. -/
theorem Safe.effect {a : QueueAction QueueBody} (hd : Safe limits codec d)
    (h : QueueEffect limits codec.toQueueCodec d a t) (ha : WritesGenuine codec a) :
    Safe limits codec t := by
  refine ⟨h.counted hd.counted, h.canonicalIds hd.canonical, ?_⟩
  have hsub : ∀ {u : QueueDir QueueBody}, (∀ f ∈ u.slots, f ∈ d.slots) →
      ∀ f ∈ u.slots, ∀ record, f.record.body = .publication record → Genuine codec record :=
    fun hu f hf => hd.genuine f (hu f hf)
  cases h with
  | enqueue h => exact enqueue_genuine h hd.genuine ha
  | complete h => exact hsub fun _ => h.subset
  | move h =>
      cases h with
      | failed h => exact enqueue_genuine h hd.genuine ha
      | unreleased h hc =>
          exact fun f hf => enqueue_genuine h hd.genuine ha f (hc.subset hf)
      | moved h hc => exact fun f hf => enqueue_genuine h hd.genuine ha f (hc.subset hf)
  | peek => exact hd.genuine
  | peekDue h =>
      rcases h with rfl | ht
      · exact hd.genuine
      · exact hsub fun f hf => ht.slots.subset hf
  | reconcile ht => exact hsub fun f hf => ht.slots.subset hf

/-- A live record of another id is apart from a call. -/
theorem Owned.apart_of_mem {g : SlotFile QueueBody} (ho : Owned d p f) (hg : g ∈ d.slots)
    (hne : g ≠ f) : p.intent.record.recordId ≠ g.record.recordId ∧
      ¬ Describes p g.record.body := by
  constructor
  · intro hid
    exact hne (ho.sole g hg (Or.inl hid.symm))
  · intro hdescribes
    exact hne (ho.sole g hg (Or.inr hdescribes))

end Roots

/-! ## Sections -/

/-- A section that ends as `Q` says, or is left by an exception where `I` holds. -/
def Ends {α : Type} (I : DataRoot → Prop) (x : Gated α) (root : DataRoot)
    (Q : α → DataRoot → Prop) : Prop :=
  match x root with
  | .ok a root' => Q a root'
  | .error _ root' => I root'

section Sections

variable {α γ : Type} {I : DataRoot → Prop} {x : Gated α} {f : α → Gated γ} {root : DataRoot}
  {Q : α → DataRoot → Prop} {R : γ → DataRoot → Prop}

theorem Ends.bind (h : Ends I x root Q) (hf : ∀ a r, Q a r → Ends I (f a) r R) :
    Ends I (x >>= f) root R := by
  unfold Ends at h ⊢
  show match EStateM.bind x f root with
    | .ok a root' => R a root'
    | .error _ root' => I root'
  unfold EStateM.bind
  cases hx : x root with
  | error e r =>
      rw [hx] at h
      exact h
  | ok a r =>
      rw [hx] at h
      exact hf a r h

theorem Ends.rootAfter (h : Ends I x root fun _ => I) : I (rootAfter x root) := by
  unfold Ends at h
  unfold Storage.rootAfter
  cases hx : x root with
  | error e r =>
      rw [hx] at h
      exact h
  | ok a r =>
      rw [hx] at h
      exact h

theorem ends_get {Q : DataRoot → DataRoot → Prop} (h : Q root root) :
    Ends I (get : Gated DataRoot) root Q := h

theorem ends_setFiles {files : FileSystem} {Q : Unit → DataRoot → Prop}
    (h : Q () { root with files := files }) : Ends I (setFiles files) root Q := h

theorem ends_onQueue {p : QueueProgram QueueBody α} {y : Except QueueError α}
    {t : QueueDir QueueBody} (hrun : run p root.queue = (y, t))
    (hok : ∀ a, y = .ok a → Q a { root with queue := t })
    (herror : ∀ e, y = .error e → I { root with queue := t }) :
    Ends I (onQueue p) root Q := by
  unfold Ends onQueue
  rw [hrun]
  cases y with
  | ok a => exact hok a rfl
  | error e => exact herror e rfl

end Sections

/-! ## A sweep -/

/-- The stage file and the record of a call in progress. -/
structure Tracked (root : DataRoot) (p : Publication) : Prop where
  staged : ∃ identity, Staged root.files p identity
  owned : ∃ f, Owned root.queue p f

/-- A call in progress has its stage file, its record and, from the end of the copy on, the status
of the stage file. -/
structure Current (root : DataRoot) (p : Publication) : Prop extends Tracked root p where
  status : ∀ status, p.phase = .copied status →
    p.descriptor = some status.identity ∧ root.files.fstat status.identity = status

section Keeping

variable {root : DataRoot} {files : FileSystem} {t : QueueDir QueueBody} {p : Publication}

/-- Files that keep the stage file of a call. -/
structure KeepsStaged (files files' : FileSystem) (p : Publication) : Prop where
  entry : files'.entries p.stagePath = files.entries p.stagePath
  inode : ∀ identity, p.descriptor = some identity →
    files'.inodes identity = files.inodes identity

theorem KeepsPath.staged {files' : FileSystem} (h : KeepsPath p.stagePath files files') :
    KeepsStaged files files' p :=
  ⟨h.entry, fun identity _ => by rw [h.inodes]⟩

theorem Current.keeps (h : Current root p) (hfiles : KeepsStaged root.files files p)
    (howned : ∀ f, Owned root.queue p f → ∃ g, Owned t p g) : Current ⟨t, files⟩ p where
  staged := by
    obtain ⟨identity, hstaged⟩ := h.staged
    have hinode := hfiles.inode identity hstaged.descriptor
    refine ⟨identity, hstaged.descriptor, hfiles.entry.trans hstaged.entry, ?_, ?_⟩
    · show (files.inodes identity).content = _
      rw [hinode]
      exact hstaged.content
    · show (files.inodes identity).marker = _
      rw [hinode]
      exact hstaged.marker
  owned := by
    obtain ⟨f, hf⟩ := h.owned
    exact howned f hf
  status := by
    intro status hphase
    obtain ⟨hdescriptor, hstatus⟩ := h.status status hphase
    refine ⟨hdescriptor, Eq.trans ?_ hstatus⟩
    unfold FileSystem.fstat
    rw [hfiles.inode _ hdescriptor]

end Keeping

/-- What a sweep keeps: a safe queue, and what belongs to the call that it is to spare, if any. -/
structure Spared (limits : QueueLimits) (codec : StorageCodec) (sweep : SweepInput)
    (spared : Option Publication) (root : DataRoot) : Prop where
  safe : Safe limits codec root.queue
  tracked : ∀ p, spared = some p → WellFormed codec p ∧ p.inProgress = true ∧ Current root p ∧
    Protected sweep root.files p

section Sweeping

variable {limits : QueueLimits} {codec : StorageCodec} {sweep : SweepInput}
  {spared : Option Publication} {root : DataRoot}

/-- What a sweep does with the files of a record, beside the call that it spares. -/
theorem recoverRecord_keeps (hsweep : ∀ body files, KeepsStages files
    (sweep.recoverQuarantine body files).2) (h : Spared limits codec sweep spared root)
    {f : SlotFile QueueBody} (hf : f ∈ root.queue.slots) {p : Publication} (hp : spared = some p) :
    KeepsPath p.stagePath root.files (recoverRecord codec sweep root.files f.record.body).2 ∧
      (p.intent.record.recordId = f.record.recordId ∨ Describes p f.record.body →
        (recoverRecord codec sweep root.files f.record.body).1 ≠ .done) := by
  obtain ⟨hwell, hprogress, ⟨⟨⟨identity, hstaged⟩, g, howned⟩, -⟩, hprotected⟩ := h.tracked p hp
  by_cases hsame : f = g
  · -- the call's own record
    subst hsame
    obtain ⟨now, hbody⟩ := (hwell.intent hprogress).2.2
    have hown := recoverPublication_own hwell hstaged hprotected now
    have hrecover : recoverRecord codec sweep root.files f.record.body =
        recoverPublication codec sweep root.files
          (intentRecord p.objectKey p.parts p.owner p.stageIdentifier now) := by
      rw [howned.body, hbody]
      rfl
    rw [hrecover]
    rcases hown with hown | hown <;> rw [hown]
    · exact ⟨.refl _ _, fun _ => nofun⟩
    · exact ⟨.refl _ _, fun _ => nofun⟩
  · obtain ⟨hid, hdescribes⟩ := howned.apart_of_mem hf hsame
    refine ⟨?_, fun hcase => ?_⟩
    · cases hbody : f.record.body with
      | publication record =>
          have hgenuine := h.safe.genuine f hf record hbody
          refine recoverPublication_keeps hwell hgenuine fun htoken => hdescribes ?_
          rw [hbody]
          exact ⟨record, rfl, htoken⟩
      | file kind objectKey => exact recoverFile_keeps hwell hstaged hprotected kind objectKey
      | quarantine objectKey quarantineId next =>
          obtain ⟨hinodes, hentries⟩ := hsweep (.quarantine objectKey quarantineId next) root.files
          exact ⟨hinodes, hentries _ _ _⟩
      | unknown => exact .refl _ _
    · rcases hcase with hcase | hcase
      · exact absurd hcase hid
      · exact absurd hcase hdescribes

/-- A queue operation of a sweep on another record than that of the spared call. -/
theorem Spared.effect {a : QueueAction QueueBody} {t : QueueDir QueueBody} {files : FileSystem}
    (h : Spared limits codec sweep spared root)
    (heffect : QueueEffect limits codec.toQueueCodec root.queue a t) (ha : WritesGenuine codec a)
    (hfiles : ∀ p, spared = some p → KeepsPath p.stagePath root.files files)
    (howned : ∀ p f, spared = some p → Owned root.queue p f → ∃ g, Owned t p g) :
    Spared limits codec sweep spared ⟨t, files⟩ where
  safe := h.safe.effect heffect ha
  tracked := by
    intro p hp
    obtain ⟨hwell, hprogress, hcurrent, hprotected⟩ := h.tracked p hp
    exact ⟨hwell, hprogress, hcurrent.keeps (hfiles p hp).staged fun f hf => howned p f hp hf,
      hprotected.keeps (hfiles p hp)⟩

/-- One record of a sweep. -/
theorem processItem_ends (hsweep : ∀ body files, KeepsStages files
    (sweep.recoverQuarantine body files).2) (h : Spared limits codec sweep spared root)
    {f : SlotFile QueueBody} (hf : f ∈ root.queue.slots) :
    Ends (Spared limits codec sweep spared) (processItem limits codec sweep f.item) root
      fun _ => Spared limits codec sweep spared := by
  have hkeeps := fun p hp => recoverRecord_keeps hsweep h hf (p := p) hp
  have hbody : f.item.record.body = f.record.body := rfl
  unfold processItem
  refine Ends.bind (ends_get (Q := fun r r' => r = root ∧ r' = root) ⟨rfl, rfl⟩) ?_
  rintro _ current ⟨rfl, rfl⟩
  rw [hbody]
  generalize recoverRecord codec sweep _ f.record.body = recovered at hkeeps
  obtain ⟨outcome, files⟩ := recovered
  refine Ends.bind (ends_setFiles (Q := fun _ r' => r' = { current with files := files }) rfl) ?_
  rintro _ _ rfl
  have hcanon := h.safe.canonical f hf
  -- the record that a move writes is genuine, and a call's own record is moved on
  have hmove : ∀ (destination : Lane) (body : Option QueueBody), destination ≠ .ready →
      (∀ record, body.getD f.record.body = .publication record → f.record.body =
        .publication record) →
      (∀ record, f.record.body = .publication record → body.getD f.record.body =
        f.record.body) →
      Ends (Spared limits codec sweep spared) (do
          let _ ← onQueue (queueMove limits codec.toQueueCodec f.item destination body)
          pure ()) { current with files := files } fun _ => Spared limits codec sweep spared := by
    intro destination body hlane hwrites hsame
    obtain ⟨t, x, hrun, ht⟩ :=
      move_spec h.safe.counted codec.toQueueCodec f.item destination body
    have hspared : Spared limits codec sweep spared ⟨t, files⟩ := by
      refine h.effect (.move ht) ?_ (fun p hp => (hkeeps p hp).1) ?_
      · exact fun record hrecord => h.safe.genuine f hf record (hwrites record hrecord)
      · intro p g hp hg
        by_cases hown : f = g
        · subst hown
          obtain ⟨hwell, hprogress, -⟩ := h.tracked p hp
          obtain ⟨now, hintent⟩ := (hwell.intent hprogress).2.2
          exact hg.move_self h.safe.counted hcanon hlane (hsame _ (hg.body.trans hintent)) ht
        · obtain ⟨hid, hdescribes⟩ := hg.apart_of_mem hf hown
          refine ⟨g, hg.effect (.move ht) ⟨hid, ?_, ?_⟩⟩
          · intro id hsome
            have := Option.some.inj (hsome.symm.trans hcanon)
            rw [this]
            exact hid
          · rintro ⟨record, hrecord, htoken⟩
            exact hdescribes ⟨record, hwrites record hrecord, htoken⟩
    refine Ends.bind (Q := fun _ => Spared limits codec sweep spared) ?_ fun _ r hr => hr
    exact ends_onQueue hrun (fun _ _ => hspared) fun _ _ => hspared
  cases outcome with
  | done =>
      obtain ⟨t, x, hatomic, ht⟩ := complete_spec h.safe.counted f.item
      have hspared : Spared limits codec sweep spared ⟨t, files⟩ := by
        refine h.effect (.complete ht) trivial (fun p hp => (hkeeps p hp).1) ?_
        intro p g hp hg
        refine ⟨g, hg.complete ht ?_⟩
        exact fun hid => (hkeeps p hp).2 (Or.inl hid) rfl
      exact ends_onQueue hatomic.run (fun _ _ => hspared) fun _ _ => hspared
  | deferred =>
      apply hmove .deferred _ nofun
      · intro record hrecord
        cases hrec : f.record.body with
        | publication r =>
            rw [hrec] at hrecord
            exact hrecord
        | file kind key =>
            rw [hrec] at hrecord
            cases hrecord
        | quarantine key id next =>
            rw [hrec] at hrecord
            cases hrecord
        | unknown =>
            rw [hrec] at hrecord
            cases hrecord
      · intro record hrecord
        rw [hrecord]
        rfl
  | held => exact hmove .held none nofun (fun _ h => h) fun _ _ => rfl

/-- The next record of a lane is that of a slot file. -/
theorem nextItem_ends (h : Spared limits codec sweep spared root) (lane : Lane)
    (stats : SweepStats) :
    Ends (Spared limits codec sweep spared) (nextItem limits sweep lane stats) root
      fun next r => Spared limits codec sweep spared r ∧
        ∀ item, next.1 = some item → ∃ f ∈ r.queue.slots, f.item = item := by
  have hpeek : ∀ lane, Ends (Spared limits codec sweep spared) (onQueue (peek limits lane)) root
      fun next r => Spared limits codec sweep spared r ∧
        ∀ item, next = some item → ∃ f ∈ r.queue.slots, f.item = item := by
    intro lane
    refine ends_onQueue (peek_spec h.safe.counted lane).run ?_ nofun
    rintro next ⟨rfl⟩
    refine ⟨h, fun item hitem => ?_⟩
    obtain ⟨f, hf, rfl⟩ := Option.map_eq_some_iff.1 hitem
    exact ⟨f, findItem_eq_some h.safe.counted.toPlaced hf, rfl⟩
  cases lane with
  | deferred =>
      obtain ⟨t, x, hatomic, ht⟩ := peekDue_spec h.safe.counted .deferred (recordIsDue sweep.now)
        (sweep.budget.maxEntries - stats.entriesScanned)
      have hspared : Spared limits codec sweep spared { root with queue := t } := by
        refine h.effect (a := .peekDue .deferred (recordIsDue sweep.now) 0) (.peekDue ht.dir)
          trivial (fun p _ => .refl _ _) ?_
        intro p g _ hg
        rcases ht.dir with rfl | ht
        · exact ⟨g, hg⟩
        · exact ⟨g, hg.reconciled ht⟩
      refine Ends.bind (Q := fun (next : Option (QueueItem QueueBody) × Nat) r =>
        Spared limits codec sweep spared r ∧
          ∀ item, next.1 = some item → ∃ f ∈ r.queue.slots, f.item = item) ?_ ?_
      · refine ends_onQueue hatomic.run ?_ fun _ _ => hspared
        rintro next rfl
        refine ⟨hspared, fun item hitem => ?_⟩
        cases ht with
        | none n => cases hitem
        | reconciled _ n => cases hitem
        | item hfile n =>
            cases hitem
            exact ⟨_, hfile, rfl⟩
      · rintro ⟨item, inspected⟩ r hr
        exact hr
  | ready => exact Ends.bind (hpeek .ready) fun _ r hr => hr
  | held => exact Ends.bind (hpeek .held) fun _ r hr => hr

/-- The loop over a lane. -/
theorem sweepLane_ends (hsweep : ∀ body files, KeepsStages files
    (sweep.recoverQuarantine body files).2) (lane : Lane) {n : Nat} {stats : SweepStats}
    (h : Spared limits codec sweep spared root) :
    Ends (Spared limits codec sweep spared) (sweepLane limits codec sweep lane n stats) root
      fun _ => Spared limits codec sweep spared := by
  induction n generalizing root stats with
  | zero => exact h
  | succ n ih =>
      unfold sweepLane
      split
      · exact h
      · refine Ends.bind (nextItem_ends h lane stats) ?_
        rintro ⟨item, stats⟩ r ⟨hr, hitem⟩
        cases item with
        | none => exact hr
        | some item =>
            obtain ⟨f, hf, rfl⟩ := hitem item rfl
            dsimp only
            split
            · exact hr
            · exact Ends.bind (processItem_ends hsweep hr hf) fun _ r' hr' => ih hr'

/-- The loop over the lanes. -/
theorem sweepLanes_ends (hsweep : ∀ body files, KeepsStages files
    (sweep.recoverQuarantine body files).2) (state : QueueState) {lanes : List Lane}
    {stats : SweepStats} (h : Spared limits codec sweep spared root) :
    Ends (Spared limits codec sweep spared) (sweepLanes limits codec sweep state lanes stats) root
      fun _ => Spared limits codec sweep spared := by
  induction lanes generalizing root stats with
  | nil => exact h
  | cons lane lanes ih =>
      refine Ends.bind (sweepLane_ends hsweep lane h) ?_
      intro stats r hr
      split
      · exact hr
      · exact ih hr

/-- A sweep spares a protected call. -/
theorem sweepAbandoned_spares (hsweep : ∀ body files, KeepsStages files
    (sweep.recoverQuarantine body files).2) (h : Spared limits codec sweep spared root) :
    Spared limits codec sweep spared (rootAfter (sweepAbandoned limits codec sweep) root) := by
  apply Ends.rootAfter
  unfold sweepAbandoned
  refine Ends.bind (Q := fun _ => Spared limits codec sweep spared) ?_ ?_
  · exact ends_onQueue (readState_run h.safe.counted) (fun _ _ => h) fun _ _ => h
  · intro state r hr
    refine Ends.bind (sweepLanes_ends hsweep state hr) ?_
    intro stats r hr
    refine Ends.bind (ends_get (Q := fun a r' => a = r ∧ r' = r) ⟨rfl, rfl⟩) ?_
    rintro _ _ ⟨rfl, rfl⟩
    split
    · refine ends_setFiles ⟨hr.safe, fun p hp => ?_⟩
      obtain ⟨hwell, hprogress, hcurrent, hprotected⟩ := hr.tracked p hp
      obtain ⟨identity, hstaged⟩ := hcurrent.staged
      have hkeeps := scanRootEntries_keeps hwell hstaged hprotected sweep.rootEntries
      exact ⟨hwell, hprogress, hcurrent.keeps hkeeps.staged fun f hf => ⟨f, hf⟩,
        hprotected.keeps hkeeps⟩
    · exact hr

end Sweeping

end WheelForge.Storage
