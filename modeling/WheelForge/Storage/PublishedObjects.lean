import WheelForge.Storage.MinimumAge
import WheelForge.Storage.PublicationSafety

/-!
# Published objects

What a call of `_publish` has linked under its object key stays there with the content that the
writer copied, in every run whose sweeps have a reason to keep the object and in which nothing else
takes its name (`published_objects_kept`). What a sweep removes, it removes for a reason
(`sweep_removes_for_reason`).
-/

set_option autoImplicit false

namespace WheelForge.Storage

open WheelForge.Maintenance
open WheelForge.Transition

/-! ## Object keys -/

theorem objectKeyParts_eq {objectKey : String} {parts : Path}
    (h : objectKeyParts objectKey = .ok parts) : parts = objectKey.toList.splitOn '/' := by
  unfold objectKeyParts at h
  split at h
  · cases h
  · split at h
    · cases h
    · split at h <;> cases h
      rfl

/-- Two object keys have different components. -/
theorem objectKeyParts_injective {objectKey objectKey' : String} {parts : Path}
    (h : objectKeyParts objectKey = .ok parts) (h' : objectKeyParts objectKey' = .ok parts) :
    objectKey = objectKey' := by
  have hsplit := (objectKeyParts_eq h).symm.trans (objectKeyParts_eq h')
  have hjoin := congrArg (fun groups => ['/'].intercalate groups) hsplit
  simp only [List.intercalate_splitOn] at hjoin
  exact String.toList_inj.1 hjoin

/-- The last component of an object key is no stage name. -/
def Regular (parts : Path) : Prop := stageMatch (parts.getLast?.getD []) = none

theorem Regular.ne_stage {parts stageParts : Path} {owner : Option Uuid} (h : Regular parts)
    (hstage : stageMatch (stageParts.getLast?.getD []) = some owner) : parts ≠ stageParts := by
  rintro rfl
  rw [h] at hstage
  cases hstage

/-! ## Sweeps -/

/-- Why a sweep keeps an object: its key is not that of an artifact, or it is referenced, or its
build is active, or its file is too young; and no quarantine touches the name. -/
structure Retains (sweep : SweepInput) (files : FileSystem) (objectKey : String) (parts : Path) :
    Prop where
  artifact : ∀ artifact status, artifactMatch objectKey = some artifact →
    files.stat parts = some status →
    objectKey ∈ sweep.referencedArtifactKeys ∨ activeBuild sweep artifact = true ∨
      sweep.cutoff < status.mtime
  quarantine : ∀ body files, KeepsPath parts files (sweep.recoverQuarantine body files).2

section Retaining

variable {codec : StorageCodec} {sweep : SweepInput} {files files' : FileSystem}
  {objectKey : String} {parts path : Path}

theorem KeepsPath.stat (h : KeepsPath path files files') : files'.stat path = files.stat path := by
  unfold FileSystem.stat
  rw [h.entry]
  exact congrArg (fun f => (files.entries path).map f) (funext h.fstat)

theorem Retains.keeps (h : Retains sweep files objectKey parts)
    (hkeeps : KeepsPath parts files files') : Retains sweep files' objectKey parts where
  artifact artifact status hartifact hstat :=
    h.artifact artifact status hartifact (hkeeps.stat ▸ hstat)
  quarantine := h.quarantine

/-- The recovery of an identified record under the key of a retained object. -/
theorem recoverIdentified_retains (h : Retains sweep files objectKey parts) {stageParts : Path}
    (hstage : parts ≠ stageParts) (stageOwner : Option Uuid) (source : SourceIdentity) :
    KeepsPath parts files
      (recoverIdentified sweep files objectKey parts stageParts stageOwner source).2 := by
  unfold recoverIdentified
  split
  · next canonical hcanonical =>
    split
    · split
      · exact .unlink hstage
      · split <;> exact .refl parts files
    · split
      · exact .refl parts files
      · dsimp only
        cases hartifact : artifactMatch objectKey with
        | none =>
            dsimp only
            split
            · exact .unlink hstage
            · exact .refl parts files
        | some artifact =>
            -- one of the three reasons to keep the object applies
            have hkeep : (decide (objectKey ∈ sweep.referencedArtifactKeys) ||
                activeBuild sweep artifact || decide (sweep.cutoff < canonical.mtime)) = true := by
              simp only [Bool.or_eq_true, decide_eq_true_eq, or_assoc]
              exact h.artifact artifact canonical hartifact hcanonical
            dsimp only
            rw [if_pos hkeep]
            exact .refl parts files
  · exact .refl parts files
  · split
    · exact .refl parts files
    · split
      · exact .refl parts files
      · exact .unlink hstage

theorem recoverPublication_retains (h : Retains sweep files objectKey parts)
    (hparts : objectKeyParts objectKey = .ok parts) (hregular : Regular parts)
    (record : PublicationRecord) :
    KeepsPath parts files (recoverPublication codec sweep files record).2 := by
  unfold recoverPublication
  split
  · next own stageParts hown _ =>
    split
    · exact .refl parts files
    · split
      · exact .refl parts files
      · next stageOwner hmatch =>
        have hstage := hregular.ne_stage hmatch
        split
        · exact .refl parts files
        · by_cases hsame : parts = own
          · subst hsame
            obtain rfl := objectKeyParts_injective hparts hown
            exact recoverIdentified_retains h hstage _ _
          · exact recoverIdentified_keeps hstage (fun _ _ => hsame) _ _
        · exact .refl parts files
        · split
          · exact .refl parts files
          · split
            · exact .refl parts files
            · exact .unlink hstage
  · exact .refl parts files

theorem recoverFile_retains (h : Retains sweep files objectKey parts)
    (hparts : objectKeyParts objectKey = .ok parts) (hregular : Regular parts) (kind : FileKind)
    (other : String) : KeepsPath parts files (recoverFile sweep files kind other).2 := by
  unfold recoverFile
  split
  · exact .refl parts files
  · next own hown =>
    split
    · exact .refl parts files
    · next status hstat =>
      split
      · exact .refl parts files
      · next hage =>
        split
        · split
          · exact .refl parts files
          · next owner hmatch =>
            split
            · exact .refl parts files
            · exact .unlink (hregular.ne_stage hmatch)
        · split
          · exact .refl parts files
          · next artifact hartifact =>
            split
            · exact .refl parts files
            · next hfree =>
              refine .unlink ?_
              rintro rfl
              obtain rfl := objectKeyParts_injective hparts hown
              simp only [Bool.or_eq_true, decide_eq_true_eq, not_or] at hfree
              rcases h.artifact artifact status hartifact hstat with hkey | hactive | hyoung
              · exact hfree.1 hkey
              · exact hfree.2 hactive
              · exact hage hyoung

/-- No record makes a sweep touch a retained object. -/
theorem recoverRecord_retains (h : Retains sweep files objectKey parts)
    (hparts : objectKeyParts objectKey = .ok parts) (hregular : Regular parts) (body : QueueBody) :
    KeepsPath parts files (recoverRecord codec sweep files body).2 := by
  cases body with
  | publication record => exact recoverPublication_retains h hparts hregular record
  | file kind other => exact recoverFile_retains h hparts hregular kind other
  | quarantine other quarantineId next => exact h.quarantine _ files
  | unknown => exact .refl parts files

theorem scanRootEntry_retains (hregular : Regular parts) (name : Name) :
    KeepsPath parts files (scanRootEntry sweep files name) := by
  unfold scanRootEntry
  split
  · next owner status hmatch _ =>
    split
    · exact .refl parts files
    · refine .unlink ?_
      rintro rfl
      have hnone : stageMatch name = none := hregular
      rw [hnone] at hmatch
      cases hmatch
  · exact .refl parts files

/-- A sweep does not touch a retained object: induction on what the sweep handles, with the object
retained in the files that each step leaves. -/
theorem sweptFrom_retains (hparts : objectKeyParts objectKey = .ok parts)
    (hregular : Regular parts) {swept : List Swept}
    (hswept : SweptFrom codec sweep files swept files')
    (h : Retains sweep files objectKey parts) : KeepsPath parts files files' := by
  induction swept generalizing files with
  | nil =>
      obtain rfl : files' = files := hswept
      exact .refl parts files'
  | cons first rest ih =>
      obtain ⟨rfl, hrest⟩ := hswept
      have hfirst : KeepsPath parts first.before (first.after codec sweep) := by
        cases first with
        | record before body => exact recoverRecord_retains h hparts hregular body
        | entry before name => exact scanRootEntry_retains hregular name
      exact hfirst.trans (ih hrest (h.keeps hfirst))

theorem sweep_retains (limits : QueueLimits) {root : DataRoot}
    (h : Retains sweep root.files objectKey parts) (hparts : objectKeyParts objectKey = .ok parts)
    (hregular : Regular parts) :
    KeepsPath parts root.files (rootAfter (sweepAbandoned limits codec sweep) root).files :=
  sweptFrom_retains hparts hregular sweep_follows h

theorem recoverIdentified_inodes {stageParts : Path} (stageOwner : Option Uuid)
    (source : SourceIdentity) :
    (recoverIdentified sweep files objectKey parts stageParts stageOwner source).2.inodes =
      files.inodes := by
  unfold recoverIdentified
  split
  · split
    · split
      · rfl
      · split <;> rfl
    · split
      · rfl
      · dsimp only
        have hreleased : (if isOwned source (files.stat stageParts) then files.unlink stageParts
            else files).inodes = files.inodes := by
          split <;> rfl
        split
        · exact hreleased
        · split
          · rfl
          · exact hreleased
  · rfl
  · split
    · rfl
    · split <;> rfl

theorem recoverRecord_inodes (hkeeps : ∀ body files, KeepsStages files
    (sweep.recoverQuarantine body files).2) (files : FileSystem) (body : QueueBody) :
    (recoverRecord codec sweep files body).2.inodes = files.inodes := by
  cases body with
  | publication record =>
      show (recoverPublication codec sweep files record).2.inodes = files.inodes
      unfold recoverPublication
      split
      · split
        · rfl
        · split
          · rfl
          · split
            · rfl
            · exact recoverIdentified_inodes _ _
            · rfl
            · split
              · rfl
              · split <;> rfl
      · rfl
  | file kind other =>
      show (recoverFile sweep files kind other).2.inodes = files.inodes
      unfold recoverFile
      split
      · rfl
      · split
        · rfl
        · split
          · rfl
          · cases kind with
            | stage =>
                dsimp only
                split
                · rfl
                · split <;> rfl
            | artifact =>
                dsimp only
                split
                · rfl
                · split <;> rfl
  | quarantine other quarantineId next => exact (hkeeps _ files).1
  | unknown => rfl

theorem scanRootEntry_inodes (files : FileSystem) (name : Name) :
    (scanRootEntry sweep files name).inodes = files.inodes := by
  unfold scanRootEntry
  split
  · split <;> rfl
  · rfl

/-- No sweep changes what is in a file. -/
theorem sweptFrom_inodes (hkeeps : ∀ body files, KeepsStages files
    (sweep.recoverQuarantine body files).2) {swept : List Swept}
    (hswept : SweptFrom codec sweep files swept files') : files'.inodes = files.inodes := by
  induction swept generalizing files with
  | nil => exact congrArg FileSystem.inodes hswept
  | cons first rest ih =>
      obtain ⟨rfl, hrest⟩ := hswept
      refine (ih hrest).trans ?_
      cases first with
      | record before body => exact recoverRecord_inodes hkeeps before body
      | entry before name => exact scanRootEntry_inodes before name

theorem sweep_inodes (limits : QueueLimits) {root : DataRoot} (hkeeps : ∀ body files,
    KeepsStages files (sweep.recoverQuarantine body files).2) :
    (rootAfter (sweepAbandoned limits codec sweep) root).files.inodes = root.files.inodes :=
  sweptFrom_inodes hkeeps sweep_follows

end Retaining

/-! ## Calls -/

/-- What a call has under its descriptor, and after its second section under its object key. -/
def Holding (files : FileSystem) (p : Publication) : Prop :=
  match p.phase with
  | .copying => ∃ identity, p.descriptor = some identity ∧
      (files.inodes identity).content = p.written
  | .copied status => p.descriptor = some status.identity ∧
      (files.inodes status.identity).content = p.written
  | .published => ∃ identity, p.descriptor = some identity ∧ files.entries p.parts = some identity ∧
      (files.inodes identity).content = p.written
  | .failing | .raised => True

/-- The names of a call. -/
structure Named (codec : StorageCodec) (p : Publication) : Prop where
  parts : objectKeyParts p.objectKey = .ok p.parts
  regular : Regular p.parts
  owner : ∀ o, p.owner = some o → uuidPattern o.toList = true
  stage : codec.canonicalUuid p.stageIdentifier = some p.stageIdentifier

/-- A later state of a call, with the same names and the same stage file. -/
structure SameCall (p p' : Publication) : Prop where
  objectKey : p'.objectKey = p.objectKey
  parts : p'.parts = p.parts
  owner : p'.owner = p.owner
  stage : p'.stageIdentifier = p.stageIdentifier
  descriptor : p'.descriptor = p.descriptor
  raised : p.phase = .raised → p'.phase = .raised

/-- What is left to a call that another one runs beside. -/
structure Spares (files files' : FileSystem) (q : Publication) : Prop where
  entry : q.phase = .published → files'.entries q.parts = files.entries q.parts
  content : ∀ identity, q.phase ≠ .raised → q.descriptor = some identity →
    (files'.inodes identity).content = (files.inodes identity).content

section Calls

variable {codec : StorageCodec} {files files' : FileSystem} {p p' q : Publication}

theorem Named.same (h : Named codec p) (hsame : SameCall p p') : Named codec p' := by
  refine ⟨?_, ?_, ?_, ?_⟩
  · rw [hsame.objectKey, hsame.parts]
    exact h.parts
  · rw [hsame.parts]
    exact h.regular
  · rw [hsame.owner]
    exact h.owner
  · rw [hsame.stage]
    exact h.stage

/-- The stage name of a call is a stage name. -/
theorem Named.stageMatch (h : Named codec p) :
    Storage.stageMatch (p.stagePath.getLast?.getD []) = some p.owner := by
  unfold Publication.stagePath Publication.stageName
  rw [List.getLast?_concat, Option.getD_some]
  exact stageMatch_stageNameOf h.owner (codec.uuid_pattern h.stage)

/-- No object of a call has the stage path of a call. -/
theorem Named.parts_ne_stagePath (hq : Named codec q) (hp : Named codec p) :
    q.parts ≠ p.stagePath :=
  hq.regular.ne_stage hp.stageMatch

theorem Spares.refl (files : FileSystem) (q : Publication) : Spares files files q :=
  ⟨fun _ => rfl, fun _ _ _ => rfl⟩

theorem Spares.trans {files'' : FileSystem} (h : Spares files files' q)
    (h' : Spares files' files'' q) : Spares files files'' q :=
  ⟨fun hq => (h'.entry hq).trans (h.entry hq),
    fun identity hq hi => (h'.content identity hq hi).trans (h.content identity hq hi)⟩

theorem Spares.setEntry {path : Path} {target : Option FileId}
    (h : q.phase = .published → q.parts ≠ path) : Spares files (files.setEntry path target) q :=
  ⟨fun hq => FileSystem.setEntry_entries_ne files target (h hq), fun _ _ _ => rfl⟩

theorem Spares.setInode {identity : FileId} {inode : Inode}
    (h : q.phase ≠ .raised → q.descriptor ≠ some identity) :
    Spares files (files.setInode identity inode) q := by
  refine ⟨fun _ => rfl, fun other hq hother => ?_⟩
  have hne : other ≠ identity := by
    rintro rfl
    exact h hq hother
  exact congrArg Inode.content (FileSystem.setInode_inodes_ne files inode hne)

theorem KeepsPath.spares (h : q.phase = .published → KeepsPath q.parts files files')
    (hinodes : files'.inodes = files.inodes) : Spares files files' q :=
  ⟨fun hq => (h hq).entry, fun _ _ _ => by rw [hinodes]⟩

theorem Holding.spared (h : Holding files q) (hspares : Spares files files' q) :
    Holding files' q := by
  unfold Holding at h ⊢
  cases hphase : q.phase with
  | copying =>
      rw [hphase] at h
      obtain ⟨identity, hdescriptor, hcontent⟩ := h
      have hsame := hspares.content identity (hphase ▸ nofun) hdescriptor
      exact ⟨identity, hdescriptor, hsame.trans hcontent⟩
  | copied status =>
      rw [hphase] at h
      obtain ⟨hdescriptor, hcontent⟩ := h
      have hsame := hspares.content _ (hphase ▸ nofun) hdescriptor
      exact ⟨hdescriptor, hsame.trans hcontent⟩
  | published =>
      rw [hphase] at h
      obtain ⟨identity, hdescriptor, hentry, hcontent⟩ := h
      have hsame := hspares.content identity (hphase ▸ nofun) hdescriptor
      exact ⟨identity, hdescriptor, (hspares.entry hphase).trans hentry, hsame.trans hcontent⟩
  | failing => trivial
  | raised => trivial

end Calls

/-! ## The invariant -/

/-- The sweeps retain every published object, no other program takes its name, and no caller asks
for an object key that ends in a stage name. -/
def RetainsPublished (w : World) : StorageAction → Prop
  | .start _ input => ∀ parts, objectKeyParts input.objectKey = .ok parts → Regular parts
  | .sweep input => ∀ c p, w.calls c = some p → p.phase = .published →
      Retains input w.root.files p.objectKey p.parts
  | .entry path _ => ∀ c p, w.calls c = some p → p.phase = .published → p.parts ≠ path
  | _ => True

/-- Every call holds what it has written, and no two of them share a stage file. -/
structure ObjectsInv (codec : StorageCodec) (w : World) : Prop where
  named : ∀ c p, w.calls c = some p → Named codec p
  apart : ∀ c c' p p', w.calls c = some p → w.calls c' = some p' → c ≠ c' → p.phase ≠ .raised →
    p'.phase ≠ .raised → ∀ identity, p.descriptor = some identity → p'.descriptor ≠ some identity
  holding : ∀ c p, w.calls c = some p → Holding w.root.files p

section Steps

variable {limits : QueueLimits} {codec : StorageCodec} {w : World} {c : Nat}
  {p p' : Publication} {root : DataRoot}

/-- A step that leaves the calls as they are. -/
theorem ObjectsInv.root_step (h : ObjectsInv codec w)
    (hspares : ∀ c q, w.calls c = some q → Spares w.root.files root.files q) :
    ObjectsInv codec { w with root := root } where
  named := h.named
  apart := h.apart
  holding c q hq := (h.holding c q hq).spared (hspares c q hq)

/-- A step of one call. -/
theorem ObjectsInv.call_step (h : ObjectsInv codec w) (hp : w.calls c = some p)
    (hsame : SameCall p p') (hown : Holding root.files p')
    (hspares : ∀ c' q, c' ≠ c → w.calls c' = some q → Spares w.root.files root.files q) :
    ObjectsInv codec ({ w with root := root }.setCall c p') where
  named := by
    intro c' q hq
    rcases update_some hq with ⟨rfl, rfl⟩ | ⟨-, hq⟩
    · exact (h.named _ p hp).same hsame
    · exact h.named c' q hq
  apart := by
    intro c₁ c₂ p₁ p₂ h₁ h₂ hne
    refine pairwise_update (R := fun p q => p.phase ≠ .raised → q.phase ≠ .raised →
      ∀ identity, p.descriptor = some identity → q.descriptor ≠ some identity) ?_ h.apart ?_ h₁ h₂
      hne
    · intro p q hpq hq hp identity hqi hpi
      exact hpq hp hq identity hpi hqi
    · intro c' q hc' hq hraised hqraised identity hidentity
      rw [hsame.descriptor] at hidentity
      exact h.apart c c' p q hp hq (Ne.symm hc') (fun hr => hraised (hsame.raised hr)) hqraised
        identity hidentity
  holding := by
    intro c' q hq
    rcases update_some hq with ⟨rfl, rfl⟩ | ⟨hne, hq⟩
    · exact hown
    · exact (h.holding c' q hq).spared (hspares c' q hne hq)

end Steps

/-! ## Sections -/

section Sections

variable {limits : QueueLimits} {codec : StorageCodec} {root : DataRoot} {p : Publication}

theorem ends_onQueue_files {α : Type} {P : DataRoot → Prop} (program : QueueProgram QueueBody α)
    (h : ∀ queue, P { root with queue := queue }) :
    Ends P (onQueue program) root fun _ => P := by
  unfold Ends onQueue
  generalize run program root.queue = result
  rcases result with ⟨_ | _, queue⟩ <;> exact h queue

/-- A section that its first step leaves by an exception. -/
theorem ends_bind_error {α β : Type} {I : DataRoot → Prop} {x : Gated α} {f : α → Gated β}
    {Q : β → DataRoot → Prop} {r : DataRoot} {e : StorageError} (h : x root = .error e r)
    (hr : I r) : Ends I (x >>= f) root Q := by
  refine Ends.bind (Q := fun _ _ => False) ?_ fun _ _ => False.elim
  unfold Ends
  rw [h]
  exact hr

/-- The first half of the second section changes no file. -/
theorem identifyStage_files (status : FileStatus) :
    Ends (fun r => r.files = root.files) (identifyStage limits codec p status) root fun _ r =>
      r.files = root.files ∧ root.files.entries p.stagePath = some status.identity := by
  unfold identifyStage
  refine Ends.bind (Q := fun _ r => r = root ∧
    root.files.entries p.stagePath = some status.identity) ?_ ?_
  · unfold Ends
    rw [requireNamedIdentity_apply]
    cases hentry : root.files.entries p.stagePath with
    | none => rfl
    | some named =>
        dsimp only
        by_cases hnamed : named = status.identity
        · rw [if_pos hnamed]
          exact ⟨rfl, congrArg some hnamed⟩
        · rw [if_neg hnamed]
          rfl
  · rintro _ r ⟨rfl, hentry⟩
    have hqueue := @ends_onQueue_files r _ (fun s => s.files = r.files)
      (queueMove limits codec.toQueueCodec p.intent .ready (some (snapshotBody codec p status)))
      fun _ => rfl
    unfold Ends at hqueue ⊢
    split at hqueue
    · exact ⟨hqueue, hentry⟩
    · exact hqueue

/-- The second half links the stage file under a free key, if it changes anything. -/
theorem linkStage_files (intent : QueueItem QueueBody) :
    Ends (fun r => r.files = root.files ∨ root.files.entries p.parts = none ∧
        ∃ identity, r.files = linkedFiles root.files p identity)
      (linkStage limits p intent) root fun _ r =>
        root.files.entries p.parts = none ∧ ∃ identity,
          root.files.entries p.stagePath = some identity ∧
            r.files = linkedFiles root.files p identity := by
  cases hstage : root.files.entries p.stagePath with
  | none =>
      refine ends_bind_error (r := root) (e := .fileNotFound) ?_ (.inl rfl)
      rw [linkNoReplace_apply, hstage]
      rfl
  | some identity =>
      cases hkey : root.files.entries p.parts with
      | some taken =>
          refine ends_bind_error (r := root) (e := .fileExists) ?_ (.inl rfl)
          rw [linkNoReplace_apply, hstage, hkey]
          rfl
      | none =>
          unfold Ends
          rw [linkStage_eq limits root hstage hkey intent]
          by_cases hartifact : (artifactMatch p.objectKey).isNone = true
          · rw [if_pos hartifact]
            have hqueue := @ends_onQueue_files
              { root with files := linkedFiles root.files p identity } _
              (fun s => s.files = linkedFiles root.files p identity) (complete limits intent)
              fun _ => rfl
            unfold Ends at hqueue
            split at hqueue
            · exact ⟨rfl, identity, rfl, hqueue⟩
            · exact .inr ⟨rfl, identity, hqueue⟩
          · rw [if_neg hartifact]
            exact ⟨rfl, identity, rfl, rfl⟩

/-- The clean-up removes nothing but the stage file. -/
theorem cleanUp_files : (rootAfter (cleanUp limits p) root).files = root.files ∨
    (rootAfter (cleanUp limits p) root).files = root.files.unlink p.stagePath := by
  apply Ends.rootAfter (I := fun r => r.files = root.files ∨
    r.files = root.files.unlink p.stagePath)
  unfold cleanUp
  cases p.descriptor with
  | none => exact ends_onQueue_files _ fun _ => .inl rfl
  | some identity =>
      refine Ends.bind (ends_get (Q := fun a r => a = root ∧ r = root) ⟨rfl, rfl⟩) ?_
      rintro _ _ ⟨rfl, rfl⟩
      split
      · split
        · exact .inl rfl
        · split
          · refine Ends.bind (Q := fun _ r => r.files = _) rfl fun _ r hr => ?_
            exact ends_onQueue_files _ fun _ => .inr hr
          · exact .inl rfl
      · exact .inl rfl

end Sections

/-! ## Every step -/

section Objects

variable {limits : QueueLimits} {codec : StorageCodec} {w : World} {c : Nat} {p q : Publication}

theorem Spares.linked {files : FileSystem} {identity : FileId} (hp : Named codec p)
    (hq : Named codec q) (hfree : files.entries p.parts = none) (hholding : Holding files q) :
    Spares files (linkedFiles files p identity) q := by
  refine (Spares.setEntry fun hpublished => ?_).trans
    (.setEntry fun _ => hq.parts_ne_stagePath hp)
  -- the key of a published object is taken
  unfold Holding at hholding
  rw [hpublished] at hholding
  obtain ⟨other, -, hentry, -⟩ := hholding
  rintro hsame
  rw [hsame, hfree] at hentry
  cases hentry

theorem ObjectsInv.write (h : ObjectsInv codec w) (hp : w.calls c = some p)
    (chunk : List UInt8) (mtime : Int) : ObjectsInv codec (writeCall w c p chunk mtime) := by
  unfold writeCall
  split
  · next identity hphase hdescriptor =>
    have hraised : p.phase ≠ .raised := hphase ▸ nofun
    refine h.call_step hp ⟨rfl, rfl, rfl, rfl, rfl, id⟩ ?_ fun c' q hc' hq => ?_
    · have hholding := h.holding c p hp
      unfold Holding at hholding ⊢
      rw [hphase] at hholding
      obtain ⟨other, hother, hcontent⟩ := hholding
      obtain rfl := Option.some.inj (hdescriptor.symm.trans hother)
      rw [hphase]
      refine ⟨identity, hdescriptor, ?_⟩
      rw [FileSystem.setInode_inodes_self]
      exact congrArg (· ++ chunk) hcontent
    · exact .setInode fun hqraised =>
        h.apart c c' p q hp hq (Ne.symm hc') hraised hqraised identity hdescriptor
  · exact h

theorem ObjectsInv.close (h : ObjectsInv codec w) (hp : w.calls c = some p) :
    ObjectsInv codec (closeCall w c p) := by
  unfold closeCall
  split
  · next identity hphase hdescriptor =>
    have hraised : p.phase ≠ .raised := hphase ▸ nofun
    show ObjectsInv codec ({ w with root := w.root }.setCall c _)
    refine h.call_step hp ⟨rfl, rfl, rfl, rfl, rfl, fun hr => absurd hr hraised⟩
      ?_ fun _ q _ _ => .refl _ q
    have hholding := h.holding c p hp
    unfold Holding at hholding ⊢
    rw [hphase] at hholding
    obtain ⟨other, hother, hcontent⟩ := hholding
    obtain rfl := Option.some.inj (hdescriptor.symm.trans hother)
    dsimp only
    split
    · next status hcopied =>
      split at hcopied
      · cases hcopied
      · cases hcopied
    · next status hcopied =>
      split at hcopied
      · cases hcopied
        exact ⟨hdescriptor, hcontent⟩
      · cases hcopied
    · next hcopied => split at hcopied <;> cases hcopied
    · trivial
    · trivial
  · exact h

theorem ObjectsInv.fail (h : ObjectsInv codec w) (hp : w.calls c = some p) :
    ObjectsInv codec (failCall w c p) := by
  unfold failCall
  split
  · next hprogress =>
    have hraised : p.phase ≠ .raised := (Publication.open_of_inProgress hprogress).2
    show ObjectsInv codec ({ w with root := w.root }.setCall c _)
    exact h.call_step hp ⟨rfl, rfl, rfl, rfl, rfl, fun hr => absurd hr hraised⟩
      trivial fun _ q _ _ => .refl _ q
  · exact h

theorem ObjectsInv.cleanUp (h : ObjectsInv codec w) (hp : w.calls c = some p) :
    ObjectsInv codec (cleanUpCall limits w c p) := by
  unfold cleanUpCall
  split
  · refine h.call_step hp ⟨rfl, rfl, rfl, rfl, rfl, fun _ => rfl⟩ trivial fun c' q _ hq => ?_
    rcases @cleanUp_files limits w.root p with hfiles | hfiles
    · rw [hfiles]
      exact .refl _ q
    · rw [hfiles]
      exact .setEntry fun _ => (h.named c' q hq).parts_ne_stagePath (h.named c p hp)
  · exact h

theorem ObjectsInv.finish (h : ObjectsInv codec w) (hp : w.calls c = some p) :
    ObjectsInv codec (finishCall limits codec w c p) := by
  unfold finishCall
  split
  · next status hphase =>
    have hraised : p.phase ≠ .raised := hphase ▸ nofun
    have hnamed := h.named c p hp
    have hidentify := @identifyStage_files limits codec w.root p status
    unfold Ends at hidentify
    split
    · next e root hresult =>
      rw [hresult] at hidentify
      refine h.call_step hp ⟨rfl, rfl, rfl, rfl, rfl, fun hr => absurd hr hraised⟩ trivial
        fun c' q _ _ => ?_
      rw [show root.files = w.root.files from hidentify]
      exact .refl _ q
    · next intent root hresult =>
      rw [hresult] at hidentify
      obtain ⟨hfiles, hstage⟩ := hidentify
      have hlink := @linkStage_files limits root p intent
      unfold Ends at hlink
      rw [hfiles] at hlink
      split
      · next e final hfinal =>
        rw [hfinal] at hlink
        refine h.call_step hp ⟨rfl, rfl, rfl, rfl, rfl, fun hr => absurd hr hraised⟩ trivial
          fun c' q _ hq => ?_
        rcases hlink with hsame | ⟨hfree, identity, hlinked⟩
        · rw [hsame]
          exact .refl _ q
        · rw [hlinked]
          exact .linked hnamed (h.named c' q hq) hfree (h.holding c' q hq)
      · next final hfinal =>
        rw [hfinal] at hlink
        obtain ⟨hfree, identity, hidentity, hlinked⟩ := hlink
        obtain rfl := Option.some.inj (hidentity.symm.trans hstage)
        refine h.call_step hp ⟨rfl, rfl, rfl, rfl, rfl, fun hr => absurd hr hraised⟩ ?_
          fun c' q _ hq => ?_
        · have hholding := h.holding c p hp
          unfold Holding at hholding
          rw [hphase] at hholding
          rw [hlinked]
          exact ⟨status.identity, hholding.1,
            linkedFiles_entry (hnamed.parts_ne_stagePath hnamed), hholding.2⟩
        · rw [hlinked]
          exact .linked hnamed (h.named c' q hq) hfree (h.holding c' q hq)
  · exact h

theorem ObjectsInv.start (h : ObjectsInv codec w) {input : PublishInput}
    (hfresh : Fresh codec w c input)
    (hregular : ∀ parts, objectKeyParts input.objectKey = .ok parts → Regular parts) :
    ObjectsInv codec (startCall limits codec w c input) := by
  -- the new inode is under no object key and behind no descriptor
  have hnew : ∀ c' q, w.calls c' = some q → q.phase ≠ .raised →
      q.descriptor ≠ some input.descriptor := by
    intro c' q hq hraised hdescriptor
    by_cases hopen : q.phase = .published
    · have hholding := h.holding c' q hq
      unfold Holding at hholding
      rw [hopen] at hholding
      obtain ⟨identity, hidentity, hentry, -⟩ := hholding
      obtain rfl := Option.some.inj (hidentity.symm.trans hdescriptor)
      exact hfresh.inode_entry _ hentry
    · exact hfresh.inode_open c' q hq ⟨hopen, hraised⟩ hdescriptor
  unfold startCall
  split
  · exact h
  · next parts owner hargs =>
    have henqueue := @ends_onQueue_files w.root _ (fun r => r.files = w.root.files)
      (enqueue limits codec.toQueueCodec .ready
        ⟨none, none, .publication
          (intentRecord input.objectKey parts owner input.stageIdentifier input.now)⟩
        input.recordId true false) fun _ => rfl
    unfold Ends at henqueue
    unfold enqueueIntent
    split
    · next e root hresult =>
      rw [hresult] at henqueue
      refine h.root_step fun c' q _ => ?_
      rw [show root.files = w.root.files from henqueue]
      exact .refl _ q
    · next intent root hresult =>
      rw [hresult] at henqueue
      have hfiles : root.files = w.root.files := henqueue
      obtain ⟨hparts, howner⟩ := publishArguments_ok hargs
      have hnamed : Named codec (startedCall input parts owner intent) :=
        ⟨hparts, hregular parts hparts, howner, hfresh.stage_canonical⟩
      have hpath : root.files.entries (startedCall input parts owner intent).stagePath = none := by
        rw [hfiles]
        exact hfresh.stage_entry _ _
      dsimp only
      rw [createExclusive_ok root hpath input.descriptor input.stageIdentifier input.mtime]
      dsimp only
      refine ⟨fun c' q hq => ?_, fun c₁ c₂ p₁ p₂ h₁ h₂ hne => ?_, fun c' q hq => ?_⟩
      · rcases update_some hq with ⟨rfl, rfl⟩ | ⟨-, hq⟩
        · exact hnamed
        · exact h.named c' q hq
      · refine pairwise_update (R := fun p q => p.phase ≠ .raised → q.phase ≠ .raised →
          ∀ identity, p.descriptor = some identity → q.descriptor ≠ some identity) ?_ h.apart ?_
          h₁ h₂ hne
        · intro p q hpq hq hp identity hqi hpi
          exact hpq hp hq identity hpi hqi
        · rintro c' q - hq - hraised identity hidentity hshared
          cases hidentity
          exact hnew c' q hq hraised hshared
      · rcases update_some hq with ⟨rfl, rfl⟩ | ⟨-, hq⟩
        · exact ⟨input.descriptor, rfl,
            congrArg Inode.content (FileSystem.setInode_inodes_self ..)⟩
        · refine (h.holding c' q hq).spared ?_
          show Spares w.root.files ((root.files.setEntry _ _).setInode _ _) q
          rw [hfiles]
          have hentry : Spares w.root.files (w.root.files.setEntry
              (startedCall input parts owner intent).stagePath (some input.descriptor)) q :=
            .setEntry fun _ => (h.named c' q hq).parts_ne_stagePath hnamed
          exact hentry.trans (.setInode fun hraised => hnew c' q hq hraised)

theorem ObjectsInv.sweep (h : ObjectsInv codec w) {input : SweepInput}
    (hkeeps : ∀ body files, KeepsStages files (input.recoverQuarantine body files).2)
    (hretains : RetainsPublished w (.sweep input)) :
    ObjectsInv codec
      { w with root := rootAfter (sweepAbandoned limits codec input) w.root } := by
  refine h.root_step fun c q hq => KeepsPath.spares (fun hpublished => ?_) ?_
  · have hnamed := h.named c q hq
    exact sweep_retains limits (hretains c q hq hpublished) hnamed.parts hnamed.regular
  · exact sweep_inodes limits hkeeps

/-- Every step that retains the published objects keeps the invariant. -/
theorem ObjectsInv.step (h : ObjectsInv codec w) {a : StorageAction}
    (henabled : Enabled codec w a) (hretains : RetainsPublished w a) :
    ObjectsInv codec (a.perform limits codec w) := by
  have hon : ∀ {c} {f : Publication → World}, (∀ p, w.calls c = some p →
      ObjectsInv codec (f p)) → ObjectsInv codec (onCall w c f) := by
    intro c f hf
    unfold onCall
    split
    · next p hp => exact hf p hp
    · exact h
  cases a with
  | start c input => exact h.start henabled hretains
  | write c chunk mtime => exact hon fun p hp => h.write hp chunk mtime
  | close c => exact hon fun p hp => h.close hp
  | finish c => exact hon fun p hp => h.finish hp
  | fail c => exact hon fun p hp => h.fail hp
  | cleanUp c => exact hon fun p hp => h.cleanUp hp
  | sweep input => exact h.sweep henabled hretains
  | queue action => exact h.root_step fun _ q _ => .refl _ q
  | entry path target => exact h.root_step fun c q hq => .setEntry (hretains c q hq)

theorem objectsInv_of_reachable
    (h : (storageSystem limits codec).Reachable RetainsPublished w) : ObjectsInv codec w := by
  apply h.invariant
  · rintro s ⟨-, hcalls⟩
    have hnone : ∀ {c p}, s.calls c ≠ some p := by
      intro c p hp
      rw [hcalls] at hp
      cases hp
    exact ⟨fun _ _ hp => absurd hp hnone, fun _ _ _ _ hp => absurd hp hnone,
      fun _ _ hp => absurd hp hnone⟩
  · rintro s a t hs hretains ⟨henabled, rfl⟩
    exact hs.step henabled hretains

end Objects

/-! ## Runs -/

section Runs

variable {limits : QueueLimits} {codec : StorageCodec} {w : World} {c : Nat} {p : Publication}

/-- In every run whose sweeps retain the published objects, each call that has ended well has the
content it has written under its object key. -/
theorem published_objects_kept (h : (storageSystem limits codec).Reachable RetainsPublished w)
    (hp : w.calls c = some p) (hpublished : p.phase = .published) :
    objectKeyParts p.objectKey = .ok p.parts ∧ ∃ identity, p.descriptor = some identity ∧
      w.root.files.entries p.parts = some identity ∧
      (w.root.files.inodes identity).content = p.written := by
  have hinv := objectsInv_of_reachable h
  have hholding := hinv.holding c p hp
  unfold Holding at hholding
  rw [hpublished] at hholding
  exact ⟨(hinv.named c p hp).parts, hholding⟩

/-- The call that an action is a step of. -/
def StorageAction.call : StorageAction → Option Nat
  | .start call _ | .write call _ _ | .close call | .finish call | .fail call | .cleanUp call =>
      some call
  | _ => none

theorem onCall_calls_ne {call : Nat} {f : Publication → World} (h : c ≠ call)
    (hf : ∀ q, ∃ root p', f q = w ∨ f q = { w with root := root }.setCall call p') :
    (onCall w call f).calls c = w.calls c := by
  unfold onCall
  split
  · next q _ =>
    obtain ⟨root, p', hq | hq⟩ := hf q
    · rw [hq]
    · rw [hq]
      exact Function.update_of_ne h _ _
  · rfl

/-- A step of one call leaves the others as they are. -/
theorem perform_calls_ne {a : StorageAction} (h : a.call ≠ some c) :
    (a.perform limits codec w).calls c = w.calls c := by
  have hne : ∀ {call}, a.call = some call → c ≠ call := by
    rintro call hcall rfl
    exact h hcall
  cases a with
  | start call input =>
      show (startCall limits codec w call input).calls c = w.calls c
      unfold startCall
      split
      · rfl
      · split
        · rfl
        · dsimp only
          split <;> exact Function.update_of_ne (hne rfl) _ _
  | write call chunk mtime =>
      refine onCall_calls_ne (hne rfl) fun q => ?_
      unfold writeCall
      split
      · exact ⟨_, _, .inr rfl⟩
      · exact ⟨w.root, q, .inl rfl⟩
  | close call =>
      refine onCall_calls_ne (hne rfl) fun q => ?_
      unfold closeCall
      split
      · exact ⟨w.root, _, .inr rfl⟩
      · exact ⟨w.root, q, .inl rfl⟩
  | finish call =>
      refine onCall_calls_ne (hne rfl) fun q => ?_
      unfold finishCall
      split
      · split
        · exact ⟨_, _, .inr rfl⟩
        · split <;> exact ⟨_, _, .inr rfl⟩
      · exact ⟨w.root, q, .inl rfl⟩
  | fail call =>
      refine onCall_calls_ne (hne rfl) fun q => ?_
      unfold failCall
      split
      · exact ⟨w.root, _, .inr rfl⟩
      · exact ⟨w.root, q, .inl rfl⟩
  | cleanUp call =>
      refine onCall_calls_ne (hne rfl) fun q => ?_
      unfold cleanUpCall
      split
      · exact ⟨_, _, .inr rfl⟩
      · exact ⟨w.root, q, .inl rfl⟩
  | sweep input => rfl
  | queue action => rfl
  | entry path target => rfl

/-- An artifact of an execution. -/
def artifactInput : PublishInput :=
  { sampleInput with
    objectKey := "artifacts/00000000-0000-4000-8000-00000000000a/" ++
      "00000000-0000-4000-8000-00000000000b/00000000-0000-4000-8000-00000000000c.zip"
    ownerExecutionId := some "00000000-0000-4000-8000-00000000000b" }

/-- A sweep long after the artifact was written; a row of the database refers to the artifact. -/
def referencingSweep : SweepInput :=
  { sampleSweep with cutoff := 5000, referencedArtifactKeys := [artifactInput.objectKey] }

/-- The artifact is published. -/
def publishedWorld : World :=
  [StorageAction.start 0 artifactInput, .write 0 [104, 105] 101, .close 0, .finish 0].foldl
    (StorageAction.perform queueLimits publicationCodec) emptyWorld

def referencedWorld : World :=
  (StorageAction.sweep referencingSweep).perform queueLimits publicationCodec publishedWorld

theorem publishedWorld_call : ((publishedWorld.calls 0).any fun p =>
    decide (p.phase = .published) && decide (p.objectKey = artifactInput.objectKey)) = true := by
  decide +kernel

theorem publishedWorld_calls (hp : publishedWorld.calls c = some p) :
    p.phase = .published ∧ p.objectKey = artifactInput.objectKey := by
  by_cases hc : c = 0
  · have hcheck := publishedWorld_call
    rw [← hc, hp, Option.any_some, Bool.and_eq_true, decide_eq_true_eq, decide_eq_true_eq] at hcheck
    exact hcheck
  · have hother : ∀ a : StorageAction, a.call = some 0 → a.call ≠ some c := by
      intro a ha heq
      exact hc (Option.some.inj (heq.symm.trans ha))
    unfold publishedWorld at hp
    rw [List.foldl_cons, List.foldl_cons, List.foldl_cons, List.foldl_cons, List.foldl_nil,
      perform_calls_ne (hother (.finish 0) rfl), perform_calls_ne (hother (.close 0) rfl),
      perform_calls_ne (hother (.write 0 [104, 105] 101) rfl),
      perform_calls_ne (hother (.start 0 artifactInput) rfl)] at hp
    cases hp

theorem referencedWorld_reachable :
    (storageSystem queueLimits publicationCodec).Reachable RetainsPublished referencedWorld := by
  have hregular : RetainsPublished emptyWorld (.start 0 artifactInput) := by
    intro parts hparts
    rw [objectKeyParts_eq hparts]
    unfold Regular
    decide +kernel
  have hfresh : Fresh publicationCodec emptyWorld 0 artifactInput :=
    { sample_fresh with stage_entry := fun _ _ => rfl }
  have hinit : (storageSystem queueLimits publicationCodec).Reachable RetainsPublished
      emptyWorld := System.Reachable.of_init ⟨rfl, rfl⟩
  have hstart := hinit.step (a := StorageAction.start 0 artifactInput) hregular ⟨hfresh, rfl⟩
  have hwrite := hstart.step (a := StorageAction.write 0 [104, 105] 101) trivial ⟨trivial, rfl⟩
  have hclose := hwrite.step (a := StorageAction.close 0) trivial ⟨trivial, rfl⟩
  have hfinish := hclose.step (a := StorageAction.finish 0) trivial ⟨trivial, rfl⟩
  have hpublished : (storageSystem queueLimits publicationCodec).Reachable RetainsPublished
      publishedWorld := by
    unfold publishedWorld
    rw [List.foldl_cons, List.foldl_cons, List.foldl_cons, List.foldl_cons, List.foldl_nil]
    exact hfinish
  refine hpublished.step (a := StorageAction.sweep referencingSweep) ?_
    ⟨fun _ _ => ⟨rfl, fun _ _ _ => rfl⟩, rfl⟩
  intro c p hp _
  refine ⟨fun artifact status _ _ => .inl ?_, fun _ files => .refl _ files⟩
  rw [(publishedWorld_calls hp).2]
  exact List.mem_singleton.2 rfl

/-- The published artifact outlives the sweep. -/
theorem published_objects_kept_referenced : ∃ p, referencedWorld.calls 0 = some p ∧
    p.phase = .published ∧ objectKeyParts p.objectKey = .ok p.parts ∧
    ∃ identity, p.descriptor = some identity ∧
      referencedWorld.root.files.entries p.parts = some identity ∧
      (referencedWorld.root.files.inodes identity).content = p.written := by
  obtain ⟨p, hcall, -⟩ := (Option.any_eq_true _ _).1 publishedWorld_call
  have hpublished := (publishedWorld_calls hcall).1
  have hp : referencedWorld.calls 0 = some p := by
    unfold referencedWorld
    rw [perform_calls_ne (a := .sweep referencingSweep) nofun]
    exact hcall
  exact ⟨p, hp, hpublished, published_objects_kept referencedWorld_reachable hp hpublished⟩

end Runs

/-! ## What a sweep removes -/

/-- The record that a sweep handles. -/
def Swept.body : Swept → Option QueueBody
  | .record _ body => some body
  | .entry _ _ => none

/-- Why a sweep removes a file in one of its steps. -/
inductive Reason (sweep : SweepInput) (swept : Swept) (path : Path) (status : FileStatus) : Prop
  /-- A stage file that is old enough and has no active owner. -/
  | stage (owner : Option Uuid) (hname : stageMatch (path.getLast?.getD []) = some owner)
      (hage : status.mtime ≤ sweep.cutoff) (hidle : activeOwner sweep owner = false)
  /-- The stage file of an identified publication whose object key is taken. -/
  | superseded (record : PublicationRecord) (source : SourceIdentity) (parts : Path)
      (hbody : swept.body = some (.publication record)) (hsource : record.source = some source)
      (hpath : objectKeyParts record.stageObjectKey = .ok path)
      (hname : (stageMatch (path.getLast?.getD [])).isSome = true)
      (hparts : objectKeyParts record.objectKey = .ok parts)
      (htaken : (swept.before.stat parts).isSome = true)
      (howned : isOwned source (some status) = true)
  /-- An artifact that is old enough, to which no row refers and whose build is not active; where
  the record identifies its file, it is that file. -/
  | artifact (objectKey : String) (artifact : Uuid × Option Uuid)
      (hpath : objectKeyParts objectKey = .ok path) (hartifact : artifactMatch objectKey = some artifact)
      (hfree : objectKey ∉ sweep.referencedArtifactKeys) (hidle : activeBuild sweep artifact = false)
      (hage : status.mtime ≤ sweep.cutoff)
      (hidentity : ∀ record, swept.body = some (.publication record) →
        ∃ source, record.source = some source ∧ isOwned source (some status) = true)

/-- Every file keeps its name and status, or loses the name for a reason. -/
def RemovesFor (R : Path → FileStatus → Prop) (files files' : FileSystem) : Prop :=
  ∀ path status, files.stat path = some status →
    files'.stat path = some status ∨ files'.stat path = none ∧ R path status

section Reasons

variable {R : Path → FileStatus → Prop} {files files' : FileSystem} {path : Path}

theorem RemovesFor.refl (files : FileSystem) : RemovesFor R files files :=
  fun _ _ hstat => .inl hstat

theorem RemovesFor.unlink (h : RemovesFor R files files')
    (hpath : ∀ status, files.stat path = some status → R path status) :
    RemovesFor R files (files'.unlink path) := by
  intro other status hstat
  by_cases hsame : other = path
  · subst hsame
    exact .inr ⟨stat_unlink other, hpath status hstat⟩
  · rw [stat_unlink_ne hsame]
    exact h other status hstat

variable {codec : StorageCodec} {sweep : SweepInput}

theorem keepsStage_false {status : FileStatus} {owner : Option Uuid}
    (h : ¬ keepsStage sweep status owner = true) :
    status.mtime ≤ sweep.cutoff ∧ activeOwner sweep owner = false := by
  unfold keepsStage at h
  rw [Bool.or_eq_true, decide_eq_true_eq, not_or, Int.not_lt] at h
  exact ⟨h.1, Bool.eq_false_iff.2 h.2⟩

theorem scanRootEntry_reason (files : FileSystem) (name : Name) :
    RemovesFor (Reason sweep (.entry files name)) files (scanRootEntry sweep files name) := by
  unfold scanRootEntry
  split
  · next owner status hname hstat =>
    split
    · exact .refl files
    · next hkeep =>
      refine (RemovesFor.refl files).unlink fun status' hstat' => ?_
      obtain rfl := Option.some.inj (hstat'.symm.trans hstat)
      obtain ⟨hage, hidle⟩ := keepsStage_false hkeep
      exact .stage owner hname hage hidle
  · exact .refl files

theorem recoverFile_reason (files : FileSystem) (kind : FileKind) (objectKey : String) :
    RemovesFor (Reason sweep (.record files (.file kind objectKey))) files
      (recoverFile sweep files kind objectKey).2 := by
  unfold recoverFile
  split
  · exact .refl files
  · next parts hparts =>
    split
    · exact .refl files
    · next status hstat =>
      split
      · exact .refl files
      · next hage =>
        have hold := Int.not_lt.1 hage
        cases kind with
        | stage =>
            dsimp only
            split
            · exact .refl files
            · next owner hname =>
              split
              · exact .refl files
              · next hactive =>
                refine (RemovesFor.refl files).unlink fun status' hstat' => ?_
                obtain rfl := Option.some.inj (hstat'.symm.trans hstat)
                exact .stage owner hname hold (Bool.eq_false_iff.2 hactive)
        | artifact =>
            dsimp only
            split
            · exact .refl files
            · next artifact hartifact =>
              split
              · exact .refl files
              · next hkeep =>
                rw [Bool.or_eq_true, decide_eq_true_eq, not_or] at hkeep
                refine (RemovesFor.refl files).unlink fun status' hstat' => ?_
                obtain rfl := Option.some.inj (hstat'.symm.trans hstat)
                exact .artifact objectKey artifact hparts hartifact hkeep.1
                  (Bool.eq_false_iff.2 hkeep.2) hold nofun

/-- The removals of an identified record: its stage file where the object key is taken, the stage
file that is left alone, and the artifact. -/
theorem recoverIdentified_removes {objectKey : String} {parts stageParts : Path}
    {stageOwner : Option Uuid} {source : SourceIdentity}
    (hsuperseded : ∀ canonical status, files.stat parts = some canonical →
      files.stat stageParts = some status → isOwned source (some status) = true →
      R stageParts status)
    (hstage : ∀ status, files.stat stageParts = some status →
      ¬ keepsStage sweep status stageOwner = true → R stageParts status)
    (hartifact : ∀ artifact canonical, artifactMatch objectKey = some artifact →
      files.stat parts = some canonical → isOwned source (some canonical) = true →
      objectKey ∉ sweep.referencedArtifactKeys → activeBuild sweep artifact = false →
      canonical.mtime ≤ sweep.cutoff → R parts canonical) :
    RemovesFor R files
      (recoverIdentified sweep files objectKey parts stageParts stageOwner source).2 := by
  have hstaged : ∀ canonical, files.stat parts = some canonical →
      isOwned source (files.stat stageParts) = true →
      RemovesFor R files (files.unlink stageParts) := by
    intro canonical hcanonical howned
    refine (RemovesFor.refl files).unlink fun status hstat => ?_
    exact hsuperseded canonical status hcanonical hstat (hstat ▸ howned)
  unfold recoverIdentified
  split
  · next canonical hcanonical =>
    split
    · split
      · next howned => exact hstaged canonical hcanonical howned
      · split <;> exact .refl files
    · next hown =>
      rw [Bool.not_eq_true', Bool.not_eq_false] at hown
      split
      · exact .refl files
      · have hreleased : RemovesFor R files (if isOwned source (files.stat stageParts) then
            files.unlink stageParts else files) := by
          split
          · next howned => exact hstaged canonical hcanonical howned
          · exact .refl files
        dsimp only
        split
        · exact hreleased
        · next artifact hmatch =>
          split
          · exact .refl files
          · next hkeep =>
            rw [Bool.or_eq_true, Bool.or_eq_true, decide_eq_true_eq, decide_eq_true_eq, not_or,
              not_or, Int.not_lt] at hkeep
            refine hreleased.unlink fun status hstat => ?_
            obtain rfl := Option.some.inj (hstat.symm.trans hcanonical)
            exact hartifact artifact status hmatch hstat hown hkeep.1.1
              (Bool.eq_false_iff.2 hkeep.1.2) hkeep.2
  · exact .refl files
  · next staged _ hstat =>
    split
    · exact .refl files
    · split
      · exact .refl files
      · next hkeep =>
        refine (RemovesFor.refl files).unlink fun status hstat' => ?_
        obtain rfl := Option.some.inj (hstat'.symm.trans hstat)
        exact hstage status hstat hkeep

theorem recoverPublication_reason (files : FileSystem) (record : PublicationRecord) :
    RemovesFor (Reason sweep (.record files (.publication record))) files
      (recoverPublication codec sweep files record).2 := by
  unfold recoverPublication
  split
  · next parts stageParts hparts hstageParts =>
    split
    · exact .refl files
    · split
      · exact .refl files
      · next owner hname =>
        have hstage : ∀ status, ¬ keepsStage sweep status owner = true →
            Reason sweep (.record files (.publication record)) stageParts status := by
          intro status hkeep
          obtain ⟨hage, hidle⟩ := keepsStage_false hkeep
          exact .stage owner hname hage hidle
        split
        · exact .refl files
        · next source hsource _ =>
          apply recoverIdentified_removes
          · intro canonical status hcanonical _ howned
            exact .superseded record source parts rfl hsource hstageParts
              (congrArg Option.isSome hname) hparts (congrArg Option.isSome hcanonical) howned
          · exact fun status _ hkeep => hstage status hkeep
          · intro artifact canonical hartifact _ howned hfree hidle hage
            refine .artifact record.objectKey artifact hparts hartifact hfree hidle hage ?_
            rintro _ ⟨⟩
            exact ⟨source, hsource, howned⟩
        · exact .refl files
        · next staged hstat _ =>
          split
          · exact .refl files
          · split
            · exact .refl files
            · next hkeep =>
              refine (RemovesFor.refl files).unlink fun status hstat' => ?_
              obtain rfl := Option.some.inj (hstat'.symm.trans hstat)
              exact hstage status hkeep
  · exact .refl files

/-- A step of a sweep that is no recovery of a quarantine removes for a reason. -/
theorem Swept.removes (swept : Swept) (hkind : swept.isQuarantine = false) :
    RemovesFor (Reason sweep swept) swept.before (swept.after codec sweep) := by
  cases swept with
  | entry files name => exact scanRootEntry_reason files name
  | record files body =>
      cases body with
      | publication record => exact recoverPublication_reason files record
      | file kind objectKey => exact recoverFile_reason files kind objectKey
      | quarantine objectKey quarantineId next => cases hkind
      | unknown => exact .refl files

/-- A sweep changes files only in the steps of `sweptBy`, one after the other; apart from the
recovery of quarantines, each of them leaves every file its name and status, or removes the name
for one of the three reasons. -/
theorem sweep_removes_for_reason (limits : QueueLimits) (codec : StorageCodec) (sweep : SweepInput)
    (root : DataRoot) :
    SweptFrom codec sweep root.files (sweptBy limits codec sweep root)
        (rootAfter (sweepAbandoned limits codec sweep) root).files ∧
      ∀ swept ∈ sweptBy limits codec sweep root, swept.isQuarantine = false →
        RemovesFor (Reason sweep swept) swept.before (swept.after codec sweep) := by
  exact ⟨sweep_follows, fun swept _ hkind => swept.removes hkind⟩

end Reasons

end WheelForge.Storage
