import WheelForge.Api.DownloadTransactions

/-!
# The lease of an active download

A clean-up holds the rows that it claimed, and a ticket is issued under the lock of its row, so what
the claim found stays true until the object is deleted (`RetentionInv`). When every claim sees the
tickets that are in their lease, no object is deleted within the lease of an uncompleted ticket;
no ticket is ever issued for a cleaned artifact (`retention_respects_lease`). A read view that is
older than a ticket breaks the lease (`stale_view_deletes`).
-/

set_option autoImplicit false

namespace WheelForge.Api

open WheelForge.Jobs
open WheelForge.Relational
open WheelForge.Transition

/-! ## The invariant -/

section Invariant

variable (job : RetentionJob)

/-- A transaction has the lock of a row and its current version. -/
def Holds (w : RetentionWorld) (i : Nat) (artifact : ArtifactRow) : Prop :=
  w.locks artifact.id = some i ∧ w.artifacts.find? artifact.id = some artifact

/-- The ticket of no uncompleted download is in its lease. -/
def NoActive (w : RetentionWorld) (now : DateTime) (artifact : ArtifactRow) : Prop :=
  ∀ record ∈ w.records, record.isActive artifact.id (job.cutoff now) = false

/-- What a claimed artifact has until the clean-up ends. -/
def Claimed (w : RetentionWorld) (i : Nat) (now : DateTime) (artifact : ArtifactRow) : Prop :=
  Holds w i artifact ∧ NoActive job w now artifact

def DownloadOk (w : RetentionWorld) (i : Nat) : DownloadPhase → Prop
  | .locked artifact => Holds w i artifact
  | .prepared artifact record =>
      Holds w i artifact ∧ artifact.cleanedAt = none ∧ record.artifactId = artifact.id
  | _ => True

def CleanupOk (w : RetentionWorld) (i : Nat) : CleanupPhase → Prop
  | .claiming now claimed => now ≤ w.clock ∧ ∀ artifact ∈ claimed, Claimed job w i now artifact
  | .deleting now waiting cleaned =>
      now ≤ w.clock ∧ ∀ artifact ∈ waiting ++ cleaned, Claimed job w i now artifact
  | _ => True

def RetentionOk (w : RetentionWorld) (i : Nat) : RetentionTransaction → Prop
  | .download d => DownloadOk w i d.phase
  | .cleanup c => CleanupOk job w i c.phase
  | .stream _ => True

structure RetentionInv (w : RetentionWorld) : Prop where
  keys : UniqueKeys w.artifacts
  transactions : ∀ i t, w.transactions i = some t → RetentionOk job w i t

end Invariant

/-! ## What a step leaves to the other transactions -/

/-- A step of `i`, or of no transaction, as the others see it. -/
structure Frame (w w' : RetentionWorld) (i : Option Nat) : Prop where
  clock : w.clock ≤ w'.clock
  locks : ∀ j k, i ≠ some j → w.locks k = some j → w'.locks k = some j
  rows : ∀ j k artifact, i ≠ some j → w.locks k = some j → w.artifacts.find? k = some artifact →
    w'.artifacts.find? k = some artifact
  records : ∀ j record, i ≠ some j → record ∈ w'.records → record.completed = false →
    w.locks record.artifactId = some j → record ∈ w.records

section Frames

variable {job : RetentionJob} {w w' : RetentionWorld} {i : Option Nat} {j : Nat} {now : DateTime}
  {artifact : ArtifactRow} {t : RetentionTransaction}

theorem Holds.frame (h : Holds w j artifact) (hf : Frame w w' i) (hne : i ≠ some j) :
    Holds w' j artifact :=
  ⟨hf.locks j _ hne h.1, hf.rows j _ _ hne h.1 h.2⟩

theorem Claimed.frame (h : Claimed job w j now artifact) (hf : Frame w w' i)
    (hne : i ≠ some j) : Claimed job w' j now artifact := by
  refine ⟨h.1.frame hf hne, fun record hrecord => ?_⟩
  cases hactive : record.isActive artifact.id (job.cutoff now) with
  | false => rfl
  | true =>
      -- an active record of a row that `j` has locked was there before
      obtain ⟨hartifact, hcompleted, -⟩ := DownloadRecord.isActive_eq_true.1 hactive
      have hold := hf.records j record hne hrecord hcompleted (hartifact ▸ h.1.1)
      exact absurd (hactive.symm.trans (h.2 record hold)) nofun

theorem RetentionOk.frame (h : RetentionOk job w j t) (hf : Frame w w' i)
    (hne : i ≠ some j) : RetentionOk job w' j t := by
  cases t with
  | stream s => trivial
  | download d =>
      obtain ⟨_, _, _, _, _, phase⟩ := d
      cases phase with
      | locked artifact => exact Holds.frame h hf hne
      | prepared artifact record => exact ⟨Holds.frame h.1 hf hne, h.2⟩
      | begun => trivial
      | committed ticket => trivial
      | rolledBack => trivial
  | cleanup c =>
      obtain ⟨_, phase⟩ := c
      cases phase with
      | claiming now claimed =>
          exact ⟨h.1.trans hf.clock, fun artifact ha => (h.2 artifact ha).frame hf hne⟩
      | deleting now waiting cleaned =>
          exact ⟨h.1.trans hf.clock, fun artifact ha => (h.2 artifact ha).frame hf hne⟩
      | begun => trivial
      | enabled => trivial
      | ended => trivial

theorem Frame.refl (w : RetentionWorld) (i : Option Nat) : Frame w w i :=
  ⟨le_rfl, fun _ _ _ h => h, fun _ _ _ _ _ h => h, fun _ _ _ h _ _ => h⟩

/-- A step that changes neither rows nor locks. -/
theorem Frame.of_eq (hclock : w.clock ≤ w'.clock) (hlocks : w'.locks = w.locks)
    (hartifacts : w'.artifacts = w.artifacts) (hrecords : w'.records = w.records) :
    Frame w w' i where
  clock := hclock
  locks j k _ h := by rw [hlocks, h]
  rows j k artifact _ _ h := by rw [hartifacts, h]
  records j record _ h _ _ := hrecords ▸ h

/-- A transaction that ends gives back only its own locks. -/
theorem Frame.release {i : Nat} (hf : Frame w w' (some i)) :
    Frame w { w' with locks := w'.locks.release i } (some i) where
  clock := hf.clock
  locks j k hne h := RowLocks.release_other (fun heq => hne (heq ▸ rfl)) (hf.locks j k hne h)
  rows := hf.rows
  records := hf.records

/-- The invariant after a step of one transaction. -/
theorem RetentionInv.setTransaction {i : Nat} (h : RetentionInv job w)
    (hf : Frame w w' (some i)) (htransactions : w'.transactions = w.transactions)
    (hkeys : UniqueKeys w'.artifacts) (ht : RetentionOk job w' i t) :
    RetentionInv job (w'.setTransaction i t) where
  keys := hkeys
  transactions := by
    show ∀ j u, Function.update w'.transactions i (some t) j = some u → RetentionOk job w' j u
    rw [htransactions]
    exact forall_update ht fun j u hne hj =>
      (h.transactions j u hj).frame hf fun heq => hne (Option.some.inj heq).symm

/-- The invariant after the last step of a transaction. -/
theorem RetentionInv.finish {i : Nat} (h : RetentionInv job w) (hf : Frame w w' (some i))
    (htransactions : w'.transactions = w.transactions) (hkeys : UniqueKeys w'.artifacts)
    (ht : ∀ w, RetentionOk job w i t) : RetentionInv job (w'.finish i t) :=
  h.setTransaction hf.release htransactions hkeys (ht _)

/-- The invariant after a step of no transaction. -/
theorem RetentionInv.other (h : RetentionInv job w) (hf : Frame w w' none)
    (htransactions : w'.transactions = w.transactions) (hkeys : UniqueKeys w'.artifacts) :
    RetentionInv job w' where
  keys := hkeys
  transactions j u hj :=
    (h.transactions j u (htransactions ▸ hj)).frame hf nofun

end Frames

/-! ## Object keys -/

section Keys

variable {artifacts artifacts' : Table ArtifactRow} {artifact : ArtifactRow}

/-- Every row has the id and the object key of an earlier row. -/
def KeysFrom (artifacts artifacts' : Table ArtifactRow) : Prop :=
  ∀ b ∈ artifacts', ∃ a ∈ artifacts, a.id = b.id ∧ a.objectKey = b.objectKey

theorem UniqueKeys.of_keysFrom (h : UniqueKeys artifacts) (hfrom : KeysFrom artifacts artifacts') :
    UniqueKeys artifacts' := by
  intro b hb b' hb' hkey
  obtain ⟨a, ha, hid, hobject⟩ := hfrom b hb
  obtain ⟨a', ha', hid', hobject'⟩ := hfrom b' hb'
  have hsame := h a ha a' ha' (by rw [hobject, hobject', hkey])
  exact Table.eq_of_key_eq hb hb' (by rw [key_artifact, key_artifact, ← hid, ← hid', hsame])

theorem KeysFrom.replace (h : KeysFrom artifacts artifacts')
    (hrow : ∃ a ∈ artifacts, a.id = artifact.id ∧ a.objectKey = artifact.objectKey) :
    KeysFrom artifacts (artifacts'.replace artifact) := by
  intro b hb
  obtain ⟨hold, -⟩ | ⟨rfl, -⟩ := Table.mem_replace.1 hb
  · exact h b hold
  · exact hrow

theorem keysFrom_markCleaned {cleaned : List ArtifactRow} {now : DateTime}
    (h : KeysFrom artifacts artifacts') (hcleaned : ∀ artifact ∈ cleaned, artifact ∈ artifacts) :
    KeysFrom artifacts (cleaned.foldl (fun artifacts artifact =>
      artifacts.replace (markCleaned artifact now)) artifacts') := by
  induction cleaned generalizing artifacts' with
  | nil => exact h
  | cons artifact rest ih =>
      refine ih (h.replace ⟨artifact, hcleaned _ List.mem_cons_self, rfl, rfl⟩) ?_
      exact fun a ha => hcleaned a (List.mem_cons_of_mem _ ha)

/-- The rows of other artifacts stay as they are. -/
theorem find?_markCleaned {cleaned : List ArtifactRow} {now : DateTime} {k : Uuid}
    (h : ∀ artifact ∈ cleaned, k ≠ artifact.id) :
    (cleaned.foldl (fun artifacts artifact => artifacts.replace (markCleaned artifact now))
      artifacts).find? k = artifacts.find? k := by
  induction cleaned generalizing artifacts with
  | nil => rfl
  | cons artifact rest ih =>
      refine (ih fun a ha => h a (List.mem_cons_of_mem _ ha)).trans ?_
      exact Table.find?_replace_ne (h artifact List.mem_cons_self)

theorem keysFrom_refl : KeysFrom artifacts artifacts := fun b hb => ⟨b, hb, rfl, rfl⟩

end Keys

/-! ## The steps -/

section Steps

variable {job : RetentionJob} {owners : Uuid → Option Uuid} {w : RetentionWorld} {i : Nat}

theorem RetentionInv.download {d : Download} (h : RetentionInv job w)
    (hi : w.transactions i = some (.download d)) (s : DownloadStatement) :
    RetentionInv job (s.perform owners w i d) := by
  have hok : DownloadOk w i d.phase := h.transactions i _ hi
  cases s with
  | lock =>
      simp only [DownloadStatement.perform]
      split
      · next hphase hfree =>
        split
        · next artifact hfound =>
          obtain ⟨hfind, -⟩ := Option.filter_eq_some_iff.1 hfound
          have hid : artifact.id = d.artifactId := Table.key_of_find? hfind
          refine h.setTransaction ⟨le_rfl, fun j k _ hk => RowLocks.acquire_other hfree hk,
            fun _ _ _ _ _ hrow => hrow, fun _ _ _ hr _ _ => hr⟩ rfl h.keys ⟨?_, ?_⟩
          · rw [hid]
            exact RowLocks.acquire_self
          · rw [hid]
            exact hfind
        · exact h.finish (Frame.refl w _) rfl h.keys fun _ => trivial
      · exact h
  | check =>
      simp only [DownloadStatement.perform]
      split
      · next artifact hphase =>
        rw [hphase] at hok
        split
        · next havailable =>
          exact h.setTransaction (Frame.refl w _) rfl h.keys
            ⟨hok, (isAvailable_eq_true.1 havailable).2, rfl⟩
        · exact h.finish (Frame.refl w _) rfl h.keys fun _ => trivial
      · exact h
  | commit =>
      simp only [DownloadStatement.perform]
      split
      · next artifact record hphase =>
        rw [hphase] at hok
        obtain ⟨⟨hlock, hrow⟩, -, hrecord⟩ := hok
        split
        · next records hinsert =>
          refine h.finish ⟨le_rfl, fun _ _ _ hk => hk, fun j k other hne hk hother => ?_,
            fun j r hne hr _ hk => ?_⟩ rfl ?_ fun _ => trivial
          · -- the row of a lock of `j` is another row
            refine (Table.find?_replace_ne ?_).trans hother
            rintro rfl
            exact hne (hlock.symm.trans hk)
          · obtain hr | rfl := (Table.mem_of_insert? hinsert).1 hr
            · exact hr
            · rw [hrecord] at hk
              exact absurd (hlock.symm.trans hk) hne
          · exact h.keys.of_keysFrom (keysFrom_refl.replace
              ⟨artifact, Table.mem_of_find? hrow, rfl, rfl⟩)
        · exact h.finish (Frame.refl w _) rfl h.keys fun _ => trivial
      · exact h
  | rollback =>
      simp only [DownloadStatement.perform]
      split
      · exact h
      · exact h.finish (Frame.refl w _) rfl h.keys fun _ => trivial

theorem RetentionInv.stream {t : Stream} (h : RetentionInv job w) (s : StreamStatement) :
    RetentionInv job (s.perform w i t) := by
  cases s with
  | find =>
      simp only [StreamStatement.perform]
      split
      · exact h.setTransaction (Frame.refl w _) rfl h.keys trivial
      · exact h
  | openObject =>
      simp only [StreamStatement.perform]
      split
      · exact h.setTransaction (Frame.refl w _) rfl h.keys trivial
      · exact h
  | complete =>
      simp only [StreamStatement.perform]
      split
      · refine h.setTransaction ⟨le_rfl, fun _ _ _ hk => hk, fun _ _ _ _ _ hrow => hrow,
          fun j r _ hr hcompleted _ => ?_⟩ rfl h.keys trivial
        -- the completed record is the only new row
        obtain ⟨hr, -⟩ | ⟨rfl, -⟩ := Table.mem_replace.1 hr
        · exact hr
        · cases hcompleted
      · exact h
  | rollback => exact h.setTransaction (Frame.refl w _) rfl h.keys trivial

theorem Claimed.acquire {now : DateTime} {artifact : ArtifactRow} {k : Uuid}
    (h : Claimed job w i now artifact) (hfree : w.locks k = none) :
    Claimed job { w with locks := w.locks.acquire k i } i now artifact :=
  ⟨⟨RowLocks.acquire_other hfree h.1.1, h.1.2⟩, h.2⟩

/-- A claim that sees the tickets in their lease selects a row without any. -/
theorem RetentionInv.claimRow {c : Cleanup} {now : DateTime} {claimed : List ArtifactRow}
    {artifact : ArtifactRow} (h : RetentionInv job w)
    (hok : now ≤ w.clock ∧ ∀ artifact ∈ claimed, Claimed job w i now artifact)
    (hfree : w.locks artifact.id = none) (hrow : w.artifacts.find? artifact.id = some artifact)
    (hvisible : ∀ view, c.view = some view → ∀ record ∈ w.records,
      record.isActive artifact.id (job.cutoff now) = true → record ∈ view) :
    RetentionInv job (claimRow job w i c now claimed artifact) := by
  rw [Api.claimRow]
  split
  · dsimp only
    split
    · exact h.setTransaction (Frame.refl w _) rfl h.keys hok
    · next hsubquery =>
      have hnone : NoActive job w now artifact := by
        intro record hrecord
        cases hactive : record.isActive artifact.id (job.cutoff now) with
        | false => rfl
        | true =>
            refine absurd (List.any_eq_true.2 ⟨record, ?_, hactive⟩) hsubquery
            cases hview : c.view with
            | none => exact hrecord
            | some view => exact hvisible view hview record hrecord hactive
      refine h.setTransaction ⟨le_rfl, fun j k _ hk => RowLocks.acquire_other hfree hk,
        fun _ _ _ _ _ hother => hother, fun _ _ _ hr _ _ => hr⟩ rfl h.keys ⟨hok.1, ?_⟩
      intro other hother
      obtain hclaimed | hself := List.mem_append.1 hother
      · exact (hok.2 other hclaimed).acquire hfree
      · obtain rfl := List.mem_singleton.1 hself
        exact ⟨⟨RowLocks.acquire_self, hrow⟩, hnone⟩
  · exact h

theorem RetentionInv.cleanup {c : Cleanup} (h : RetentionInv job w)
    (hi : w.transactions i = some (.cleanup c)) {s : CleanupStatement}
    (hvisible : TicketsVisible job w (.cleanup i s)) :
    RetentionInv job (s.perform job w i c) := by
  have hok : CleanupOk job w i c.phase := h.transactions i _ hi
  cases s with
  | readConfig enabled =>
      simp only [CleanupStatement.perform]
      split
      · split
        · exact h.setTransaction (Frame.refl w _) rfl h.keys (by cases enabled <;> trivial)
        · exact h.setTransaction (Frame.refl w _) rfl h.keys trivial
      · exact h
  | readClock =>
      simp only [CleanupStatement.perform]
      split
      · exact h.setTransaction (Frame.refl w _) rfl h.keys ⟨le_rfl, nofun⟩
      · exact h
  | claim artifactId =>
      simp only [CleanupStatement.perform]
      split
      · next now claimed artifact hphase hfree hrow =>
        rw [hphase] at hok
        obtain rfl : artifact.id = artifactId := Table.key_of_find? hrow
        exact h.claimRow hok hfree hrow fun view hview => hvisible c now claimed view hi hphase hview
      · exact h
  | endClaim =>
      simp only [CleanupStatement.perform]
      split
      · next now claimed hphase =>
        rw [hphase] at hok
        exact h.setTransaction (Frame.refl w _) rfl h.keys
          ⟨hok.1, fun artifact ha => hok.2 artifact (by rwa [List.append_nil] at ha)⟩
      · exact h
  | delete raises =>
      simp only [CleanupStatement.perform]
      split
      · next now artifact waiting cleaned hphase =>
        rw [hphase] at hok
        split
        · refine h.setTransaction (Frame.refl w _) rfl h.keys ⟨hok.1, fun other ha => ?_⟩
          exact hok.2 other (List.mem_cons_of_mem _ ha)
        · refine h.setTransaction (Frame.of_eq le_rfl rfl rfl rfl) rfl h.keys
            ⟨hok.1, fun other ha => ?_⟩
          refine hok.2 other ?_
          simp only [List.mem_append, List.cons_append, List.mem_cons] at ha ⊢
          tauto
      · exact h
  | commit =>
      simp only [CleanupStatement.perform]
      split
      · next now cleaned hphase =>
        rw [hphase] at hok
        refine h.finish ⟨le_rfl, fun _ _ _ hk => hk, fun j k other hne hk hother => ?_,
          fun _ _ _ hr _ _ => hr⟩ rfl ?_ fun _ => trivial
        · refine (find?_markCleaned fun artifact ha => ?_).trans hother
          rintro rfl
          exact hne ((hok.2 artifact ha).1.1.symm.trans hk)
        · exact h.keys.of_keysFrom (keysFrom_markCleaned keysFrom_refl fun artifact ha =>
            Table.mem_of_find? (hok.2 artifact ha).1.2)
      · exact h
  | rollback => exact h.finish (Frame.refl w _) rfl h.keys fun _ => trivial

theorem RetentionInv.begin {t : RetentionTransaction} (h : RetentionInv job w)
    (ht : RetentionOk job w i t) : RetentionInv job (beginTransaction w i t) := by
  rw [beginTransaction]
  split
  · exact h.setTransaction (Frame.refl w _) rfl h.keys ht
  · exact h

theorem RetentionInv.publish {artifact : ArtifactRow} (h : RetentionInv job w) :
    RetentionInv job (RetentionAction.perform job owners w (.publish artifact)) := by
  simp only [RetentionAction.perform]
  split
  · exact h
  · next hkey =>
    split
    · next artifacts hinsert =>
      refine h.other ⟨le_rfl, fun _ _ _ hk => hk, fun j k other _ _ hother => ?_,
        fun _ _ _ hr _ _ => hr⟩ rfl ?_
      · rw [Table.find?_of_insert? hinsert, if_neg ?_, hother]
        rintro rfl
        cases (Table.insert?_eq_some hinsert).1.symm.trans hother
      · have hfresh : ∀ a ∈ w.artifacts, a.objectKey ≠ artifact.objectKey := fun a ha heq =>
          hkey (List.any_eq_true.2 ⟨a, ha, decide_eq_true heq⟩)
        intro a ha b hb hsame
        obtain hold | rfl := (Table.mem_of_insert? hinsert).1 ha
        · obtain hold' | rfl := (Table.mem_of_insert? hinsert).1 hb
          · exact h.keys a hold b hold' hsame
          · exact absurd hsame (hfresh a hold)
        · obtain hold' | rfl := (Table.mem_of_insert? hinsert).1 hb
          · exact absurd hsame.symm (hfresh b hold')
          · rfl
    · exact h

theorem RetentionInv.step (h : RetentionInv job w) {a : RetentionAction}
    (henabled : a.Enabled w) (hvisible : TicketsVisible job w a) :
    RetentionInv job (a.perform job owners w) := by
  cases a with
  | tick now => exact h.other (Frame.of_eq henabled rfl rfl rfl) rfl h.keys
  | publish artifact => exact h.publish
  | otherObjects objects => exact h.other (Frame.of_eq le_rfl rfl rfl rfl) rfl h.keys
  | beginDownload i userId artifactId ipAddress userAgent recordId => exact h.begin trivial
  | beginCleanup i scheduled => exact h.begin (by cases scheduled <;> trivial)
  | beginStream i ticket => exact h.begin trivial
  | download i s =>
      simp only [RetentionAction.perform]
      split
      · next hi => exact h.download hi s
      · exact h
  | cleanup i s =>
      simp only [RetentionAction.perform]
      split
      · next hi => exact h.cleanup hi hvisible
      · exact h
  | stream i s =>
      simp only [RetentionAction.perform]
      split
      · exact h.stream s
      · exact h

theorem retentionInv_of_reachable
    (h : (retentionSystem job owners).Reachable (TicketsVisible job) w) : RetentionInv job w := by
  refine h.invariant (P := RetentionInv job) ?_ ?_
  · rintro s ⟨hkeys, -, htransactions⟩
    exact ⟨hkeys, fun i t hi => absurd (htransactions ▸ hi) nofun⟩
  · rintro s a t hs hvisible ⟨henabled, rfl⟩
    exact hs.step henabled hvisible

end Steps

/-! ## Deletions and tickets -/

section Results

variable {job : RetentionJob} {owners : Uuid → Option Uuid} {w : RetentionWorld} {i : Nat}

/-- Only the delete of a waiting artifact removes an object. -/
theorem objects_cleanup {c : Cleanup} {s : CleanupStatement} {key : String}
    (hbefore : w.objects key = true) (hafter : (s.perform job w i c).objects key = false) :
    ∃ now artifact waiting cleaned, c.phase = .deleting now (artifact :: waiting) cleaned ∧
      artifact.objectKey = key := by
  have hsame : (s.perform job w i c).objects ≠ w.objects := by
    intro heq
    rw [heq, hbefore] at hafter
    cases hafter
  cases s with
  | delete raises =>
      simp only [CleanupStatement.perform] at hafter
      split at hafter
      · next now artifact waiting cleaned hphase =>
        refine ⟨now, artifact, waiting, cleaned, hphase, ?_⟩
        split at hafter
        · cases hbefore.symm.trans hafter
        · by_contra hne
          have hkept : Function.update w.objects artifact.objectKey false key = w.objects key :=
            Function.update_of_ne (fun heq => hne heq.symm) ..
          cases hbefore.symm.trans (hkept.symm.trans hafter)
      · cases hbefore.symm.trans hafter
  | claim artifactId =>
      refine absurd ?_ hsame
      simp only [CleanupStatement.perform]
      split
      · rw [Api.claimRow]
        split
        · dsimp only
          split <;> rfl
        · rfl
      · rfl
  | readConfig enabled =>
      refine absurd ?_ hsame
      simp only [CleanupStatement.perform]
      split
      · split <;> rfl
      · rfl
  | readClock =>
      refine absurd ?_ hsame
      simp only [CleanupStatement.perform]
      split <;> rfl
  | endClaim =>
      refine absurd ?_ hsame
      simp only [CleanupStatement.perform]
      split <;> rfl
  | commit =>
      refine absurd ?_ hsame
      simp only [CleanupStatement.perform]
      split <;> rfl
  | rollback => exact absurd rfl hsame

/-- The clean-up removes an object only outside of the leases of its artifact. -/
theorem RetentionInv.delete_after_lease (h : RetentionInv job w) {s : CleanupStatement}
    {key : String} (hbefore : w.objects key = true)
    (hafter : (RetentionAction.perform job owners w (.cleanup i s)).objects key = false)
    {record : DownloadRecord} (hrecord : record ∈ w.records) (hcompleted : record.completed = false)
    {artifact : ArtifactRow} (hartifact : artifact ∈ w.artifacts)
    (hid : artifact.id = record.artifactId) (hkey : artifact.objectKey = key) :
    record.downloadedAt + seconds job.activeDownloadLeaseSeconds ≤ w.clock := by
  simp only [RetentionAction.perform] at hafter
  split at hafter
  · next c hi =>
    obtain ⟨now, claimed, waiting, cleaned, hphase, hclaimed⟩ := objects_cleanup hbefore hafter
    have hok : CleanupOk job w i c.phase := h.transactions i _ hi
    rw [hphase] at hok
    obtain ⟨⟨-, hrow⟩, hactive⟩ := hok.2 claimed List.mem_cons_self
    obtain rfl : claimed = artifact :=
      h.keys _ (Table.mem_of_find? hrow) _ hartifact (hclaimed.trans hkey.symm)
    have hinactive := hactive record hrecord
    have hcutoff : ¬ job.cutoff now < record.downloadedAt := fun hlease =>
      absurd (hinactive.symm.trans
        (DownloadRecord.isActive_eq_true.2 ⟨hid.symm, hcompleted, hlease⟩)) nofun
    exact (Int.add_le_of_le_sub_right (not_lt.1 hcutoff)).trans hok.1
  · cases hbefore.symm.trans hafter

theorem records_cleanup {c : Cleanup} {s : CleanupStatement} :
    (s.perform job w i c).records = w.records := by
  cases s with
  | claim artifactId =>
      simp only [CleanupStatement.perform]
      split
      · rw [Api.claimRow]
        split
        · dsimp only
          split <;> rfl
        · rfl
      · rfl
  | rollback => rfl
  | readConfig enabled =>
      simp only [CleanupStatement.perform]
      split
      · split <;> rfl
      · rfl
  | delete raises =>
      simp only [CleanupStatement.perform]
      split
      · split <;> rfl
      · rfl
  | readClock =>
      simp only [CleanupStatement.perform]
      split <;> rfl
  | endClaim =>
      simp only [CleanupStatement.perform]
      split <;> rfl
  | commit =>
      simp only [CleanupStatement.perform]
      split <;> rfl

/-- A stream completes a record that is there. -/
theorem records_stream {t : Stream} {s : StreamStatement} {record : DownloadRecord}
    (h : record ∈ (s.perform w i t).records) : ∃ old ∈ w.records, old.id = record.id := by
  cases s with
  | complete =>
      simp only [StreamStatement.perform] at h
      split at h
      · obtain ⟨hmem, -⟩ | ⟨rfl, hold⟩ := Table.mem_replace.1 h
        · exact ⟨record, hmem, rfl⟩
        · exact hold
      · exact ⟨record, h, rfl⟩
  | find =>
      simp only [StreamStatement.perform] at h
      split at h <;> exact ⟨record, h, rfl⟩
  | openObject =>
      simp only [StreamStatement.perform] at h
      split at h <;> exact ⟨record, h, rfl⟩
  | rollback => exact ⟨record, h, rfl⟩

/-- A download adds the record that it prepared. -/
theorem records_download {d : Download} {s : DownloadStatement} {record : DownloadRecord}
    (h : record ∈ (s.perform owners w i d).records) :
    record ∈ w.records ∨ ∃ artifact, d.phase = .prepared artifact record := by
  cases s with
  | commit =>
      simp only [DownloadStatement.perform] at h
      split at h
      · next artifact issued hphase =>
        split at h
        · next records hinsert =>
          obtain hmem | rfl := (Table.mem_of_insert? hinsert).1 h
          · exact Or.inl hmem
          · exact Or.inr ⟨artifact, hphase⟩
        · exact Or.inl h
      · exact Or.inl h
  | lock =>
      simp only [DownloadStatement.perform] at h
      split at h
      · split at h <;> exact Or.inl h
      · exact Or.inl h
  | check =>
      simp only [DownloadStatement.perform] at h
      split at h
      · split at h <;> exact Or.inl h
      · exact Or.inl h
  | rollback =>
      simp only [DownloadStatement.perform] at h
      split at h <;> exact Or.inl h

theorem records_begin {t : RetentionTransaction} :
    (beginTransaction w i t).records = w.records := by
  rw [beginTransaction]
  split <;> rfl

/-- A record that was not there was committed for an artifact that is not cleaned. -/
theorem RetentionInv.issued_uncleaned (h : RetentionInv job w) {a : RetentionAction}
    {record : DownloadRecord}
    (hrecord : record ∈ (RetentionAction.perform job owners w a).records)
    (hnew : ∀ old ∈ w.records, old.id ≠ record.id) {artifact : ArtifactRow}
    (hartifact : artifact ∈ w.artifacts) (hid : artifact.id = record.artifactId) :
    artifact.cleanedAt = none := by
  -- a record that an older row has the id of is not new
  have hold : record ∉ w.records := fun hmem => hnew record hmem rfl
  cases a with
  | download i s =>
      simp only [RetentionAction.perform] at hrecord
      split at hrecord
      · next d hi =>
        have hok : DownloadOk w i d.phase := h.transactions i _ hi
        obtain hmem | ⟨locked, hphase⟩ := records_download hrecord
        · exact absurd hmem hold
        · rw [hphase] at hok
          obtain ⟨⟨-, hrow⟩, hcleaned, hissued⟩ := hok
          obtain rfl : artifact = locked :=
            Table.eq_of_key_eq hartifact (Table.mem_of_find? hrow) (hid.trans hissued)
          exact hcleaned
      · exact absurd hrecord hold
  | stream i s =>
      simp only [RetentionAction.perform] at hrecord
      split at hrecord
      · obtain ⟨old, hmem, hsame⟩ := records_stream hrecord
        exact absurd hsame (hnew old hmem)
      · exact absurd hrecord hold
  | cleanup i s =>
      simp only [RetentionAction.perform] at hrecord
      split at hrecord
      · rw [records_cleanup] at hrecord
        exact absurd hrecord hold
      · exact absurd hrecord hold
  | publish artifact =>
      simp only [RetentionAction.perform] at hrecord
      split at hrecord
      · exact absurd hrecord hold
      · split at hrecord <;> exact absurd hrecord hold
  | tick now => exact absurd hrecord hold
  | otherObjects objects => exact absurd hrecord hold
  | beginDownload i userId artifactId ipAddress userAgent recordId =>
      exact absurd (records_begin ▸ hrecord) hold
  | beginCleanup i scheduled => exact absurd (records_begin ▸ hrecord) hold
  | beginStream i ticket => exact absurd (records_begin ▸ hrecord) hold

end Results

/-- In a run whose claims all see the tickets that are in their lease, a step of the clean-up that
removes an object is after the lease of every uncompleted ticket of its artifact, and a step that
issues a ticket finds its artifact not cleaned. -/
theorem retention_respects_lease (job : RetentionJob) (owners : Uuid → Option Uuid)
    {w w' : RetentionWorld} {a : RetentionAction}
    (h : (retentionSystem job owners).Reachable (TicketsVisible job) w)
    (hstep : (retentionSystem job owners).step w a w') :
    ((∃ i s, a = .cleanup i s) → ∀ key, w.objects key = true → w'.objects key = false →
      ∀ record ∈ w.records, record.completed = false → ∀ artifact ∈ w.artifacts,
        artifact.id = record.artifactId → artifact.objectKey = key →
          record.downloadedAt + seconds job.activeDownloadLeaseSeconds ≤ w.clock) ∧
    ∀ record ∈ w'.records, (∀ old ∈ w.records, old.id ≠ record.id) →
      ∀ artifact ∈ w.artifacts, artifact.id = record.artifactId → artifact.cleanedAt = none := by
  have hinv := retentionInv_of_reachable h
  obtain ⟨-, rfl⟩ := hstep
  refine ⟨?_, fun record hrecord hnew artifact hartifact hid =>
    hinv.issued_uncleaned hrecord hnew hartifact hid⟩
  rintro ⟨i, s, rfl⟩ key hbefore hafter record hrecord hcompleted artifact hartifact hid hkey
  exact hinv.delete_after_lease hbefore hafter hrecord hcompleted hartifact hid hkey

/-! ## A clean-up and a download -/

/-- The default settings, with the schedule switched on. -/
def defaultRetention : RetentionJob where
  batchSize := 100
  schedulingEnabled := true
  activeDownloadLeaseSeconds := 300
  batchSize_bounds := by decide
  lease_bounds := by decide

/-- An artifact that expires at 1000. -/
def expiringArtifact : ArtifactRow where
  id := "a"
  buildTaskId := "t"
  artifactType := "OFFLINE_ZIP"
  filename := "wheels.zip"
  objectKey := "artifacts/t/a.zip"
  sizeBytes := 4
  sha256 := "9f86d081884c7d659a2feaa0c55ad015a3bf4f1b2b0b822cd15d6c15b0f00a08"
  buildStatus := .success
  validationType := "STATIC"
  expiresAt := 1000
  downloadCount := 0
  cleanedAt := none
  createdAt := 0
  versionNo := 0

def storedWorld : RetentionWorld where
  clock := 998
  artifacts := ⟨[expiringArtifact], List.nodup_singleton _⟩
  records := Table.empty
  objects := fun key => key = "artifacts/t/a.zip"
  locks := fun _ => none
  transactions := fun _ => none

def taskOwner : Uuid → Option Uuid := fun taskId => if taskId = "t" then some "u" else none

/-- A ticket is issued at 999. -/
def prepareActions : List RetentionAction :=
  [.tick 999, .beginDownload 1 "u" "a" none none "r", .download 1 .lock, .download 1 .check,
    .download 1 .commit]

/-- The clean-up goes on at a time. -/
def cleanupActions (now : DateTime) : List RetentionAction :=
  [.tick now, .cleanup 0 .readClock, .cleanup 0 (.claim "a"), .cleanup 0 .endClaim]

/-- The scheduled clean-up reads the configuration before the ticket is issued. -/
def staleActions : List RetentionAction :=
  [.beginCleanup 0 true, .cleanup 0 (.readConfig true)] ++ prepareActions ++ cleanupActions 1000

/-- It begins once the ticket has been issued, and runs after its lease. -/
def freshActions : List RetentionAction :=
  prepareActions ++ [.beginCleanup 0 true, .cleanup 0 (.readConfig true)] ++
    cleanupActions 300000999

def storedWorldAfter (actions : List RetentionAction) : RetentionWorld :=
  actions.foldl (fun w a => a.perform defaultRetention taskOwner w) storedWorld

def deleteObject : RetentionAction := .cleanup 0 (.delete false)

def issuedRecord : DownloadRecord := downloadRecord "r" expiringArtifact "u" none none 999

theorem storedWorld_reachable {C : RetentionWorld → RetentionAction → Prop}
    {actions : List RetentionAction}
    (h : System.Along (fun w a => a.perform defaultRetention taskOwner w)
      (fun w a => C w a ∧ a.Enabled w) storedWorld actions) :
    (retentionSystem defaultRetention taskOwner).Reachable C (storedWorldAfter actions) := by
  have hstep : ∀ (w : RetentionWorld) (a : RetentionAction), (C w a ∧ a.Enabled w) →
      C w a ∧ (retentionSystem defaultRetention taskOwner).step w a
        (a.perform defaultRetention taskOwner w) := fun _ _ ha => ⟨ha.1, ha.2, rfl⟩
  refine System.Reachable.foldl hstep (System.Reachable.of_init ⟨?_, rfl, rfl⟩) h
  intro a ha b hb _
  exact (List.mem_singleton.1 ha).trans (List.mem_singleton.1 hb).symm

theorem freshActions_visible :
    System.Along (fun w a => a.perform defaultRetention taskOwner w)
      (fun w a => TicketsVisible defaultRetention w a ∧ a.Enabled w) storedWorld freshActions := by
  have hlater : (999 : DateTime) ≤ 300000999 := by decide
  refine ⟨⟨trivial, ?_⟩, ⟨trivial, trivial⟩, ⟨trivial, trivial⟩, ⟨trivial, trivial⟩,
    ⟨trivial, trivial⟩, ⟨trivial, trivial⟩, ⟨trivial, trivial⟩, ⟨trivial, hlater⟩,
    ⟨trivial, trivial⟩, ⟨?_, trivial⟩, ⟨trivial, trivial⟩, trivial⟩
  · show (998 : DateTime) ≤ 999
    decide
  · intro c now claimed view hi hphase hview record hrecord _
    cases hi
    cases hview
    exact hrecord

theorem retention_respects_lease_fresh :
    issuedRecord.downloadedAt + seconds 300 ≤ (storedWorldAfter freshActions).clock := by
  have hreachable : (retentionSystem defaultRetention taskOwner).Reachable
      (TicketsVisible defaultRetention) (storedWorldAfter freshActions) :=
    storedWorld_reachable freshActions_visible
  have hstep : (retentionSystem defaultRetention taskOwner).step (storedWorldAfter freshActions)
      deleteObject (deleteObject.perform defaultRetention taskOwner
        (storedWorldAfter freshActions)) := ⟨trivial, rfl⟩
  exact (retention_respects_lease defaultRetention taskOwner hreachable hstep).1
    ⟨0, .delete false, rfl⟩ "artifacts/t/a.zip" rfl rfl issuedRecord List.mem_cons_self rfl
    (incrementDownloadCount expiringArtifact) List.mem_cons_self rfl rfl

/-- The clean-up deletes the object one microsecond after the ticket was issued. -/
theorem stale_view_deletes :
    (retentionSystem defaultRetention taskOwner).Reachable System.Any
        (storedWorldAfter staleActions) ∧
      (retentionSystem defaultRetention taskOwner).step (storedWorldAfter staleActions)
        deleteObject (deleteObject.perform defaultRetention taskOwner
          (storedWorldAfter staleActions)) ∧
      (storedWorldAfter staleActions).objects "artifacts/t/a.zip" = true ∧
      (deleteObject.perform defaultRetention taskOwner (storedWorldAfter staleActions)).objects
        "artifacts/t/a.zip" = false ∧
      issuedRecord ∈ (storedWorldAfter staleActions).records ∧ issuedRecord.completed = false ∧
      issuedRecord.artifactId = expiringArtifact.id ∧
      (storedWorldAfter staleActions).clock < issuedRecord.downloadedAt + seconds 300 := by
  refine ⟨storedWorld_reachable ?_, ⟨trivial, rfl⟩, rfl, rfl, List.mem_cons_self, rfl, rfl, ?_⟩
  · refine ⟨⟨trivial, trivial⟩, ⟨trivial, trivial⟩, ⟨trivial, ?_⟩, ⟨trivial, trivial⟩,
      ⟨trivial, trivial⟩, ⟨trivial, trivial⟩, ⟨trivial, trivial⟩, ⟨trivial, ?_⟩,
      ⟨trivial, trivial⟩, ⟨trivial, trivial⟩, ⟨trivial, trivial⟩, trivial⟩
    · show (998 : DateTime) ≤ 999
      decide
    · show (999 : DateTime) ≤ 1000
      decide
  · show (1000 : DateTime) < 999 + seconds 300
    decide

end WheelForge.Api
