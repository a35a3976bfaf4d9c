import Mathlib.Data.Int.LeastGreatest
import WheelForge.Python.Numbers
import WheelForge.Storage.PublicationSafety

/-!
# The minimum age of what maintenance deletes

`MaintenanceService` hands the sweeps a naive UTC cutoff, and the storage compares `st_mtime` with
`cutoff.timestamp()`, which reads a naive value as local time; both are floats. What a sweep deletes
is recorded step by step (`sweep_follows`); whether all of it is old enough depends on the UTC offset
of the host and on the rounding of the two floats, but for the stage files of superseded
publications (`maintenance_age_iff`).
-/

set_option autoImplicit false

namespace WheelForge.Storage

open WheelForge.Maintenance
open WheelForge.Python

/-! ## The service -/

/-- A host: the offset of its local time from UTC at a local time, in microseconds, and the floats
that Python makes of times. Both roundings keep the order, and overflow is left out: `st_mtime` is
bounded by no float. -/
structure Host where
  utcOffset : DateTime → Int
  /-- `st_mtime`, of an `st_mtime_ns`. -/
  stMtime : Int → ℚ
  /-- The seconds since the epoch, of a number of microseconds. -/
  secondsOf : Int → ℚ
  stMtime_mono : ∀ {ns ns' : Int}, ns ≤ ns' → stMtime ns ≤ stMtime ns'
  stMtime_above : ∀ x, ∃ ns, x < stMtime ns
  stMtime_below : ∀ x, ∃ ns, stMtime ns ≤ x
  secondsOf_mono : ∀ {us us' : Int}, us ≤ us' → secondsOf us ≤ secondsOf us'

/-- `datetime.timestamp()` of a naive value. -/
def Host.timestamp (host : Host) (naive : DateTime) : ℚ :=
  host.secondsOf (naive - host.utcOffset naive)

/-- The instant of a naive value in UTC, in the unit of `st_mtime_ns`. -/
def utcInstant (naive : DateTime) : Int := 1000 * naive

/-- The arguments of `MaintenanceService` that `_run_at` reads, as its constructor admits them. -/
structure MaintenanceService where
  minimumAge : Int
  minimumAge_ok : seconds 3600 ≤ minimumAge

namespace MaintenanceService

variable (service : MaintenanceService)

def cutoff (now : DateTime) : DateTime := now - service.minimumAge

/-- A sweep that `_run_at` calls: its limit is the last time whose float is not above that of the
cutoff. -/
def Sweeps (host : Host) (now : DateTime) (sweep : SweepInput) : Prop :=
  ∀ ns, ns ≤ sweep.cutoff ↔ host.stMtime ns ≤ host.timestamp (service.cutoff now)

end MaintenanceService

/-- Taken as UTC, a naive value is told apart from the nanosecond after it: the float of that one is
above `timestamp()`. -/
def Host.Separates (host : Host) (naive : DateTime) : Prop :=
  host.timestamp naive < host.stMtime (utcInstant naive + 1)

section Host

variable {host : Host} {service : MaintenanceService} {now : DateTime}

/-- Some time is the last whose float is not above a given one. -/
theorem Host.exists_limit (host : Host) (x : ℚ) :
    ∃ limit, ∀ ns, ns ≤ limit ↔ host.stMtime ns ≤ x := by
  obtain ⟨above, habove⟩ := host.stMtime_above x
  have hbounded : ∀ ns, host.stMtime ns ≤ x → ns ≤ above := by
    intro ns hns
    by_contra hlt
    exact absurd (host.stMtime_mono (not_le.1 hlt).le) (not_le.2 (lt_of_le_of_lt hns habove))
  obtain ⟨limit, hlimit, hlast⟩ := Int.exists_greatest_of_bdd ⟨above, hbounded⟩
    (host.stMtime_below x)
  exact ⟨limit, fun ns => ⟨fun hns => (host.stMtime_mono hns).trans hlimit, hlast ns⟩⟩

/-- Every sweep has a limit that `_run_at` gives it. -/
theorem MaintenanceService.exists_sweeps (service : MaintenanceService) (host : Host)
    (now : DateTime) (sweep : SweepInput) :
    ∃ limit, service.Sweeps host now { sweep with cutoff := limit } :=
  host.exists_limit _

/-- The limit of a sweep lies no later than the cutoff exactly where the cutoff is told apart from the
nanosecond after it. -/
theorem MaintenanceService.Sweeps.cutoff_le_iff {sweep : SweepInput}
    (h : service.Sweeps host now sweep) :
    sweep.cutoff ≤ utcInstant (service.cutoff now) ↔ host.Separates (service.cutoff now) := by
  unfold Host.Separates
  rw [← not_le, ← h]
  omega

/-- Where the floats tell the nanosecond after a value from the value, and the microsecond after it is
no earlier, the value is told apart exactly on hosts that are not behind UTC. -/
theorem Host.separates_iff {naive : DateTime}
    (hround : host.secondsOf naive < host.stMtime (utcInstant naive + 1))
    (hnext : host.stMtime (utcInstant naive + 1) ≤ host.secondsOf (naive + 1)) :
    host.Separates naive ↔ 0 ≤ host.utcOffset naive := by
  constructor
  · intro h
    by_contra hbehind
    have hlater : (naive + 1 : Int) ≤ naive - host.utcOffset naive :=
      Int.le_sub_left_of_add_le (by omega)
    exact absurd h (not_lt.2 (hnext.trans (host.secondsOf_mono hlater)))
  · intro hoffset
    have hearlier : (naive - host.utcOffset naive : Int) ≤ naive := Int.sub_le_self naive hoffset
    exact lt_of_le_of_lt (host.secondsOf_mono hearlier) hround

end Host

/-! ## What a sweep handles -/

/-- A record or a root entry, and the files when a sweep comes to it. -/
inductive Swept where
  | record (files : FileSystem) (body : QueueBody)
  | entry (files : FileSystem) (name : Name)

/-- `_scan_legacy_root_entries` on one entry. -/
def scanRootEntry (sweep : SweepInput) (files : FileSystem) (name : Name) : FileSystem :=
  match stageMatch name, files.stat [name] with
  | some owner, some status => if keepsStage sweep status owner then files else files.unlink [name]
  | _, _ => files

namespace Swept

variable (codec : StorageCodec) (sweep : SweepInput) (swept : Swept)

def before : FileSystem :=
  match swept with
  | record files _ => files
  | entry files _ => files

def after : FileSystem :=
  match swept with
  | record files body => (recoverRecord codec sweep files body).2
  | entry files name => scanRootEntry sweep files name

end Swept

/-- Every file whose name goes has a time of at most the limit. -/
def DeletesUpTo (limit : Int) (files files' : FileSystem) : Prop :=
  ∀ path status, files.stat path = some status → files'.stat path = none → status.mtime ≤ limit

/-- The stage file of a publication record that a sweep removes whatever its time: the record has
its snapshot, and the object key is taken by another file, or by the stage file itself where the
key is not that of a generated artifact. -/
def supersededStage (files : FileSystem) (body : QueueBody) : Option FileStatus :=
  match body with
  | .publication record =>
      match objectKeyParts record.objectKey, objectKeyParts record.stageObjectKey,
        record.source with
      | .ok parts, .ok stageParts, some source =>
          match files.stat parts, files.stat stageParts,
            stageMatch (stageParts.getLast?.getD []) with
          | some canonical, some staged, some _ =>
              if parts.dropLast = stageParts.dropLast ∧ isOwned source (some staged) = true ∧
                  (isOwned source (some canonical) = false ∨
                    (artifactMatch record.objectKey).isNone = true) then some staged
              else none
          | _, _, _ => none
      | _, _, _ => none
  | _ => none

namespace Swept

variable (swept : Swept)

def superseded : Option FileStatus :=
  match swept with
  | record files body => supersededStage files body
  | entry _ _ => none

/-- The record of a quarantine: its file is put back, not deleted. -/
def isQuarantine : Bool :=
  match swept with
  | record _ (.quarantine ..) => true
  | _ => false

end Swept

section Events

variable (limits : QueueLimits) (codec : StorageCodec) (sweep : SweepInput)

/-- What the loop over a lane handles. -/
def sweptInLane (lane : Lane) : Nat → SweepStats → DataRoot → List Swept
  | 0, _, _ => []
  | n + 1, stats, root =>
      if !budgetAvailable sweep stats (sweep.inTime lane n) then []
      else
        match nextItem limits sweep lane stats root with
        | .ok (some item, stats) root =>
            if sweep.budget.maxMutations < stats.mutations + mutationCost item.record.body then []
            else
              .record root.files item.record.body ::
                match processItem limits codec sweep item root with
                | .ok _ root => sweptInLane lane n (stats.processed item.record.body) root
                | .error _ _ => []
        | _ => []

/-- What the loop over the lanes handles. -/
def sweptInLanes (state : QueueState) : List Lane → SweepStats → DataRoot → List Swept
  | [], _, _ => []
  | lane :: lanes, stats, root =>
      sweptInLane limits codec sweep lane (state.lanes lane).count stats root ++
        match sweepLane limits codec sweep lane (state.lanes lane).count stats root with
        | .ok stats root =>
            if stats.budgetExhausted then [] else sweptInLanes state lanes stats root
        | .error _ _ => []

/-- What the scan of the root handles. -/
def sweptEntries (files : FileSystem) : List Name → List Swept
  | [] => []
  | name :: names => .entry files name :: sweptEntries (scanRootEntry sweep files name) names

/-- What `_sweep_abandoned_locked` handles, in order. -/
def sweptBy (root : DataRoot) : List Swept :=
  match onQueue (readState limits) root with
  | .error _ _ => []
  | .ok state root =>
      sweptInLanes limits codec sweep state [.ready, .deferred] ⟨0, 0, 0, false⟩ root ++
        match sweepLanes limits codec sweep state [.ready, .deferred] ⟨0, 0, 0, false⟩ root with
        | .error _ _ => []
        | .ok stats root =>
            if budgetAvailable sweep stats (sweep.inTime .held 0) then
              sweptEntries sweep root.files sweep.rootEntries
            else []

/-- Each step starts from the files that the one before it left. -/
def SweptFrom : FileSystem → List Swept → FileSystem → Prop
  | files, [], files' => files' = files
  | files, swept :: rest, files' =>
      swept.before = files ∧ SweptFrom (swept.after codec sweep) rest files'

end Events

section SweptFrom

variable {limits : QueueLimits} {codec : StorageCodec} {sweep : SweepInput} {root : DataRoot}

theorem SweptFrom.append {files files' files'' : FileSystem} {first second : List Swept}
    (h : SweptFrom codec sweep files first files') (h' : SweptFrom codec sweep files' second files'') :
    SweptFrom codec sweep files (first ++ second) files'' := by
  induction first generalizing files with
  | nil =>
      obtain rfl : files' = files := h
      exact h'
  | cons swept first ih => exact ⟨h.1, ih h.2⟩

theorem rootAfter_bind {α β : Type} (x : Gated α) (f : α → Gated β) :
    rootAfter (x >>= f) root =
      match x root with
      | .ok a r => rootAfter (f a) r
      | .error _ r => r := by
  show (match EStateM.bind x f root with
    | .ok _ r => r
    | .error _ r => r) = _
  unfold EStateM.bind
  cases x root <;> rfl

/-- A program of the queue leaves the files as they are. -/
theorem onQueue_files {α : Type} (p : QueueProgram QueueBody α) (root : DataRoot) :
    (rootAfter (onQueue p) root).files = root.files := by
  unfold rootAfter onQueue
  generalize run p root.queue = result
  rcases result with ⟨_ | _, _⟩ <;> rfl

theorem files_of_ok {α : Type} {x : Gated α} {a : α} {r : DataRoot} {files : FileSystem}
    (h : (rootAfter x root).files = files) (hx : x root = .ok a r) : r.files = files := by
  unfold rootAfter at h
  rw [hx] at h
  exact h

theorem onQueue_pure_files {α β : Type} (p : QueueProgram QueueBody α) (f : α → β)
    (root : DataRoot) :
    (rootAfter (onQueue p >>= fun a => pure (f a)) root).files = root.files := by
  have hp := onQueue_files p root
  rw [rootAfter_bind]
  unfold rootAfter at hp
  cases hx : onQueue p root with
  | ok a r =>
      rw [hx] at hp
      exact hp
  | error e r =>
      rw [hx] at hp
      exact hp

/-- The next record is found without touching the files. -/
theorem nextItem_files (limits : QueueLimits) (sweep : SweepInput) (lane : Lane)
    (stats : SweepStats) (root : DataRoot) :
    (rootAfter (nextItem limits sweep lane stats) root).files = root.files := by
  cases lane with
  | deferred => exact onQueue_pure_files _ _ _
  | ready => exact onQueue_pure_files _ _ _
  | held => exact onQueue_pure_files _ _ _

/-- The queue programs of a processed record change no file. -/
theorem processItem_apply (limits : QueueLimits) (codec : StorageCodec) (sweep : SweepInput)
    (item : QueueItem QueueBody) (root : DataRoot) :
    processItem limits codec sweep item root =
      (match (recoverRecord codec sweep root.files item.record.body).1 with
        | .done => onQueue (complete limits item)
        | .deferred => onQueue (queueMove limits codec.toQueueCodec item .deferred
            (some (deferredBody sweep item.record.body))) >>= fun _ => pure ()
        | .held => onQueue (queueMove limits codec.toQueueCodec item .held none) >>=
            fun _ => pure ())
        { root with files := (recoverRecord codec sweep root.files item.record.body).2 } := rfl

theorem processItem_files (limits : QueueLimits) (codec : StorageCodec) (sweep : SweepInput)
    (item : QueueItem QueueBody) (root : DataRoot) :
    (rootAfter (processItem limits codec sweep item) root).files =
      (recoverRecord codec sweep root.files item.record.body).2 := by
  unfold rootAfter
  rw [processItem_apply]
  generalize recoverRecord codec sweep root.files item.record.body = result
  cases result.1 with
  | done => exact onQueue_files _ _
  | deferred => exact onQueue_pure_files _ _ _
  | held => exact onQueue_pure_files _ _ _

theorem files_of_error {α : Type} {x : Gated α} {e : StorageError} {r : DataRoot}
    {files : FileSystem} (h : (rootAfter x root).files = files) (hx : x root = .error e r) :
    r.files = files := by
  unfold rootAfter at h
  rw [hx] at h
  exact h

theorem sweptInLane_follows (limits : QueueLimits) (codec : StorageCodec) (sweep : SweepInput)
    (lane : Lane) (n : Nat) (stats : SweepStats) (root : DataRoot) :
    SweptFrom codec sweep root.files (sweptInLane limits codec sweep lane n stats root)
      (rootAfter (sweepLane limits codec sweep lane n stats) root).files := by
  induction n generalizing root stats with
  | zero => rfl
  | succ n ih =>
      unfold sweptInLane sweepLane
      by_cases hbudget : (!budgetAvailable sweep stats (sweep.inTime lane n)) = true
      · rw [if_pos hbudget, if_pos hbudget]
        rfl
      · rw [if_neg hbudget, if_neg hbudget, rootAfter_bind]
        have hnext := nextItem_files limits sweep lane stats root
        cases hx : nextItem limits sweep lane stats root with
        | error e r => exact files_of_error hnext hx
        | ok next r =>
            have hr := files_of_ok hnext hx
            obtain ⟨item, stats⟩ := next
            cases item with
            | none => exact hr
            | some item =>
                dsimp only
                by_cases hcost : sweep.budget.maxMutations <
                    stats.mutations + mutationCost item.record.body
                · rw [if_pos hcost, if_pos hcost]
                  exact hr
                · rw [if_neg hcost, if_neg hcost, rootAfter_bind]
                  refine ⟨hr, ?_⟩
                  have hitem := processItem_files limits codec sweep item r
                  show SweptFrom codec sweep
                    (recoverRecord codec sweep r.files item.record.body).2 _ _
                  cases hp : processItem limits codec sweep item r with
                  | error e r' => exact files_of_error hitem hp
                  | ok u r' =>
                      rw [← files_of_ok hitem hp]
                      exact ih _ _

theorem sweptInLanes_follows (state : QueueState) {lanes : List Lane} {stats : SweepStats} :
    SweptFrom codec sweep root.files (sweptInLanes limits codec sweep state lanes stats root)
      (rootAfter (sweepLanes limits codec sweep state lanes stats) root).files := by
  induction lanes generalizing root stats with
  | nil => rfl
  | cons lane lanes ih =>
      unfold sweptInLanes sweepLanes
      refine (sweptInLane_follows limits codec sweep lane (state.lanes lane).count stats
        root).append ?_
      rw [rootAfter_bind]
      unfold rootAfter
      cases hx : sweepLane limits codec sweep lane (state.lanes lane).count stats root with
      | error e r => rfl
      | ok stats r =>
          dsimp only
          by_cases hstop : stats.budgetExhausted = true
          · rw [if_pos hstop, if_pos hstop]
            rfl
          · rw [if_neg hstop, if_neg hstop]
            exact ih

theorem sweptEntries_follows {files : FileSystem} {names : List Name} :
    SweptFrom codec sweep files (sweptEntries sweep files names)
      (scanRootEntries sweep files names) := by
  induction names generalizing files with
  | nil => rfl
  | cons name names ih => exact ⟨rfl, ih⟩

/-- All that a sweep changes of the files, it does in the steps of `sweptBy`. -/
theorem sweep_follows : SweptFrom codec sweep root.files (sweptBy limits codec sweep root)
    (rootAfter (sweepAbandoned limits codec sweep) root).files := by
  unfold sweptBy sweepAbandoned
  have hread := onQueue_files (readState limits) root
  rw [rootAfter_bind]
  cases hx : onQueue (readState limits) root with
  | error e r => exact files_of_error hread hx
  | ok state r =>
      rw [← files_of_ok hread hx]
      refine (sweptInLanes_follows state).append ?_
      dsimp only
      rw [rootAfter_bind]
      unfold rootAfter
      cases hy : sweepLanes limits codec sweep state [.ready, .deferred] ⟨0, 0, 0, false⟩ r with
      | error e s => rfl
      | ok stats s =>
          dsimp only
          generalize budgetAvailable sweep stats (sweep.inTime .held 0) = available
          cases available with
          | true => exact sweptEntries_follows
          | false => rfl

end SweptFrom

/-! ## What one step deletes -/

section Deletions

variable {codec : StorageCodec} {sweep : SweepInput} {files : FileSystem} {limit : Int}

theorem stat_unlink (path : Path) : (files.unlink path).stat path = none := by
  simp [FileSystem.stat, FileSystem.unlink]

theorem stat_unlink_ne {path other : Path} (h : other ≠ path) :
    (files.unlink path).stat other = files.stat other := by
  simp only [FileSystem.stat, FileSystem.unlink, FileSystem.setEntry_entries_ne files none h]
  rfl

/-- Two names of one inode have the same status. -/
theorem stat_eq_of_identity {path other : Path} {status status' : FileStatus}
    (h : files.stat path = some status) (h' : files.stat other = some status')
    (hid : status.identity = status'.identity) : status = status' := by
  obtain ⟨i, -, rfl⟩ := Option.map_eq_some_iff.1 h
  obtain ⟨j, -, rfl⟩ := Option.map_eq_some_iff.1 h'
  obtain rfl : i = j := hid
  rfl

theorem deletesUpTo_refl : DeletesUpTo limit files files := by
  intro path status h h'
  rw [h] at h'
  cases h'

theorem deletesUpTo_unlink {path : Path}
    (h : ∀ status, files.stat path = some status → status.mtime ≤ limit) :
    DeletesUpTo limit files (files.unlink path) := by
  intro other status hstat hgone
  by_cases heq : other = path
  · subst heq
    exact h status hstat
  · rw [stat_unlink_ne heq, hstat] at hgone
    cases hgone

theorem DeletesUpTo.unlink {files' : FileSystem} (h : DeletesUpTo limit files files') {path : Path}
    (hpath : ∀ status, files.stat path = some status → status.mtime ≤ limit) :
    DeletesUpTo limit files (files'.unlink path) := by
  intro other status hstat hgone
  by_cases heq : other = path
  · subst heq
    exact hpath status hstat
  · rw [stat_unlink_ne heq] at hgone
    exact h other status hstat hgone

theorem scanRootEntry_deletes (hcutoff : sweep.cutoff ≤ limit) (name : Name) :
    DeletesUpTo limit files (scanRootEntry sweep files name) := by
  unfold scanRootEntry
  split
  · next owner status howner hstat =>
    split
    · exact deletesUpTo_refl
    · next hkeep =>
      -- a stage file that is not kept is no younger than the cutoff
      refine deletesUpTo_unlink fun status' hstat' => ?_
      obtain rfl : status = status' := Option.some.inj (hstat.symm.trans hstat')
      unfold keepsStage at hkeep
      simp at hkeep
      omega
  · exact deletesUpTo_refl

theorem recoverFile_deletes (hcutoff : sweep.cutoff ≤ limit) (kind : FileKind)
    (objectKey : String) : DeletesUpTo limit files (recoverFile sweep files kind objectKey).2 := by
  unfold recoverFile
  cases hparts : objectKeyParts objectKey with
  | error message => exact deletesUpTo_refl
  | ok parts =>
      dsimp only
      cases hstat : files.stat parts with
      | none => exact deletesUpTo_refl
      | some status =>
          have hold : ¬ sweep.cutoff < status.mtime →
              DeletesUpTo limit files (files.unlink parts) := by
            intro hage
            refine deletesUpTo_unlink fun status' hstat' => ?_
            obtain rfl : status = status' := Option.some.inj (hstat.symm.trans hstat')
            omega
          dsimp only
          split
          · exact deletesUpTo_refl
          · next hage =>
            cases kind with
            | stage =>
                dsimp only
                split
                · exact deletesUpTo_refl
                · split
                  · exact deletesUpTo_refl
                  · exact hold hage
            | artifact =>
                dsimp only
                split
                · exact deletesUpTo_refl
                · split
                  · exact deletesUpTo_refl
                  · exact hold hage

theorem isOwned_some {source : SourceIdentity} {status : FileStatus} :
    isOwned source (some status) = true ↔
      status.identity = source.identity ∧ status.size = source.size := by
  simp [isOwned]

/-- A record with a snapshot: the age is checked unless the object key is taken. -/
theorem recoverIdentified_deletes (hcutoff : sweep.cutoff ≤ limit) {objectKey : String}
    {parts stageParts : Path} {source : SourceIdentity} (stageOwner : Option Uuid)
    (hsuper : ∀ canonical staged, files.stat parts = some canonical →
      files.stat stageParts = some staged → isOwned source (some staged) = true →
      (isOwned source (some canonical) = false ∨ (artifactMatch objectKey).isNone = true) →
        staged.mtime ≤ limit) :
    DeletesUpTo limit files
      (recoverIdentified sweep files objectKey parts stageParts stageOwner source).2 := by
  unfold recoverIdentified
  cases hcanonical : files.stat parts with
  | none =>
      cases hstaged : files.stat stageParts with
      | none => exact deletesUpTo_refl
      | some staged =>
          dsimp only
          split
          · exact deletesUpTo_refl
          · split
            · exact deletesUpTo_refl
            · next hkeep =>
              refine deletesUpTo_unlink fun status hstat => ?_
              obtain rfl : staged = status := Option.some.inj (hstaged.symm.trans hstat)
              unfold keepsStage at hkeep
              simp at hkeep
              omega
  | some canonical =>
      have hstage : isOwned source (files.stat stageParts) = true →
          (isOwned source (some canonical) = false ∨ (artifactMatch objectKey).isNone = true) →
          DeletesUpTo limit files (files.unlink stageParts) := by
        intro howned htaken
        refine deletesUpTo_unlink fun staged hstaged => ?_
        rw [hstaged] at howned
        exact hsuper canonical staged hcanonical hstaged howned htaken
      dsimp only
      split
      · next hforeign =>
        rw [Bool.not_eq_true'] at hforeign
        split
        · next howned => exact hstage howned (Or.inl hforeign)
        · split <;> exact deletesUpTo_refl
      · next hcanonicalOwned =>
        rw [Bool.not_eq_true', Bool.not_eq_false] at hcanonicalOwned
        split
        · exact deletesUpTo_refl
        · cases hartifact : artifactMatch objectKey with
          | none =>
              dsimp only
              split
              · next howned => exact hstage howned (Or.inr (by rw [hartifact]; rfl))
              · exact deletesUpTo_refl
          | some artifact =>
              dsimp only
              split
              · exact deletesUpTo_refl
              · next hkeep =>
                have hage : canonical.mtime ≤ limit := by
                  simp at hkeep
                  omega
                have htarget : ∀ status, files.stat parts = some status → status.mtime ≤ limit := by
                  intro status hstat
                  obtain rfl : canonical = status := Option.some.inj (hcanonical.symm.trans hstat)
                  exact hage
                split
                · next howned =>
                  -- both names are of the inode of the snapshot
                  refine (deletesUpTo_unlink fun staged hstaged => ?_).unlink htarget
                  rw [hstaged] at howned
                  have hid : staged.identity = canonical.identity :=
                    (isOwned_some.1 howned).1.trans (isOwned_some.1 hcanonicalOwned).1.symm
                  rw [stat_eq_of_identity hstaged hcanonical hid]
                  exact hage
                · exact deletesUpTo_unlink htarget

theorem supersededStage_eq_some {body : QueueBody} {staged : FileStatus} :
    supersededStage files body = some staged ↔
      ∃ record parts stageParts source canonical owner, body = .publication record ∧
        objectKeyParts record.objectKey = .ok parts ∧
        objectKeyParts record.stageObjectKey = .ok stageParts ∧ record.source = some source ∧
        files.stat parts = some canonical ∧ files.stat stageParts = some staged ∧
        stageMatch (stageParts.getLast?.getD []) = some owner ∧
        parts.dropLast = stageParts.dropLast ∧ isOwned source (some staged) = true ∧
        (isOwned source (some canonical) = false ∨
          (artifactMatch record.objectKey).isNone = true) := by
  constructor
  · intro h
    unfold supersededStage at h
    split at h
    · next record =>
      split at h
      · next parts stageParts source hparts hstageParts hsource =>
        split at h
        · next canonical staged' owner hcanonical hstaged howner =>
          split at h
          · next hcond =>
            cases h
            exact ⟨record, parts, stageParts, source, canonical, owner, rfl, hparts, hstageParts,
              hsource, hcanonical, hstaged, howner, hcond⟩
          · cases h
        · cases h
      · cases h
    · cases h
  · rintro ⟨record, parts, stageParts, source, canonical, owner, rfl, hparts, hstageParts, hsource,
      hcanonical, hstaged, howner, hcond⟩
    simp only [supersededStage, hparts, hstageParts, hsource, hcanonical, hstaged, howner]
    rw [if_pos hcond]

theorem recoverPublication_deletes (hcutoff : sweep.cutoff ≤ limit) {record : PublicationRecord}
    (hsuper : ∀ staged, supersededStage files (.publication record) = some staged →
      staged.mtime ≤ limit) :
    DeletesUpTo limit files (recoverPublication codec sweep files record).2 := by
  unfold recoverPublication
  split
  · next parts stageParts hparts hstageParts =>
    split
    · exact deletesUpTo_refl
    · next hparent =>
      split
      · exact deletesUpTo_refl
      · next owner howner =>
        have hidentified : ∀ source, record.source = some source → DeletesUpTo limit files
            (recoverIdentified sweep files record.objectKey parts stageParts owner source).2 := by
          intro source hsource
          refine recoverIdentified_deletes hcutoff owner ?_
          intro canonical staged hcanonical hstaged howned htaken
          exact hsuper staged (supersededStage_eq_some.2 ⟨record, parts, stageParts, source,
            canonical, owner, rfl, hparts, hstageParts, hsource, hcanonical, hstaged, howner,
            not_not.1 hparent, howned, htaken⟩)
        split
        · exact deletesUpTo_refl
        · next hsource _ => exact hidentified _ hsource
        · exact deletesUpTo_refl
        · next staged _ hstaged _ =>
          split
          · exact deletesUpTo_refl
          · split
            · exact deletesUpTo_refl
            · next hkeep =>
              refine deletesUpTo_unlink fun status hstat => ?_
              obtain rfl : staged = status := Option.some.inj (hstaged.symm.trans hstat)
              unfold keepsStage at hkeep
              simp at hkeep
              omega
  · exact deletesUpTo_refl

/-- A superseded stage file goes, with no look at its age. -/
theorem superseded_deleted {body : QueueBody} {staged : FileStatus}
    (h : supersededStage files body = some staged) :
    ∃ path, files.stat path = some staged ∧
      (recoverRecord codec sweep files body).2.stat path = none := by
  obtain ⟨record, parts, stageParts, source, canonical, owner, rfl, hparts, hstageParts, hsource,
    hcanonical, hstaged, howner, hparent, howned, htaken⟩ := supersededStage_eq_some.1 h
  refine ⟨stageParts, hstaged, ?_⟩
  have hrecover : recoverRecord codec sweep files (.publication record) =
      recoverIdentified sweep files record.objectKey parts stageParts owner source := by
    show recoverPublication codec sweep files record = _
    simp only [recoverPublication, hparts, hstageParts, howner, hcanonical, hstaged, hsource]
    rw [if_neg (not_not.2 hparent)]
  have hremoved : (recoverIdentified sweep files record.objectKey parts stageParts owner
      source).2 = files.unlink stageParts := by
    simp only [recoverIdentified, hcanonical, hstaged]
    cases hcanonicalOwned : isOwned source (some canonical) with
    | false => simp [howned]
    | true =>
        have hnone : artifactMatch record.objectKey = none := by
          rcases htaken with hforeign | hnone
          · rw [hcanonicalOwned] at hforeign
            cases hforeign
          · exact Option.isNone_iff_eq_none.1 hnone
        simp [howned, hnone]
  rw [hrecover, hremoved]
  exact stat_unlink stageParts

/-- One step deletes nothing younger than the cutoff, but for a superseded stage file. -/
theorem swept_deletes_iff (hcutoff : sweep.cutoff ≤ limit) {swept : Swept}
    (hquarantine : swept.isQuarantine = false) :
    DeletesUpTo limit swept.before (swept.after codec sweep) ↔
      ∀ staged, swept.superseded = some staged → staged.mtime ≤ limit := by
  cases swept with
  | entry files name => exact ⟨fun _ => nofun, fun _ => scanRootEntry_deletes hcutoff name⟩
  | record files body =>
      constructor
      · intro h staged hstaged
        obtain ⟨path, hbefore, hafter⟩ := superseded_deleted hstaged
        exact h path staged hbefore hafter
      · intro h
        cases body with
        | publication record => exact recoverPublication_deletes hcutoff h
        | file kind objectKey => exact recoverFile_deletes hcutoff kind objectKey
        | quarantine key id next => cases hquarantine
        | unknown => exact deletesUpTo_refl

end Deletions

/-! ## The floats of the host -/

/-- A stage file in the data root without a record. -/
def strayStage : Name := stageNameOf none "00000000-0000-4000-8000-000000000001"

def strayRoot (mtime : Int) : DataRoot where
  queue := QueueDir.initial
  files := ⟨fun path => if path = [strayStage] then some (1, 7) else none,
    fun _ => ⟨[], mtime, none⟩⟩

/-- A sweep that gets to the root entries, with no execution active. -/
def straySweep (now : DateTime) (cutoff : Int) : SweepInput where
  cutoff := cutoff
  referencedArtifactKeys := []
  activeExecutionIds := []
  activeBuildExecutions := []
  budget := ⟨1, 1, 1⟩
  now := now
  inTime := fun _ _ => true
  recoverQuarantine := fun _ files => (.held, files)
  rootEntries := [strayStage]

section Floats

variable {limits : QueueLimits} {codec : StorageCodec} {host : Host} {service : MaintenanceService}
  {now : DateTime} {mtime cutoff : Int}

theorem sweptBy_stray : sweptBy limits codec (straySweep now cutoff) (strayRoot mtime) =
    [.entry (strayRoot mtime).files strayStage] := by
  have hread : onQueue (readState limits) (strayRoot mtime) =
      .ok initialState (strayRoot mtime) := by
    unfold onQueue
    rw [show (strayRoot mtime).queue = QueueDir.initial from rfl, readState_run counted_initial]
    rfl
  unfold sweptBy
  rw [hread]
  rfl

theorem stray_stat : (strayRoot mtime).files.stat [strayStage] = some ⟨(1, 7), 0, mtime⟩ := by
  unfold FileSystem.stat
  have hentry : (strayRoot mtime).files.entries [strayStage] = some (1, 7) := by
    simp [strayRoot]
  rw [hentry]
  rfl

/-- The stray file goes as soon as its time is not after the limit. -/
theorem stray_deleted (hage : mtime ≤ cutoff) :
    (scanRootEntry (straySweep now cutoff) (strayRoot mtime).files strayStage).stat [strayStage] =
      none := by
  have hmatch : stageMatch strayStage = some none := by decide +kernel
  have hkeep : keepsStage (straySweep now cutoff) ⟨(1, 7), 0, mtime⟩ none = false := by
    have hcutoff : ¬ (straySweep now cutoff).cutoff < mtime := not_lt.2 hage
    simp [keepsStage, activeOwner, hcutoff]
  unfold scanRootEntry
  rw [hmatch, stray_stat]
  dsimp only
  rw [if_neg (by rw [hkeep]; decide)]
  exact stat_unlink _

/-- A stray stage file whose float is not above that of the cutoff is deleted, whatever its time. -/
theorem exists_deleted (limits : QueueLimits) (codec : StorageCodec)
    (hage : host.stMtime mtime ≤ host.timestamp (service.cutoff now)) :
    ∃ sweep root, service.Sweeps host now sweep ∧ ∃ swept ∈ sweptBy limits codec sweep root,
      swept.isQuarantine = false ∧ swept.superseded = none ∧
        ∀ limit, DeletesUpTo limit swept.before (swept.after codec sweep) → mtime ≤ limit := by
  obtain ⟨cutoff, hsweeps⟩ := service.exists_sweeps host now (straySweep now 0)
  refine ⟨straySweep now cutoff, strayRoot mtime, hsweeps, _,
    sweptBy_stray ▸ List.mem_singleton_self _, rfl, rfl, fun limit hdeletes => ?_⟩
  exact hdeletes _ _ stray_stat (stray_deleted ((hsweeps mtime).2 hage))

/-- Sweeps delete files of the minimum age alone, but for superseded stage files, exactly where the
host tells the cutoff apart from the nanosecond after it. -/
theorem maintenance_age_iff (limits : QueueLimits) (codec : StorageCodec) (host : Host)
    (service : MaintenanceService) (now : DateTime) :
    (∀ sweep root, service.Sweeps host now sweep → ∀ swept ∈ sweptBy limits codec sweep root,
      swept.isQuarantine = false →
        (DeletesUpTo (utcInstant (service.cutoff now)) swept.before (swept.after codec sweep) ↔
          ∀ staged, swept.superseded = some staged →
            staged.mtime ≤ utcInstant (service.cutoff now))) ↔
      host.Separates (service.cutoff now) := by
  constructor
  · intro h
    by_contra hclose
    -- a stray stage file of the nanosecond after the cutoff
    obtain ⟨sweep, root, hsweeps, swept, hmem, hquarantine, hnone, hyoung⟩ :=
      exists_deleted limits codec (not_lt.1 hclose)
    have hdeletes := (h sweep root hsweeps swept hmem hquarantine).2 (by simp [hnone])
    have hle := hyoung _ hdeletes
    omega
  · intro hseparates sweep root hsweeps swept _ hquarantine
    exact swept_deletes_iff (hsweeps.cutoff_le_iff.2 hseparates) hquarantine

/-- A file after the cutoff whose float is not above that of the cutoff breaks the minimum age. -/
theorem deletes_young (hage : host.stMtime mtime ≤ host.timestamp (service.cutoff now))
    (hyoung : utcInstant (service.cutoff now) < mtime) :
    ¬ ∀ sweep root, service.Sweeps host now sweep →
      ∀ swept ∈ sweptBy queueLimits publicationCodec sweep root, swept.isQuarantine = false →
        DeletesUpTo (utcInstant (service.cutoff now)) swept.before
          (swept.after publicationCodec sweep) := by
  intro h
  obtain ⟨sweep, root, hsweeps, swept, hmem, hquarantine, -, hdeletes⟩ :=
    exists_deleted queueLimits publicationCodec hage
  exact absurd hyoung (not_lt.2 (hdeletes _ (h sweep root hsweeps swept hmem hquarantine)))

end Floats

/-- The unit of a double between the years 2004 and 2038. -/
def doubleUnit : ℚ := 1 / 2 ^ 22

theorem doubleUnit_pos : 0 < doubleUnit := by
  norm_num [doubleUnit]

/-- A host with a constant offset whose floats are rounded to `doubleUnit`. -/
def doubleHost (offset : Int) : Host where
  utcOffset _ := offset
  stMtime ns := roundTo doubleUnit (ns / 10 ^ 9)
  secondsOf microseconds := roundTo doubleUnit (microseconds / 10 ^ 6)
  stMtime_mono h := roundTo_mono doubleUnit_pos (by gcongr)
  stMtime_above x := by
    refine ⟨⌈(x + doubleUnit + 1) * 10 ^ 9⌉, ?_⟩
    have hceil := Int.le_ceil ((x + doubleUnit + 1) * 10 ^ 9)
    have hnear := (roundTo_near doubleUnit_pos
      ((⌈(x + doubleUnit + 1) * 10 ^ 9⌉ : ℚ) / 10 ^ 9)).1
    have hquotient : x + doubleUnit + 1 ≤ (⌈(x + doubleUnit + 1) * 10 ^ 9⌉ : ℚ) / 10 ^ 9 := by
      rw [le_div_iff₀ (by norm_num)]
      exact hceil
    linarith
  stMtime_below x := by
    refine ⟨⌊(x - doubleUnit) * 10 ^ 9⌋, ?_⟩
    have hfloor := Int.floor_le ((x - doubleUnit) * 10 ^ 9)
    have hnear := (roundTo_near doubleUnit_pos
      ((⌊(x - doubleUnit) * 10 ^ 9⌋ : ℚ) / 10 ^ 9)).2
    have hquotient : (⌊(x - doubleUnit) * 10 ^ 9⌋ : ℚ) / 10 ^ 9 ≤ x - doubleUnit := by
      rw [div_le_iff₀ (by norm_num)]
      exact hfloor
    linarith
  secondsOf_mono h := roundTo_mono doubleUnit_pos (by gcongr)

def hourService : MaintenanceService := ⟨seconds 3600, le_rfl⟩

/-- Where local time is five hours behind UTC, a stage file of a minute ago is deleted under a
minimum age of an hour. -/
theorem young_stage_deleted :
    ¬ ∀ (host : Host) (service : MaintenanceService) (now : DateTime) (sweep : SweepInput)
      (root : DataRoot), service.Sweeps host now sweep →
        ∀ swept ∈ sweptBy queueLimits publicationCodec sweep root, swept.isQuarantine = false →
          DeletesUpTo (utcInstant (service.cutoff now)) swept.before
            (swept.after publicationCodec sweep) := by
  intro h
  have hage : (doubleHost (seconds (-18000))).stMtime (1000 * seconds 1699999940) ≤
      (doubleHost (seconds (-18000))).timestamp (hourService.cutoff (seconds 1700000000)) := by
    decide +kernel
  exact deletes_young hage (by decide)
    (h (doubleHost (seconds (-18000))) hourService (seconds 1700000000))

/-- Where local time is UTC, the floats take a stage file for old that is a hundred nanoseconds short
of it. -/
theorem close_stage_deleted :
    ¬ ∀ (sweep : SweepInput) (root : DataRoot),
      hourService.Sweeps (doubleHost 0) (seconds 1700003600) sweep →
        ∀ swept ∈ sweptBy queueLimits publicationCodec sweep root, swept.isQuarantine = false →
          DeletesUpTo (utcInstant (hourService.cutoff (seconds 1700003600))) swept.before
            (swept.after publicationCodec sweep) := by
  have hage : (doubleHost 0).stMtime (1000 * seconds 1700000000 + 100) ≤
      (doubleHost 0).timestamp (hourService.cutoff (seconds 1700003600)) := by
    decide +kernel
  exact deletes_young hage (by decide)

end WheelForge.Storage
