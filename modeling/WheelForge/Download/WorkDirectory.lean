import Mathlib.Logic.Function.Basic
import WheelForge.Interaction.Program

/-!
# The work directory of the downloads

The calls of `WheelDownloader` and how the work directory answers them. Other processes may add
entries to the work directory between any two calls; nothing else than the downloader changes or
removes an entry, and a source changes only the directory of its attempt. Calls may fail, but for
those that inspect and remove what the downloader made itself. `Holds` says which entries are the
downloader's own; it is what the calls keep.
-/

set_option autoImplicit false

namespace WheelForge.Download

open WheelForge.Interaction WheelForge.Interaction.Program

/-! ## Directories -/

/-- What a name stands for; `identity` is the device and the inode. -/
inductive Node where
  | file (identity links : Nat) (content : List UInt8)
  | directory (identity : Nat) (entries : List (String × Node))
  -- a symbolic link, a socket or a device
  | other (identity : Nat)

inductive NodeKind where
  | regular
  | directory
  | other
deriving DecidableEq, Repr

/-- The fields of an `os.stat_result` that are read. -/
structure Status where
  kind : NodeKind
  identity : Nat
  links : Nat
deriving DecidableEq, Repr

def Node.status : Node → Status
  | .file identity links _ => ⟨.regular, identity, links⟩
  | .directory identity _ => ⟨.directory, identity, 2⟩
  | .other identity => ⟨.other, identity, 1⟩

mutual

/-- What `_clear_directory_handle` leaves of an entry: a directory that could not be emptied. -/
def clearNode (name : String) : Node → List (String × Node)
  | .directory identity entries =>
      match clearEntries entries with
      | [] => []
      | left => [(name, .directory identity left)]
  | .file _ _ _ => []
  | .other _ => []
termination_by structural node => node

def clearEntry : String × Node → List (String × Node)
  | (name, node) => clearNode name node
termination_by structural entry => entry

/-- `_clear_directory_handle`. -/
def clearEntries : List (String × Node) → List (String × Node)
  | [] => []
  | entry :: entries => clearEntry entry ++ clearEntries entries
termination_by structural entries => entries

end

mutual

theorem clearNode_eq_nil (name : String) : ∀ node : Node, clearNode name node = []
  | .directory identity entries => by rw [clearNode, clearEntries_eq_nil entries]
  | .file _ _ _ => rfl
  | .other _ => rfl

theorem clearEntry_eq_nil : ∀ entry : String × Node, clearEntry entry = []
  | (name, node) => clearNode_eq_nil name node

/-- A directory is emptied, however its directories are nested. -/
theorem clearEntries_eq_nil : ∀ entries : List (String × Node), clearEntries entries = []
  | [] => rfl
  | entry :: entries => by
      rw [clearEntries, clearEntry_eq_nil entry, clearEntries_eq_nil entries, List.append_nil]

end

/-! ## Calls -/

inductive DownloadError where
  | fileNotFound
  | fileExists
  /-- Any other `OSError`. -/
  | osError
  /-- `DownloadValidationError` -/
  | validation (message : String)
  /-- `DownloadCancelledError` -/
  | cancelled
  /-- `WheelDownloadError` -/
  | download (message : String)
  /-- `ValueError` -/
  | value (message : String)
  /-- `ProcessExecutionError` and `ProcessTimeoutError` with their texts. -/
  | process (message : String)
  /-- Another exception of the runner or of `cancel`. -/
  | unexpected
deriving DecidableEq, Repr

def DownloadError.isOSError : DownloadError → Bool
  | .fileNotFound | .fileExists | .osError => true
  | _ => false

/-- An open directory: the work directory, or the directory of a name in it. -/
abbrev Handle := Option String

/-- The work directory, the handles that are open, and what other processes put there. `others` is
no part of the system: it is kept to say what the downloader made. -/
structure World where
  staging : Status
  entries : String → Option Node
  others : String → Option Node
  handles : Handle → Bool

/-- `_TRANSACTION_LOCK_FILENAME`. -/
def transactionLockFilename : String := ".wheelforge-download.lock"

inductive DownloadCall where
  | cancel
  /-- `secrets.token_hex(8)` -/
  | tokenHex
  /-- `runner.run(argv, attempt.path, ..)` -/
  | run (argv : List String) (attempt : String)
  /-- `work_directory.lstat()`, and whether the directory is private. -/
  | stagingStatus
  | openStaging
  /-- `binding.descriptor is not None` -/
  | hasHandle (directory : Handle)
  /-- `os.fstat(binding.descriptor)` -/
  | handleStatus (directory : Handle)
  /-- `binding.close()` -/
  | closeHandle (directory : Handle)
  /-- The status of a name in the work directory. -/
  | status (name : String)
  | mkdir (name : String)
  | openDirectory (name : String)
  | rmdir (name : String)
  /-- `_clear_directory_handle` -/
  | clear (name : String)
  /-- `shutil.rmtree(path, ignore_errors=True)` -/
  | rmtree (name : String)
  | listdir (name : String)
  /-- The status of a name in a directory of the work directory. -/
  | entryStatus (directory name : String)
  /-- `os.open(name, ..)` for reading, and `os.fstat` of the file. -/
  | openEntry (directory name : String)
  | readEntry (directory name : String)
  /-- `os.open(name, O_CREAT | O_EXCL)`, and `os.fstat` of the file. -/
  | createEntry (directory name : String)
  | writeEntry (directory name : String) (content : List UInt8)
  /-- The rename without replacement of the platform. -/
  | renameNoReplace (source target : String)
  /-- `thread_lock.acquire(timeout=..)` -/
  | acquireThread
  /-- `os.open` of the lock file, with its status and whether it is private. -/
  | openLock
  /-- The loop that waits for `flock` until the deadline. -/
  | waitLock
  /-- `flock(LOCK_UN)`, `os.close` and `thread_lock.release()`, as far as they were taken. -/
  | closeLock

@[reducible] def DownloadCall.Answer : DownloadCall → Type
  | .cancel => Bool
  | .tokenHex => String
  | .run _ _ => Int
  | .stagingStatus => Status × Bool
  | .hasHandle _ => Bool
  | .handleStatus _ => Status
  | .status _ => Status
  | .listdir _ => List String
  | .entryStatus _ _ => Status
  | .openEntry _ _ => Status
  | .readEntry _ _ => List UInt8
  | .createEntry _ _ => Status
  | .acquireThread => Bool
  | .openLock => Status × Bool
  | .waitLock => Bool
  | _ => Unit

abbrev DownloadProgram (α : Type) := Program DownloadCall DownloadCall.Answer DownloadError α

def perform (call : DownloadCall) : DownloadProgram call.Answer := Program.op call

/-! ## How the work directory answers -/

namespace World

def put (w : World) (name : String) (node : Option Node) : World :=
  { w with entries := Function.update w.entries name node }

def setHandle (w : World) (directory : Handle) (isOpen : Bool) : World :=
  { w with handles := Function.update w.handles directory isOpen }

/-- A name in a directory of the work directory. -/
def entry (w : World) (directory name : String) : Option Node :=
  match w.entries directory with
  | some (.directory _ entries) => entries.lookup name
  | _ => none

/-- The directory of a name with other entries. -/
def fill (w : World) (name : String) (change : List (String × Node) → List (String × Node)) :
    World :=
  match w.entries name with
  | some (.directory identity entries) => w.put name (some (.directory identity (change entries)))
  | _ => w

/-- A lock file that is kept. -/
def addLock (w : World) (node : Node) : World :=
  { w with
    entries := Function.update w.entries transactionLockFilename (some node)
    others := Function.update w.others transactionLockFilename (some node) }

end World

def statusOf : Option Node → Except DownloadError Status
  | some node => .ok node.status
  | none => .error .fileNotFound

/-- The entries with another content of a file. -/
def writeContent (name : String) (content : List UInt8) (entries : List (String × Node)) :
    List (String × Node) :=
  entries.map fun
    | (other, .file identity links old) =>
        if other = name then (other, .file identity links content)
        else (other, .file identity links old)
    | entry => entry

/-- The call fails and changes nothing. -/
def Fails {α : Type} (w : World) (r : Except DownloadError α) (w' : World) : Prop :=
  w' = w ∧ ∃ error, r = .error error ∧ error.isOSError = true

/-- How a call is answered. -/
def Step (w : World) : (call : DownloadCall) → Except DownloadError call.Answer → World → Prop
  | .cancel, _, w' => w' = w
  | .tokenHex, r, w' => w' = w ∧ ∃ token, r = .ok token
  | .run _ attempt, _, w' => ∃ entries, w' = w.fill attempt fun _ => entries
  | .stagingStatus, r, w' => w' = w ∧ ∃ isPrivate, r = .ok (w.staging, isPrivate)
  | .openStaging, r, w' => w' = w.setHandle none true ∧ r = .ok () ∨ Fails w r w'
  | .hasHandle directory, r, w' => w' = w ∧ r = .ok (w.handles directory)
  | .handleStatus none, r, w' => w' = w ∧ r = .ok w.staging
  | .handleStatus (some name), r, w' => w' = w ∧ r = statusOf (w.entries name)
  | .closeHandle directory, r, w' => w' = w.setHandle directory false ∧ r = .ok ()
  | .status name, r, w' => w' = w ∧ r = statusOf (w.entries name)
  | .mkdir name, r, w' =>
      (w.entries name = none ∧ r = .ok () ∧
        ∃ identity, w' = w.put name (some (.directory identity []))) ∨
      (w.entries name ≠ none ∧ r = .error .fileExists ∧ w' = w) ∨ Fails w r w'
  | .openDirectory name, r, w' =>
      (∃ identity entries, w.entries name = some (.directory identity entries) ∧
        w' = w.setHandle (some name) true ∧ r = .ok ()) ∨ Fails w r w'
  | .rmdir name, r, w' =>
      match w.entries name with
      | some (.directory _ []) => w' = w.put name none ∧ r = .ok ()
      | _ => Fails w r w'
  | .clear name, r, w' => w' = w.fill name clearEntries ∧ r = .ok ()
  | .rmtree name, r, w' =>
      r = .ok () ∧
      match w.entries name with
      | some (.directory identity entries) =>
          w' = w.put name (match clearEntries entries with
            | [] => none
            | left => some (.directory identity left))
      | _ => w' = w
  | .listdir name, r, w' =>
      (∃ identity entries, w.entries name = some (.directory identity entries) ∧ w' = w ∧
        r = .ok (entries.map Prod.fst)) ∨ Fails w r w'
  | .entryStatus directory name, r, w' => w' = w ∧ r = statusOf (w.entry directory name)
  | .openEntry directory name, r, w' =>
      (∃ node, w.entry directory name = some node ∧ w' = w ∧ r = .ok node.status) ∨ Fails w r w'
  | .readEntry directory name, r, w' =>
      (∃ identity links content, w.entry directory name = some (.file identity links content) ∧
        w' = w ∧ r = .ok content) ∨ Fails w r w'
  | .createEntry directory name, r, w' =>
      (∃ identity, w.entry directory name = none ∧
        w' = w.fill directory (fun entries => entries ++ [(name, .file identity 1 [])]) ∧
        r = .ok ⟨.regular, identity, 1⟩) ∨ Fails w r w'
  | .writeEntry directory name content, r, w' =>
      (w' = w.fill directory (writeContent name content) ∧ r = .ok ()) ∨
      ∃ written error, w' = w.fill directory (writeContent name written) ∧ r = .error error ∧
        error.isOSError = true
  | .renameNoReplace source target, r, w' =>
      (∃ node, w.entries source = some node ∧ w.entries target = none ∧ r = .ok () ∧
        w' = (w.put source none).put target (some node)) ∨ Fails w r w'
  | .acquireThread, r, w' => w' = w ∧ ∃ acquired, r = .ok acquired
  | .openLock, r, w' =>
      (∃ node isPrivate, w.entries transactionLockFilename = some node ∧ w' = w ∧
        r = .ok (node.status, isPrivate)) ∨
      (∃ identity isPrivate, w.entries transactionLockFilename = none ∧
        w' = w.addLock (.file identity 1 []) ∧ r = .ok (⟨.regular, identity, 1⟩, isPrivate)) ∨
      Fails w r w'
  | .waitLock, _, w' => w' = w
  | .closeLock, r, w' => w' = w ∧ r = .ok ()

/-- Other processes add entries to the work directory. -/
def Others (w w' : World) : Prop :=
  ∃ added : String → Option Node, (∀ name, added name ≠ none → w.entries name = none) ∧
    w' = { w with
      entries := fun name => (w.entries name).or (added name)
      others := fun name => (w.others name).or (added name) }

/-- A call, after what other processes did. -/
def Answers (w : World) (call : DownloadCall) (r : Except DownloadError call.Answer) (w' : World) :
    Prop :=
  ∃ w₁, Others w w₁ ∧ Step w₁ call r w'

abbrev Ensures {α : Type} (p : DownloadProgram α) (w : World)
    (Q : World → Except DownloadError α → Prop) : Prop :=
  Meets (fun _ _ => True) Answers p w Q

/-! ## What is the downloader's own -/

/-- Names of the work directory and what they stand for. -/
abbrev Listing := String → Option Node

/-- The work directory has the entries `ours` and those of other processes, among them `base`. -/
structure Holds (staging : Status) (base ours : Listing) (w : World) : Prop where
  staging_eq : w.staging = staging
  entries : ∀ name, w.entries name = (ours name).or (w.others name)
  free : ∀ name, ours name ≠ none → w.others name = none
  keeps : ∀ name node, base name = some node → w.others name = some node

variable {staging : Status} {base ours : Listing} {w w' : World}

theorem Holds.others (h : Holds staging base ours w) (ho : Others w w') :
    Holds staging base ours w' := by
  obtain ⟨added, hadded, rfl⟩ := ho
  refine ⟨h.staging_eq, ?_, ?_, ?_⟩
  · intro name
    dsimp only
    rw [h.entries, Option.or_assoc]
  · intro name hname
    have hentry : w.entries name ≠ none := by
      rw [h.entries]
      cases hours : ours name with
      | none => exact absurd hours hname
      | some node => simp
    have hnone : added name = none := by
      by_contra hne
      exact hentry (hadded name hne)
    simp [h.free name hname, hnone]
  · intro name node hnode
    simp [h.keeps name node hnode]

/-- Own entries are found. -/
theorem Holds.entries_own (h : Holds staging base ours w) {name : String} {node : Node}
    (hname : ours name = some node) : w.entries name = some node := by
  rw [h.entries, hname, Option.some_or]

/-- A name that is not there belongs to nobody. -/
theorem Holds.of_entries_none (h : Holds staging base ours w) {name : String}
    (hname : w.entries name = none) : ours name = none ∧ w.others name = none := by
  rw [h.entries, Option.or_eq_none_iff] at hname
  exact hname

/-- A change of an own or a free name. -/
theorem Holds.put (h : Holds staging base ours w) {name : String} (node : Option Node)
    (hname : w.others name = none) :
    Holds staging base (Function.update ours name node) (w.put name node) := by
  refine ⟨h.staging_eq, ?_, ?_, h.keeps⟩
  · intro other
    unfold World.put
    by_cases hother : other = name
    · subst hother
      simp [hname]
    · simp [Function.update_of_ne hother, h.entries]
  · intro other hne
    by_cases hother : other = name
    · rw [hother]
      exact hname
    · rw [Function.update_of_ne hother] at hne
      exact h.free other hne

theorem Holds.setHandle (h : Holds staging base ours w) (directory : Handle) (isOpen : Bool) :
    Holds staging base ours (w.setHandle directory isOpen) :=
  ⟨h.staging_eq, h.entries, h.free, h.keeps⟩

/-- A change in an own directory. -/
theorem Holds.fill (h : Holds staging base ours w) {name : String} {identity : Nat}
    {entries : List (String × Node)} (hname : ours name = some (.directory identity entries))
    (change : List (String × Node) → List (String × Node)) :
    Holds staging base (Function.update ours name (some (.directory identity (change entries))))
      (w.fill name change) := by
  unfold World.fill
  rw [h.entries_own hname]
  exact h.put _ (h.free name (by rw [hname]; exact Option.some_ne_none _))

theorem Holds.addLock (h : Holds staging base ours w) {node : Node}
    (hnone : w.entries transactionLockFilename = none) :
    Holds staging base ours (w.addLock node) := by
  obtain ⟨hours, hothers⟩ := h.of_entries_none hnone
  refine ⟨h.staging_eq, ?_, ?_, ?_⟩
  · intro name
    unfold World.addLock
    by_cases hname : name = transactionLockFilename
    · subst hname
      simp [hours]
    · simp [Function.update_of_ne hname, h.entries]
  · intro name hne
    have hname : name ≠ transactionLockFilename := fun heq => hne (heq ▸ hours)
    unfold World.addLock
    dsimp only
    rw [Function.update_of_ne hname]
    exact h.free name hne
  · intro name other hbase
    have hname : name ≠ transactionLockFilename := by
      rintro rfl
      have hkept := h.keeps _ _ hbase
      rw [hothers] at hkept
      cases hkept
    unfold World.addLock
    dsimp only
    rw [Function.update_of_ne hname]
    exact h.keeps name other hbase

/-! ## The rules of the calls -/

/-- One call: what its answers give, whatever other processes did before it. -/
theorem ensures_perform {call : DownloadCall} {Q : World → Except DownloadError call.Answer → Prop}
    (h : Holds staging base ours w)
    (hstep : ∀ w₁ r w₂, Holds staging base ours w₁ → Step w₁ call r w₂ → Q w₂ r) :
    Ensures (perform call) w Q := by
  refine meets_op.2 ⟨trivial, ?_⟩
  rintro r w₂ ⟨w₁, hothers, hr⟩
  exact hstep w₁ r w₂ (h.others hothers) hr

end WheelForge.Download
