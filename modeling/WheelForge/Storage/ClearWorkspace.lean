import Mathlib.Algebra.GroupWithZero.Nat
import WheelForge.Interaction.Program
import WheelForge.Posix.DirectoryTree
import WheelForge.Transition.System

/-!
# Clearing a workspace

`_bounded_clear_workspace` empties a directory tree under a budget. It keeps the stack of directories
that it is inside in an attribute of the workspace, so that a later pass continues where a pass was
interrupted.
-/

set_option autoImplicit false

namespace WheelForge.Storage

open WheelForge.Interaction WheelForge.Posix WheelForge.Transition

/-! ## Names -/

/-- A character of a name as `os.scandir` decodes it; a byte that is not UTF-8 is escaped
(`surrogateescape`). -/
inductive NamePart where
  | char (c : Char)
  | byte (b : UInt8)
deriving DecidableEq

abbrev EntryName := List NamePart

/-- The directories from the workspace down to the current one. -/
abbrev Stack := List EntryName

/-- `len(part.encode("utf-8"))`; an escaped byte makes `encode` raise. -/
def utf8Length : EntryName → Option Nat
  | [] => some 0
  | .char c :: rest => (utf8Length rest).map (c.utf8Size + ·)
  | .byte _ :: _ => none

/-- The characters that `json.dumps(.., ensure_ascii=True)` writes for a character. -/
def NamePart.jsonLength : NamePart → Nat
  | .char c =>
      if c ∈ ['"', '\\', '\n', '\r', '\t', '\x08', '\x0c'] then 2
      else if ' ' ≤ c ∧ c ≤ '~' then 1
      else if c.toNat < 0x10000 then 6
      else 12
  | .byte _ => 6

/-- The length of the payload of `_write_workspace_progress`. -/
def encodedLength (stack : Stack) : Nat :=
  "\x7b\"version\":1,\"stack\":[]\x7d".length +
    (stack.map fun part => (part.map NamePart.jsonLength).sum + 2).sum + (stack.length - 1)

/-! ## Calls -/

inductive ClearError where
  | fileNotFound
  | notADirectory
  | isADirectory
  | directoryNotEmpty
  /-- `RuntimeError("workspace cleanup state is invalid")` -/
  | stateInvalid
  /-- `UnicodeEncodeError` -/
  | notEncodable
  /-- `RuntimeError("workspace cleanup state exceeds its byte limit")` -/
  | stateTooLarge
deriving DecidableEq, Repr

/-- The calls to the clock and the file system. An open directory is named by its path below the
workspace: no directory is renamed. -/
inductive ClearCall where
  | monotonic
  | getProgress
  | putProgress (stack : Stack)
  | openAt (directory : Stack) (name : EntryName)
  /-- `next(os.scandir(directory), None)` -/
  | scan (directory : Stack)
  /-- `S_ISDIR(entry.stat(follow_symlinks=False).st_mode)` -/
  | isDirectory (directory : Stack) (name : EntryName)
  | rmdir (directory : Stack) (name : EntryName)
  | unlink (directory : Stack) (name : EntryName)
  | fsync (directory : Stack)

/-- What a call answers. -/
@[reducible] def ClearCall.Answer : ClearCall → Type
  | monotonic => Int
  | getProgress => Option Stack
  | scan _ => Option EntryName
  | isDirectory _ _ => Bool
  | _ => Unit

abbrev ClearProgram (α : Type) := Program ClearCall ClearCall.Answer ClearError α

def perform (call : ClearCall) : ClearProgram call.Answer := Program.op call

/-! ## The progress state -/

/-- The check of one part of a stack that is read back. -/
def partReadable (part : EntryName) : Except ClearError Bool :=
  if part = [] ∨ part = [.char '.'] ∨ part = [.char '.', .char '.'] ∨ .char '/' ∈ part ∨
      .char '\\' ∈ part then .ok false
  else
    match utf8Length part with
    | some length => .ok (length ≤ 255)
    | none => .error .notEncodable

/-- `all(..)` over the parts. -/
def allReadable : Stack → Except ClearError Bool
  | [] => .ok true
  | part :: rest =>
      match partReadable part with
      | .ok true => allReadable rest
      | answer => answer

/-- `_read_workspace_progress`. -/
def readWorkspaceProgress : ClearProgram Stack := do
  let payload : Option Stack ← perform .getProgress
  match payload with
  | none => return []
  | some stack =>
      if 256 < stack.length then .raise .stateInvalid
      else
        match allReadable stack with
        | .ok true => return stack
        | .ok false => .raise .stateInvalid
        | .error e => .raise e

/-- `_write_workspace_progress`. -/
def writeWorkspaceProgress (stack : Stack) : ClearProgram Unit :=
  if 32768 < encodedLength stack then .raise .stateTooLarge
  else do
    perform (.putProgress stack)
    perform (.fsync [])

/-- The loop of `_open_workspace_stack`, with the directory it has reached. -/
def openFrom (directory : Stack) : Stack → ClearProgram Unit
  | [] => return ()
  | part :: rest => do
      perform (.openAt directory part)
      openFrom (directory ++ [part]) rest

/-- `_open_workspace_stack`. -/
def openWorkspaceStack (stack : Stack) : ClearProgram Unit := openFrom [] stack

/-! ## The loop -/

structure ClearBudget where
  maxEntries : Nat
  maxDirectories : Nat
  maxMutations : Nat

/-- The fields of `WorkspaceSweepStats` that clearing reads and changes. -/
structure ClearStats where
  entriesScanned : Nat
  directoriesScanned : Nat
  mutations : Nat
  progressMade : Bool
deriving DecidableEq

def ClearStats.mutated (stats : ClearStats) (mutations : Nat) : ClearStats :=
  { stats with mutations := stats.mutations + mutations, progressMade := true }

/-- `_workspace_mutation_available`. -/
def mutationAvailable (stats : ClearStats) (budget : ClearBudget) (deadline : Int) (needed : Nat) :
    ClearProgram Bool := do
  let now : Int ← perform .monotonic
  return now < deadline && stats.mutations + needed ≤ budget.maxMutations

/-- The guard of the loop. -/
def spent (stats : ClearStats) (budget : ClearBudget) (deadline : Int) : ClearProgram Bool := do
  let now : Int ← perform .monotonic
  return deadline ≤ now || budget.maxEntries ≤ stats.entriesScanned ||
    budget.maxDirectories ≤ stats.directoriesScanned

/-- What an iteration leaves: the result, or the stack and the statistics of the next iteration. -/
inductive Iteration where
  | finished (complete : Bool) (stats : ClearStats)
  | next (stack : Stack) (stats : ClearStats)

/-- The branch for an empty directory. -/
def leaveDirectory (budget : ClearBudget) (deadline : Int) (stack : Stack) (stats : ClearStats) :
    ClearProgram Iteration :=
  match stack.getLast? with
  | none => return .finished true stats
  | some childName => do
      if ← mutationAvailable stats budget deadline 4 then
        openWorkspaceStack stack.dropLast
        perform (.rmdir stack.dropLast childName)
        perform (.fsync stack.dropLast)
        writeWorkspaceProgress stack.dropLast
        return .next stack.dropLast (stats.mutated 4)
      else return .finished false stats

/-- The branch for a directory inside the current one. -/
def enterDirectory (budget : ClearBudget) (deadline : Int) (stack : Stack) (stats : ClearStats)
    (name : EntryName) : ClearProgram Iteration := do
  if ← mutationAvailable stats budget deadline 2 then
    writeWorkspaceProgress (stack ++ [name])
    return .next (stack ++ [name]) (stats.mutated 2)
  else return .finished false stats

/-- The branch for any other entry. -/
def removeFile (budget : ClearBudget) (deadline : Int) (stack : Stack) (stats : ClearStats)
    (name : EntryName) : ClearProgram Iteration := do
  if ← mutationAvailable stats budget deadline 2 then
    perform (.unlink stack name)
    perform (.fsync stack)
    return .next stack (stats.mutated 2)
  else return .finished false stats

/-- The body of the loop. -/
def clearIteration (budget : ClearBudget) (deadline : Int) (stack : Stack) (stats : ClearStats) :
    ClearProgram Iteration := do
  if ← spent stats budget deadline then return .finished false stats
  else
    openWorkspaceStack stack
    let stats := { stats with directoriesScanned := stats.directoriesScanned + 1 }
    let entry : Option EntryName ← perform (.scan stack)
    match entry with
    | none => leaveDirectory budget deadline stack stats
    | some name =>
        let stats := { stats with entriesScanned := stats.entriesScanned + 1 }
        let isDirectory : Bool ← perform (.isDirectory stack name)
        if isDirectory then enterDirectory budget deadline stack stats name
        else removeFile budget deadline stack stats name

/-- The loop. Every iteration but the last scans a directory, so that the budget of directories
bounds their number; the first argument counts down with it. -/
def clearLoop (budget : ClearBudget) (deadline : Int) :
    Nat → Stack → ClearStats → ClearProgram (Bool × ClearStats)
  | 0, _, stats => return (false, stats)
  | n + 1, stack, stats => do
      match ← clearIteration budget deadline stack stats with
      | .finished complete stats => return (complete, stats)
      | .next stack stats => clearLoop budget deadline n stack stats

/-- `_bounded_clear_workspace`. -/
def boundedClearWorkspace (stats : ClearStats) (budget : ClearBudget) (deadline : Int) :
    ClearProgram (Bool × ClearStats) := do
  let stack ← readWorkspaceProgress
  clearLoop budget deadline (budget.maxDirectories - stats.directoriesScanned + 1) stack stats

/-! ## The workspace -/

/-- The workspace directory: its entries and the decoded `_WORKSPACE_SWEEP_XATTR`. -/
structure WorkspaceDirectory where
  entries : Entries EntryName
  progress : Option Stack

/-- The stack that a pass starts from. -/
def WorkspaceDirectory.stack (w : WorkspaceDirectory) : Stack := w.progress.getD []

/-- The readings of the clock and, for each scan, which entry is listed first. -/
structure Surroundings where
  clock : Nat → Int
  listed : Nat → Nat

/-- A pass under way, with the number of readings and scans it has made and its calls, the latest
first. -/
structure ClearState where
  workspace : WorkspaceDirectory
  readings : Nat
  scans : Nat
  calls : List ClearCall

namespace ClearState

def start (workspace : WorkspaceDirectory) : ClearState where
  workspace := workspace
  readings := 0
  scans := 0
  calls := []

def logged (s : ClearState) (call : ClearCall) : ClearState := { s with calls := call :: s.calls }

def updated (s : ClearState) (directory : Stack) (name : EntryName) : ClearState :=
  { s with
    workspace := { s.workspace with
      entries := s.workspace.entries.update (Entries.remove name) directory } }

/-- The entry of a name in an open directory. -/
def entry (s : ClearState) (directory : Stack) (name : EntryName) : Option (Entry EntryName) :=
  (s.workspace.entries.opened directory).bind (Entries.find name)

end ClearState

/-- How the surroundings answer a call. -/
def Surroundings.answer (env : Surroundings) (s : ClearState) :
    (call : ClearCall) → Except ClearError call.Answer × ClearState
  | .monotonic =>
      (.ok (env.clock s.readings), { s.logged .monotonic with readings := s.readings + 1 })
  | .getProgress => (.ok s.workspace.progress, s.logged .getProgress)
  | .putProgress stack =>
      (.ok (), { s.logged (.putProgress stack) with
        workspace := { s.workspace with progress := some stack } })
  | .openAt directory name =>
      match s.entry directory name with
      | some (.directory _) => (.ok (), s.logged (.openAt directory name))
      | some .file => (.error .notADirectory, s.logged (.openAt directory name))
      | none => (.error .fileNotFound, s.logged (.openAt directory name))
  | .scan directory =>
      match s.workspace.entries.opened directory with
      | some c =>
          (.ok c.names[env.listed s.scans % c.names.length]?,
            { s.logged (.scan directory) with scans := s.scans + 1 })
      | none => (.error .fileNotFound, s.logged (.scan directory))
  | .isDirectory directory name =>
      match s.entry directory name with
      | some (.directory _) => (.ok true, s.logged (.isDirectory directory name))
      | some .file => (.ok false, s.logged (.isDirectory directory name))
      | none => (.error .fileNotFound, s.logged (.isDirectory directory name))
  | .rmdir directory name =>
      match s.entry directory name with
      | some (.directory .nil) =>
          (.ok (), (s.logged (.rmdir directory name)).updated directory name)
      | some (.directory _) => (.error .directoryNotEmpty, s.logged (.rmdir directory name))
      | some .file => (.error .notADirectory, s.logged (.rmdir directory name))
      | none => (.error .fileNotFound, s.logged (.rmdir directory name))
  | .unlink directory name =>
      match s.entry directory name with
      | some .file => (.ok (), (s.logged (.unlink directory name)).updated directory name)
      | some (.directory _) => (.error .isADirectory, s.logged (.unlink directory name))
      | none => (.error .fileNotFound, s.logged (.unlink directory name))
  | .fsync directory => (.ok (), s.logged (.fsync directory))

/-! ## Passes -/

/-- One call of `_bounded_clear_workspace`; with `crashAfter` the process dies after so many calls
to its surroundings. -/
structure Pass where
  stats : ClearStats
  budget : ClearBudget
  deadline : Int
  env : Surroundings
  crashAfter : Option Nat

namespace Pass

def program (pass : Pass) : ClearProgram (Bool × ClearStats) :=
  boundedClearWorkspace pass.stats pass.budget pass.deadline

/-- The result of a pass that does not crash. -/
def result (pass : Pass) (w : WorkspaceDirectory) : Except ClearError (Bool × ClearStats) :=
  (pass.program.exec pass.env.answer (.start w)).1

/-- The state in which a pass ends or crashes. -/
def stopped (pass : Pass) (w : WorkspaceDirectory) : ClearState :=
  match pass.crashAfter with
  | none => (pass.program.exec pass.env.answer (.start w)).2
  | some n => Program.stopAfter pass.env.answer n pass.program (.start w)

/-- The workspace that a pass leaves behind. -/
def after (pass : Pass) (w : WorkspaceDirectory) : WorkspaceDirectory := (pass.stopped w).workspace

/-- The budget and the clock allow one iteration. -/
def Admits (pass : Pass) : Prop :=
  pass.env.clock 0 < pass.deadline ∧ pass.env.clock 1 < pass.deadline ∧
    pass.stats.entriesScanned < pass.budget.maxEntries ∧
    pass.stats.directoriesScanned < pass.budget.maxDirectories ∧
    pass.stats.mutations + 4 ≤ pass.budget.maxMutations

end Pass

/-- The passes over a workspace, from a tree that no pass has started on. -/
def clearingSystem : System WorkspaceDirectory Pass where
  init w := w.progress = none
  step w pass w' := w' = pass.after w

end WheelForge.Storage
