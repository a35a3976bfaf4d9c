import Mathlib.Logic.Function.Basic
import WheelForge.Api.BuildTaskService

/-!
# The API's object storage

`LocalFileStorage` over `SecureDirectoryStorageBackend`: an object is written under a temporary name
of its directory and moved to its key. What the calls of the file system raise is given;
`putAtomically_ok` says when an object is published, and `putAtomically_error` that its key is left
alone otherwise. `digest` is SHA-256 in hexadecimal.
-/

set_option autoImplicit false

namespace WheelForge.Api

open WheelForge.Jobs

/-- The exceptions of the storage and of the upload. -/
inductive Throwable where
  | ioException
  | storageException (message : String)
  | sizeMismatch (expected actual : Nat)
  | illegalArgument (message : String)
  | illegalState (message : String)
  | nulByte
  | api (e : ApiError)
  /-- `ApiException.payloadTooLarge`. -/
  | payloadTooLarge (message : String)
  /-- Any other `RuntimeException` or `Error`. -/
  | unchecked (message : String)
deriving DecidableEq, Repr

/-- A path below the data root. -/
abbrev ObjectPath := List String

/-- The regular files below the data root. -/
abbrev Objects := ObjectPath → Option (List UInt8)

/-- The calls of `LocalFileStorage` that can raise. -/
inductive StorageCall where
  | requireOpen
  | createDirectories
  | openDirectory
  | createTemporary
  | closeOutput
  | inspectObject
  | move
  | deleteTemporary
  /-- The calls of `deleteIfExists`. -/
  | deleteObject
deriving DecidableEq

/-- What each call raises, if anything. -/
abbrev StorageFaults := StorageCall → Option Throwable

/-- A round of the copying loop: what `read` gives, and what the `write` of it raises. -/
structure CopyRound where
  read : Except Throwable (List UInt8)
  write : Option Throwable

/-- `NulRejectingInputStream.read`. -/
def rejectNul (read : Except Throwable (List UInt8)) : Except Throwable (List UInt8) :=
  match read with
  | .error e => .error e
  | .ok bytes => if 0 ∈ bytes then .error .nulByte else .ok bytes

/-- The loop of `StorageObjectWriter.write`, and what is in the file when it ends. -/
def copyRounds (expectedSize : Nat) : List CopyRound → List UInt8 → Option Throwable × List UInt8
  | [], written => (none, written)
  | round :: rest, written =>
      match rejectNul round.read with
      | .error e => (some e, written)
      | .ok bytes =>
          if expectedSize < written.length + bytes.length then
            (some (.sizeMismatch expectedSize (written.length + bytes.length)), written)
          else
            match round.write with
            | some e => (some e, written)
            | none => copyRounds expectedSize rest (written ++ bytes)

/-- `WriteResult` and `StoredObject` without the key. -/
structure StoredObject where
  sizeBytes : Nat
  sha256 : String
deriving DecidableEq, Repr

section Storage

variable (digest : List UInt8 → String) (raises : StorageFaults)

/-- `StorageObjectWriter.write`. -/
def writeObject (expectedSize : Nat) (rounds : List CopyRound) :
    Except Throwable StoredObject × List UInt8 :=
  match copyRounds expectedSize rounds [] with
  | (some e, content) => (.error e, content)
  | (none, content) =>
      match raises .closeOutput with
      | some e => (.error e, content)
      | none =>
          if content.length ≠ expectedSize then
            (.error (.sizeMismatch expectedSize content.length), content)
          else (.ok ⟨content.length, digest content⟩, content)

/-- `TEMP_NAME_ATTEMPTS`. -/
def tempNameAttempts : Nat := 5

def temporaryName (identifier : Uuid) : String := ".wheelforge-" ++ identifier ++ ".tmp"

/-- `createTemporaryFile`; `identifiers` are the values of `UUID.randomUUID`. -/
def createTemporaryFile (identifiers : List Uuid) (parent : ObjectPath) (objects : Objects) :
    Except Throwable String :=
  match raises .createTemporary with
  | some e => .error e
  | none =>
      match (identifiers.take tempNameAttempts).find? fun identifier =>
          (objects (parent ++ [temporaryName identifier])).isNone with
      | some identifier => .ok (temporaryName identifier)
      | none => .error .ioException

/-- `catch (IOException exception)` of `putAtomically`. -/
def wrapIoException : Throwable → Throwable
  | .ioException => .storageException "Could not publish local object"
  | e => e

/-- The `finally` of `putAtomically`, and the exception it leaves with. -/
def discardTemporary (temporary : ObjectPath) (e : Throwable) (objects : Objects) :
    Except Throwable StoredObject × Objects :=
  (.error (wrapIoException e),
    match raises .deleteTemporary with
    | some _ => objects
    | none => Function.update objects temporary none)

/-- `putAtomically` once the directory is open and the temporary file exists. -/
def publish (parent : ObjectPath) (fileName temporary : String) (rounds : List CopyRound)
    (expectedSize : Nat) (objects : Objects) : Except Throwable StoredObject × Objects :=
  match writeObject digest raises expectedSize rounds with
  | (.error e, content) =>
      discardTemporary raises (parent ++ [temporary]) e
        (Function.update objects (parent ++ [temporary]) (some content))
  | (.ok stored, content) =>
      match raises .inspectObject <|> raises .move with
      | some e =>
          discardTemporary raises (parent ++ [temporary]) e
            (Function.update objects (parent ++ [temporary]) (some content))
      | none => (.ok stored, Function.update objects (parent ++ [fileName]) (some content))

/-- `putAtomically`. -/
def putAtomically (identifiers : List Uuid) (parent : ObjectPath) (fileName : String)
    (rounds : List CopyRound) (expectedSize : Nat) (objects : Objects) :
    Except Throwable StoredObject × Objects :=
  match raises .requireOpen <|> raises .createDirectories with
  | some e => (.error e, objects)
  | none =>
      match raises .openDirectory with
      | some e => (.error (wrapIoException e), objects)
      | none =>
          match createTemporaryFile raises identifiers parent objects with
          | .error e => (.error (wrapIoException e), objects)
          | .ok temporary =>
              publish digest raises parent fileName temporary rounds expectedSize objects

/-- `deleteIfExists`. -/
def deleteIfExists (path : ObjectPath) (objects : Objects) : Option Throwable × Objects :=
  match raises .deleteObject with
  | some e => (some e, objects)
  | none => (none, Function.update objects path none)

end Storage

/-! ## What is stored -/

/-- The rounds of a copy that succeeds, and the content they give. -/
def Transfers (rounds : List CopyRound) (content : List UInt8) : Prop :=
  ∃ chunks : List (List UInt8), rounds = chunks.map (fun bytes => ⟨.ok bytes, none⟩) ∧
    content = chunks.flatten ∧ 0 ∉ content

section Specification

variable {digest : List UInt8 → String} {raises : StorageFaults} {expectedSize : Nat}
  {rounds : List CopyRound} {content written : List UInt8}

theorem rejectNul_eq_ok {read : Except Throwable (List UInt8)} {bytes : List UInt8} :
    rejectNul read = .ok bytes ↔ read = .ok bytes ∧ 0 ∉ bytes := by
  cases read with
  | error e => simp [rejectNul]
  | ok given =>
      by_cases hnul : 0 ∈ given
      · simp only [rejectNul, if_pos hnul, reduceCtorEq, Except.ok.injEq, false_iff, not_and,
          not_not]
        rintro rfl
        exact hnul
      · simp only [rejectNul, if_neg hnul, Except.ok.injEq]
        constructor
        · rintro rfl
          exact ⟨rfl, hnul⟩
        · exact And.left

theorem transfers_nil : Transfers [] content ↔ content = [] := by
  constructor
  · rintro ⟨chunks, hrounds, rfl, -⟩
    rw [List.map_eq_nil_iff.1 hrounds.symm, List.flatten_nil]
  · rintro rfl
    exact ⟨[], rfl, rfl, List.not_mem_nil⟩

theorem transfers_cons {round : CopyRound} : Transfers (round :: rounds) content ↔
    ∃ bytes rest, rejectNul round.read = .ok bytes ∧ round.write = none ∧
      Transfers rounds rest ∧ content = bytes ++ rest := by
  constructor
  · rintro ⟨chunks, hrounds, rfl, hnul⟩
    cases chunks with
    | nil => cases hrounds
    | cons bytes chunks =>
        simp only [List.map_cons, List.cons.injEq] at hrounds
        obtain ⟨rfl, rfl⟩ := hrounds
        rw [List.flatten_cons, List.mem_append, not_or] at hnul
        exact ⟨bytes, chunks.flatten, rejectNul_eq_ok.2 ⟨rfl, hnul.1⟩, rfl,
          ⟨chunks, rfl, rfl, hnul.2⟩, List.flatten_cons⟩
  · rintro ⟨bytes, rest, hread, hwrite, ⟨chunks, rfl, rfl, hnul⟩, rfl⟩
    obtain ⟨hread, hbytes⟩ := rejectNul_eq_ok.1 hread
    cases round
    cases hread
    cases hwrite
    exact ⟨bytes :: chunks, rfl, rfl, by simp [hbytes, hnul]⟩

/-- The loop ends without an exception just when every round succeeds and the size is not
exceeded. -/
theorem copyRounds_eq_none (hwritten : written.length ≤ expectedSize) :
    copyRounds expectedSize rounds written = (none, content) ↔
      ∃ rest, Transfers rounds rest ∧ content = written ++ rest ∧ content.length ≤ expectedSize := by
  induction rounds generalizing written with
  | nil =>
      simp only [copyRounds, Prod.mk.injEq, true_and, transfers_nil, exists_eq_left,
        List.append_nil]
      constructor
      · rintro rfl
        exact ⟨rfl, hwritten⟩
      · exact fun h => h.1.symm
  | cons round rounds ih =>
      rw [copyRounds]
      cases hread : rejectNul round.read with
      | error e => simp [transfers_cons, hread]
      | ok bytes =>
          have hsplit : (∃ rest, Transfers (round :: rounds) rest ∧ content = written ++ rest ∧
              content.length ≤ expectedSize) ↔ round.write = none ∧ ∃ rest, Transfers rounds rest ∧
                content = (written ++ bytes) ++ rest ∧ content.length ≤ expectedSize := by
            constructor
            · rintro ⟨_, hrest, rfl, hsize⟩
              obtain ⟨given, rest, hgiven, hwrite, htransfers, rfl⟩ := transfers_cons.1 hrest
              cases hread.symm.trans hgiven
              exact ⟨hwrite, rest, htransfers, (List.append_assoc ..).symm, hsize⟩
            · rintro ⟨hwrite, rest, htransfers, rfl, hsize⟩
              exact ⟨bytes ++ rest, transfers_cons.2 ⟨bytes, rest, hread, hwrite, htransfers, rfl⟩,
                List.append_assoc .., hsize⟩
          rw [hsplit]
          dsimp only
          split
          · next hlarge =>
              -- the bytes read so far are more than the size that was declared
              constructor
              · intro h
                cases h
              · rintro ⟨-, rest, -, rfl, hsize⟩
                simp only [List.length_append] at hsize
                omega
          · next hfits =>
              cases hwrite : round.write with
              | some e => simp
              | none =>
                  rw [ih (by simp only [List.length_append]; omega)]
                  simp

theorem copyRounds_start : copyRounds expectedSize rounds [] = (none, content) ↔
    Transfers rounds content ∧ content.length ≤ expectedSize := by
  rw [copyRounds_eq_none (Nat.zero_le _)]
  constructor
  · rintro ⟨rest, htransfers, rfl, hsize⟩
    exact ⟨htransfers, hsize⟩
  · exact fun h => ⟨content, h.1, rfl, h.2⟩

/-- An object is written just when its bytes are all read, have no NUL and the declared size. -/
theorem writeObject_eq_ok {stored : StoredObject} :
    writeObject digest raises expectedSize rounds = (.ok stored, content) ↔
      Transfers rounds content ∧ raises .closeOutput = none ∧ content.length = expectedSize ∧
        stored = ⟨content.length, digest content⟩ := by
  rw [writeObject]
  rcases hcopy : copyRounds expectedSize rounds [] with ⟨raised, copied⟩
  cases raised with
  | some e =>
      simp only [Prod.mk.injEq, reduceCtorEq, false_and, false_iff, not_and]
      rintro htransfers - rfl
      cases hcopy.symm.trans (copyRounds_start.2 ⟨htransfers, le_rfl⟩)
  | none =>
      obtain ⟨htransfers, hsize⟩ := copyRounds_start.1 hcopy
      have hunique : ∀ content, Transfers rounds content → content.length = expectedSize →
          content = copied := fun content hcontent hlength =>
        (Prod.mk.inj (hcopy.symm.trans (copyRounds_start.2 ⟨hcontent, hlength.le⟩))).2.symm
      cases hclose : raises .closeOutput with
      | some e => simp
      | none =>
          by_cases hlength : copied.length = expectedSize
          · simp only [if_neg (not_not.2 hlength), Prod.mk.injEq, Except.ok.injEq]
            constructor
            · rintro ⟨rfl, rfl⟩
              exact ⟨htransfers, trivial, hlength, rfl⟩
            · rintro ⟨hcontent, -, hsame, rfl⟩
              cases hunique content hcontent hsame
              exact ⟨rfl, rfl⟩
          · simp only [if_pos hlength, Prod.mk.injEq, reduceCtorEq, false_and, false_iff, not_and]
            intro hcontent _ hsame
            exact absurd (hunique content hcontent hsame ▸ hsame) hlength

end Specification

section Publishing

variable {digest : List UInt8 → String} {raises : StorageFaults} {identifiers : List Uuid}
  {parent : ObjectPath} {fileName : String} {rounds : List CopyRound} {expectedSize : Nat}
  {objects : Objects} {content : List UInt8}

/-- One of the names that `createTemporaryFile` tries is free. -/
def FreeTemporary (identifiers : List Uuid) (parent : ObjectPath) (objects : Objects) : Prop :=
  ∃ identifier ∈ identifiers.take tempNameAttempts,
    objects (parent ++ [temporaryName identifier]) = none

/-- What `putAtomically` needs to publish a content. -/
structure Publishes (raises : StorageFaults) (identifiers : List Uuid) (parent : ObjectPath)
    (rounds : List CopyRound) (expectedSize : Nat) (objects : Objects) (content : List UInt8) :
    Prop where
  faults : ∀ call, call ≠ .deleteTemporary → call ≠ .deleteObject → raises call = none
  temporary : FreeTemporary identifiers parent objects
  transfers : Transfers rounds content
  size : content.length = expectedSize

theorem createTemporaryFile_eq_ok :
    (∃ temporary, createTemporaryFile raises identifiers parent objects = .ok temporary) ↔
      raises .createTemporary = none ∧ FreeTemporary identifiers parent objects := by
  rw [createTemporaryFile]
  cases raises .createTemporary with
  | some e => simp
  | none =>
      cases hfind : (identifiers.take tempNameAttempts).find? fun identifier =>
          (objects (parent ++ [temporaryName identifier])).isNone with
      | none =>
          simp only [List.find?_eq_none, Option.isNone_iff_eq_none] at hfind
          simpa [FreeTemporary] using hfind
      | some identifier =>
          have hfree := List.find?_some hfind
          simp only [Option.isNone_iff_eq_none] at hfree
          simp only [Except.ok.injEq, exists_eq', true_and, true_iff]
          exact ⟨identifier, List.mem_of_find?_eq_some hfind, hfree⟩

theorem createTemporaryFile_ok {temporary : String}
    (h : createTemporaryFile raises identifiers parent objects = .ok temporary) :
    ∃ identifier, temporary = temporaryName identifier := by
  rw [createTemporaryFile] at h
  split at h
  · cases h
  · split at h
    · exact ⟨_, (Except.ok.inj h).symm⟩
    · cases h

theorem discardTemporary_of_ne {temporary path : ObjectPath} (e : Throwable)
    (h : path ≠ temporary) :
    (discardTemporary raises temporary e objects).2 path = objects path := by
  simp only [discardTemporary]
  cases raises .deleteTemporary with
  | some _ => rfl
  | none => exact Function.update_of_ne h ..

/-- What is left to do once the temporary file exists. -/
structure Moves (raises : StorageFaults) (rounds : List CopyRound) (expectedSize : Nat)
    (content : List UInt8) : Prop where
  transfers : Transfers rounds content
  size : content.length = expectedSize
  closeOutput : raises .closeOutput = none
  inspectObject : raises .inspectObject = none
  move : raises .move = none

theorem publish_cases {temporary : String} :
    (∃ content, Moves raises rounds expectedSize content ∧
        publish digest raises parent fileName temporary rounds expectedSize objects =
          (.ok ⟨content.length, digest content⟩,
            Function.update objects (parent ++ [fileName]) (some content))) ∨
      (¬ ∃ content, Moves raises rounds expectedSize content) ∧
        ∃ e after, publish digest raises parent fileName temporary rounds expectedSize objects =
            (.error e, after) ∧
          ∀ path, path ≠ parent ++ [temporary] → after path = objects path := by
  -- the temporary file is all that a failed publication touches
  have hdiscard : ∀ e content, ∃ e' after, discardTemporary raises (parent ++ [temporary]) e
        (Function.update objects (parent ++ [temporary]) (some content)) = (.error e', after) ∧
      ∀ path, path ≠ parent ++ [temporary] → after path = objects path := fun e content =>
    ⟨_, _, rfl, fun path hpath => (discardTemporary_of_ne e hpath).trans
      (Function.update_of_ne hpath ..)⟩
  rw [publish]
  rcases hwrite : writeObject digest raises expectedSize rounds with ⟨stored | stored, content⟩
  · refine Or.inr ⟨?_, hdiscard ..⟩
    rintro ⟨content', hmoves⟩
    cases hwrite.symm.trans
      (writeObject_eq_ok.2 ⟨hmoves.transfers, hmoves.closeOutput, hmoves.size, rfl⟩)
  · obtain ⟨htransfers, hclose, hsize, rfl⟩ := writeObject_eq_ok.1 hwrite
    dsimp only
    cases hinspect : raises .inspectObject with
    | some e =>
        refine Or.inr ⟨?_, hdiscard ..⟩
        rintro ⟨_, hmoves⟩
        cases hinspect.symm.trans hmoves.inspectObject
    | none =>
        cases hmove : raises .move with
        | some e =>
            refine Or.inr ⟨?_, hdiscard ..⟩
            rintro ⟨_, hmoves⟩
            cases hmove.symm.trans hmoves.move
        | none => exact Or.inl ⟨content, ⟨htransfers, hsize, hclose, hinspect, hmove⟩, rfl⟩

/-- `putAtomically` publishes the content, or raises and leaves every other name alone. -/
theorem putAtomically_cases :
    (∃ content, Publishes raises identifiers parent rounds expectedSize objects content ∧
        putAtomically digest raises identifiers parent fileName rounds expectedSize objects =
          (.ok ⟨content.length, digest content⟩,
            Function.update objects (parent ++ [fileName]) (some content))) ∨
      (¬ ∃ content, Publishes raises identifiers parent rounds expectedSize objects content) ∧
        ∃ e after, putAtomically digest raises identifiers parent fileName rounds expectedSize
            objects = (.error e, after) ∧
          ∀ path, (∀ identifier, path ≠ parent ++ [temporaryName identifier]) →
            after path = objects path := by
  rw [putAtomically]
  have hrefused : ∀ call e, raises call = some e → call ≠ .deleteTemporary →
      call ≠ .deleteObject →
      ¬ ∃ content, Publishes raises identifiers parent rounds expectedSize objects content := by
    rintro call e hraises htemporary hdelete ⟨content, hpublishes⟩
    cases hraises.symm.trans (hpublishes.faults call htemporary hdelete)
  cases hopen : raises .requireOpen with
  | some e => exact Or.inr ⟨hrefused _ _ hopen nofun nofun, _, _, rfl, fun _ _ => rfl⟩
  | none =>
  cases hcreate : raises .createDirectories with
  | some e => exact Or.inr ⟨hrefused _ _ hcreate nofun nofun, _, _, rfl, fun _ _ => rfl⟩
  | none =>
  cases hdirectory : raises .openDirectory with
  | some e => exact Or.inr ⟨hrefused _ _ hdirectory nofun nofun, _, _, rfl, fun _ _ => rfl⟩
  | none =>
  cases htemporary : createTemporaryFile raises identifiers parent objects with
  | error e =>
      refine Or.inr ⟨?_, _, _, rfl, fun _ _ => rfl⟩
      rintro ⟨content, hpublishes⟩
      obtain ⟨_, hok⟩ := createTemporaryFile_eq_ok.2
        ⟨hpublishes.faults _ nofun nofun, hpublishes.temporary⟩
      cases htemporary.symm.trans hok
  | ok temporary =>
      obtain ⟨hfault, hfree⟩ := createTemporaryFile_eq_ok.1 ⟨_, htemporary⟩
      obtain ⟨identifier, rfl⟩ := createTemporaryFile_ok htemporary
      obtain ⟨content, hmoves, hpublish⟩ | ⟨hmoves, e, after, hpublish, hafter⟩ :=
        @publish_cases digest raises parent fileName rounds expectedSize objects
          (temporaryName identifier)
      · refine Or.inl ⟨content, ⟨?_, hfree, hmoves.transfers, hmoves.size⟩, hpublish⟩
        intro call hdiscard hdelete
        cases call with
        | requireOpen => exact hopen
        | createDirectories => exact hcreate
        | openDirectory => exact hdirectory
        | createTemporary => exact hfault
        | closeOutput => exact hmoves.closeOutput
        | inspectObject => exact hmoves.inspectObject
        | move => exact hmoves.move
        | deleteTemporary => exact absurd rfl hdiscard
        | deleteObject => exact absurd rfl hdelete
      · refine Or.inr ⟨?_, e, after, hpublish, fun path hpath => hafter path (hpath identifier)⟩
        rintro ⟨content, hpublishes⟩
        exact hmoves ⟨content, hpublishes.transfers, hpublishes.size,
          hpublishes.faults _ nofun nofun, hpublishes.faults _ nofun nofun,
          hpublishes.faults _ nofun nofun⟩

end Publishing

end WheelForge.Api
