import Mathlib.Logic.Function.Basic
import WheelForge.Contracts
import WheelForge.Python.Text

/-!
# Object keys and files of the data root

The names that the storage generates and recognizes, object keys as relative paths, and the regular
files under the root: directory entries that name inodes. Directories are not modelled: one that is
missing has no entries, and one that is pruned is empty.
-/

set_option autoImplicit false

namespace WheelForge.Storage

open WheelForge.Python (mem_intercalate)

/-- A path component. -/
abbrev Name := List Char

/-- The components of a path below the data root. -/
abbrev Path := List Name

/-- `(st_dev, st_ino)`. -/
abbrev FileId := Nat × Nat

/-! ## Generated names -/

def hexDigit (c : Char) : Bool :=
  ('0' ≤ c && c ≤ '9') || ('a' ≤ c && c ≤ 'f')

/-- A full match of `_UUID_PATTERN`. -/
def uuidPattern (text : Name) : Bool :=
  (text.splitOn '-').map List.length = [8, 4, 4, 4, 12] &&
    (text.splitOn '-').all fun group => group.all hexDigit

def stagePrefix : Name := ".wf-stage-".toList

/-- `_GENERATED_STAGE.fullmatch`: the owner group of a stage name. -/
def stageMatch (name : Name) : Option (Option Uuid) :=
  if name.take 10 = stagePrefix then
    if uuidPattern (name.drop 10) then some none
    else if uuidPattern ((name.drop 10).take 36) && (name.drop 46).head? = some '-' &&
        uuidPattern (name.drop 47) then
      some (some (String.ofList ((name.drop 10).take 36)))
    else none
  else none

/-- `".wf-stage-{}{}".format(f"{owner}-" if owner else "", stage_identifier)`. -/
def stageNameOf (owner : Option Uuid) (stageIdentifier : Uuid) : Name :=
  stagePrefix ++ (match owner with
    | some owner => owner.toList ++ ['-']
    | none => []) ++ stageIdentifier.toList

/-- The last component of a generated artifact key. -/
def zipPattern (name : Name) : Bool :=
  uuidPattern (name.take 36) && name.drop 36 = ".zip".toList

/-- `_GENERATED_ARTIFACT.fullmatch`: the task and owner groups of an artifact key. -/
def artifactMatch (objectKey : String) : Option (Uuid × Option Uuid) :=
  match objectKey.toList.splitOn '/' with
  | [root, task, file] =>
      if root = "artifacts".toList && uuidPattern task && zipPattern file then
        some (String.ofList task, none)
      else none
  | [root, task, owner, file] =>
      if root = "artifacts".toList && uuidPattern task && uuidPattern owner && zipPattern file then
        some (String.ofList task, some (String.ofList owner))
      else none
  | _ => none

/-! ## Object keys -/

/-- `_DRIVE_PREFIX.match`. -/
def drivePrefix (part : Name) : Bool :=
  match part with
  | letter :: ':' :: _ => ('A' ≤ letter && letter ≤ 'Z') || ('a' ≤ letter && letter ≤ 'z')
  | _ => false

/-- A component that `_object_key_parts` refuses. -/
def unsafePart (part : Name) : Bool :=
  part = [] || part = ['.'] || part = ['.', '.'] || drivePrefix part

/-- `_object_key_parts`; the error is the message of its `InvalidObjectKey`. -/
def objectKeyParts (objectKey : String) : Except String Path :=
  if objectKey = "" || '\x00' ∈ objectKey.toList then
    .error "object key must be a non-empty relative POSIX path"
  else if '\\' ∈ objectKey.toList then
    .error "object key must use relative POSIX components"
  else if (objectKey.toList.splitOn '/').any unsafePart then
    .error "object key must use safe relative components"
  else .ok (objectKey.toList.splitOn '/')

/-- `"/".join(parts)`. -/
def joinParts (parts : Path) : String := String.ofList (['/'].intercalate parts)

/-! ## Files -/

structure Inode where
  content : List UInt8
  /-- `st_mtime_ns`. -/
  mtime : Int
  /-- The `_PUBLICATION_XATTR`. -/
  marker : Option String

/-- The fields that the storage reads of an `os.stat_result`. -/
structure FileStatus where
  identity : FileId
  size : Nat
  mtime : Int
deriving DecidableEq

structure FileSystem where
  entries : Path → Option FileId
  inodes : FileId → Inode

namespace FileSystem

variable (files : FileSystem)

/-- `os.fstat` of a descriptor of an inode. -/
def fstat (identity : FileId) : FileStatus where
  identity := identity
  size := (files.inodes identity).content.length
  mtime := (files.inodes identity).mtime

/-- `_optional_named_regular_status`. -/
def stat (path : Path) : Option FileStatus := (files.entries path).map files.fstat

def setEntry (path : Path) (target : Option FileId) : FileSystem :=
  { files with entries := Function.update files.entries path target }

def unlink (path : Path) : FileSystem := files.setEntry path none

def setInode (identity : FileId) (inode : Inode) : FileSystem :=
  { files with inodes := Function.update files.inodes identity inode }

@[simp] theorem setEntry_inodes (path : Path) (target : Option FileId) :
    (files.setEntry path target).inodes = files.inodes := rfl

@[simp] theorem setEntry_entries_self (path : Path) (target : Option FileId) :
    (files.setEntry path target).entries path = target := Function.update_self ..

theorem setEntry_entries_ne {path other : Path} (target : Option FileId) (h : other ≠ path) :
    (files.setEntry path target).entries other = files.entries other := Function.update_of_ne h ..

@[simp] theorem setInode_entries (identity : FileId) (inode : Inode) :
    (files.setInode identity inode).entries = files.entries := rfl

@[simp] theorem setInode_inodes_self (identity : FileId) (inode : Inode) :
    (files.setInode identity inode).inodes identity = inode := Function.update_self ..

theorem setInode_inodes_ne {identity other : FileId} (inode : Inode) (h : other ≠ identity) :
    (files.setInode identity inode).inodes other = files.inodes other :=
  Function.update_of_ne h ..

end FileSystem

/-! ## Joining and splitting -/

/-- The parts of a split have the characters of the whole but for the separator. -/
theorem mem_splitOn {text part : Name} {x : Char} (h : part ∈ text.splitOn x) :
    x ∉ part ∧ ∀ c ∈ part, c ∈ text := by
  induction text generalizing part with
  | nil =>
      rw [List.splitOn_nil, List.mem_singleton] at h
      subst h
      exact ⟨List.not_mem_nil, fun c hc => hc⟩
  | cons y text ih =>
      rw [List.splitOn_cons_eq_if_modifyHead] at h
      split at h
      · rcases List.mem_cons.1 h with rfl | h
        · exact ⟨List.not_mem_nil, fun c hc => absurd hc List.not_mem_nil⟩
        · exact ⟨(ih h).1, fun c hc => List.mem_cons_of_mem _ ((ih h).2 c hc)⟩
      · next hy =>
        -- the first character joins the first part
        cases hsplit : text.splitOn x with
        | nil => exact absurd hsplit (List.splitOn_ne_nil x text)
        | cons first rest =>
            rw [hsplit] at h ih
            rw [List.modifyHead_cons] at h
            rcases List.mem_cons.1 h with rfl | hrest
            · obtain ⟨hnot, hsub⟩ := ih List.mem_cons_self
              refine ⟨?_, fun c hc => ?_⟩
              · rw [List.mem_cons, not_or]
                refine ⟨?_, hnot⟩
                rintro rfl
                exact hy (beq_self_eq_true _)
              · rcases List.mem_cons.1 hc with rfl | hc
                · exact List.mem_cons_self
                · exact List.mem_cons_of_mem _ (hsub c hc)
            · obtain ⟨hnot, hsub⟩ := ih (List.mem_cons_of_mem _ hrest)
              exact ⟨hnot, fun c hc => List.mem_cons_of_mem _ (hsub c hc)⟩

/-- A component that an object key may have. -/
def SafePart (part : Name) : Prop :=
  unsafePart part = false ∧ '/' ∉ part ∧ '\\' ∉ part ∧ '\x00' ∉ part

theorem objectKeyParts_safe {objectKey : String} {parts : Path}
    (h : objectKeyParts objectKey = .ok parts) : parts ≠ [] ∧ ∀ part ∈ parts, SafePart part := by
  unfold objectKeyParts at h
  split at h
  · cases h
  · next hnul =>
    split at h
    · cases h
    · next hback =>
      split at h
      · cases h
      · next hunsafe =>
        cases h
        refine ⟨List.splitOn_ne_nil _ _, fun part hpart => ?_⟩
        obtain ⟨hslash, hsub⟩ := mem_splitOn hpart
        refine ⟨?_, hslash, fun hc => hback (hsub _ hc), fun hc => ?_⟩
        · rw [List.any_eq_true, not_exists] at hunsafe
          exact Bool.eq_false_iff.2 fun hp => hunsafe part ⟨hpart, hp⟩
        · apply hnul
          rw [Bool.or_eq_true]
          exact Or.inr (decide_eq_true (hsub _ hc))

/-- A key joined from safe components has these components. -/
theorem objectKeyParts_joinParts {parts : Path} (hne : parts ≠ [])
    (h : ∀ part ∈ parts, SafePart part) : objectKeyParts (joinParts parts) = .ok parts := by
  have hsplit : (joinParts parts).toList.splitOn '/' = parts := by
    unfold joinParts
    rw [String.toList_ofList]
    exact List.splitOn_intercalate '/' (fun part hpart => (h part hpart).2.1) hne
  have hchar : ∀ c ∈ (joinParts parts).toList, c = '/' ∨ ∃ part ∈ parts, c ∈ part := by
    intro c hc
    unfold joinParts at hc
    rw [String.toList_ofList] at hc
    exact mem_intercalate hc
  unfold objectKeyParts
  rw [if_neg, if_neg, if_neg, hsplit]
  · rw [hsplit, List.any_eq_true]
    rintro ⟨part, hpart, hunsafe⟩
    rw [(h part hpart).1] at hunsafe
    cases hunsafe
  · intro hback
    rcases hchar _ hback with heq | ⟨part, hpart, hc⟩
    · exact absurd heq (by decide)
    · exact (h part hpart).2.2.1 hc
  · rw [Bool.or_eq_true, not_or, decide_eq_true_eq, decide_eq_true_eq]
    constructor
    · intro hempty
      rw [hempty] at hsplit
      have hpart : ([] : Name) ∈ parts := by
        rw [← hsplit]
        exact List.mem_singleton.2 rfl
      have hsafe := (h _ hpart).1
      exact absurd hsafe (by decide)
    · intro hnul
      rcases hchar _ hnul with heq | ⟨part, hpart, hc⟩
      · exact absurd heq (by decide)
      · exact (h part hpart).2.2.2 hc

/-! ## Stage names -/

theorem uuidPattern_length {text : Name} (h : uuidPattern text = true) : text.length = 36 := by
  unfold uuidPattern at h
  rw [Bool.and_eq_true, decide_eq_true_eq] at h
  have htext : ['-'].intercalate (text.splitOn '-') = text := List.intercalate_splitOn '-'
  have hjoin := congrArg List.length htext
  obtain ⟨hlengths, -⟩ := h
  generalize text.splitOn '-' = groups at hlengths hjoin
  match groups with
  | [a, b, c, d, e] =>
      simp only [List.map_cons, List.map_nil, List.cons.injEq] at hlengths
      simp [List.intercalate] at hjoin
      omega
  | [] | [_] | [_, _] | [_, _, _] | [_, _, _, _] | _ :: _ :: _ :: _ :: _ :: _ :: _ =>
      simp at hlengths

theorem uuidPattern_char {text : Name} (h : uuidPattern text = true) {c : Char} (hc : c ∈ text) :
    c = '-' ∨ hexDigit c = true := by
  unfold uuidPattern at h
  rw [Bool.and_eq_true] at h
  have htext : ['-'].intercalate (text.splitOn '-') = text := List.intercalate_splitOn '-'
  rw [← htext] at hc
  refine (mem_intercalate hc).imp_right ?_
  rintro ⟨group, hgroup, hmem⟩
  exact List.all_eq_true.1 (List.all_eq_true.1 h.2 group hgroup) c hmem

/-- A generated stage name matches with its owner. -/
theorem stageMatch_stageNameOf {owner : Option Uuid} {stageIdentifier : Uuid}
    (howner : ∀ o, owner = some o → uuidPattern o.toList = true)
    (hstage : uuidPattern stageIdentifier.toList = true) :
    stageMatch (stageNameOf owner stageIdentifier) = some owner := by
  have hten : stagePrefix.length = 10 := by decide
  cases owner with
  | none =>
      unfold stageMatch stageNameOf
      simp [hten, hstage]
  | some o =>
      have hlen := uuidPattern_length (howner o rfl)
      have hname : stageNameOf (some o) stageIdentifier =
          stagePrefix ++ (o.toList ++ '-' :: stageIdentifier.toList) := by
        simp [stageNameOf]
      have hrest : (stageNameOf (some o) stageIdentifier).drop 10 =
          o.toList ++ '-' :: stageIdentifier.toList := by
        rw [hname, ← hten, List.drop_left]
      have htake : (stageNameOf (some o) stageIdentifier).take 10 = stagePrefix := by
        rw [hname, ← hten, List.take_left]
      have hsecond : (stageNameOf (some o) stageIdentifier).drop 46 =
          '-' :: stageIdentifier.toList := by
        rw [show 46 = 10 + 36 from rfl, ← List.drop_drop, hrest, ← hlen, List.drop_left]
      have hthird : (stageNameOf (some o) stageIdentifier).drop 47 = stageIdentifier.toList := by
        rw [show 47 = 46 + 1 from rfl, ← List.drop_drop, hsecond]
        rfl
      have hlong : uuidPattern (o.toList ++ '-' :: stageIdentifier.toList) = false := by
        refine Bool.eq_false_iff.2 fun h => ?_
        have := uuidPattern_length h
        rw [List.length_append, hlen, List.length_cons] at this
        omega
      unfold stageMatch
      rw [if_pos htake, hrest, hlong, hsecond, hthird, hstage, ← hlen, List.take_left,
        howner o rfl]
      simp

/-- A generated stage name is a safe component. -/
theorem safePart_stageNameOf {owner : Option Uuid} {stageIdentifier : Uuid}
    (howner : ∀ o, owner = some o → uuidPattern o.toList = true)
    (hstage : uuidPattern stageIdentifier.toList = true) :
    SafePart (stageNameOf owner stageIdentifier) := by
  have hchar : ∀ c ∈ stageNameOf owner stageIdentifier,
      c ∈ stagePrefix ∨ c = '-' ∨ hexDigit c = true := by
    intro c hc
    unfold stageNameOf at hc
    rw [List.mem_append, List.mem_append] at hc
    rcases hc with (hpre | hown) | hid
    · exact Or.inl hpre
    · cases owner with
      | none => exact absurd hown List.not_mem_nil
      | some o =>
          rcases List.mem_append.1 hown with ho | hdash
          · exact Or.inr (uuidPattern_char (howner o rfl) ho)
          · exact Or.inr (Or.inl (List.mem_singleton.1 hdash))
    · exact Or.inr (uuidPattern_char hstage hid)
  have hnot : ∀ c, (c ∉ stagePrefix) → c ≠ '-' → hexDigit c = false →
      c ∉ stageNameOf owner stageIdentifier := by
    intro c hpre hdash hhex hc
    rcases hchar c hc with h | h | h
    · exact hpre h
    · exact hdash h
    · rw [hhex] at h
      cases h
  refine ⟨?_, ?_, ?_, ?_⟩
  · rfl
  · exact hnot _ (by decide) (by decide) (by decide)
  · exact hnot _ (by decide) (by decide) (by decide)
  · exact hnot _ (by decide) (by decide) (by decide)

end WheelForge.Storage
