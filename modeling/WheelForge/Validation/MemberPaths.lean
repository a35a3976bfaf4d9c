import WheelForge.Python.Exceptions
import WheelForge.Python.Text

/-!
# Paths of archive members

`portablePath` is the check of a member name, `portableKey` what two names must not share on a file
system that ignores case, and `Topology.insert` the tree that keeps files and directories apart. A
tree that took a path in had no member there (`Topology.insert_ok`), so the members of an archive have
different keys.
-/

set_option autoImplicit false

namespace WheelForge.Validation

open WheelForge.Python

/-- A `WheelArchiveValidationError`, by its class. -/
inductive ArchiveError where
  | unsafeWheelArchive (message : String)
  | archiveResourceLimitError (message : String)
  | archiveMetadataError (message : String)
  | wheelRecordMismatch (message : String)
deriving DecidableEq, Repr

/-- Case folding and `unicodedata.normalize("NFC", text)`. No character but the slash folds to a text
with a slash. -/
structure Unicode where
  foldChar : Char → Text
  nfc : Text → Text
  foldChar_slash : foldChar '/' = ['/']
  eq_slash_of_mem : ∀ c, '/' ∈ foldChar c → c = '/'

variable (unicode : Unicode)

/-- `text.casefold()`. -/
def Unicode.casefold (text : Text) : Text := text.flatMap unicode.foldChar

/-- `name.removesuffix("/")`. -/
def removeSlash (name : Text) : Text :=
  if name.getLast? = some '/' then name.dropLast else name

/-- `text.rpartition("/")`, when there is a slash. -/
def rpartitionSlash (text : Text) : Option (Text × Text) :=
  if '/' ∈ text then
    some ((text.reverse.dropWhile (· ≠ '/')).tail.reverse,
      (text.reverse.takeWhile (· ≠ '/')).reverse)
  else none

/-- `_portable_key`. -/
def portableKey (name : Text) : Text := unicode.casefold (removeSlash name)

/-- `_is_dist_info_core_path`. -/
def isDistInfoCorePath (name : Text) : Bool :=
  match rpartitionSlash (portableKey unicode name) with
  | none => false
  | some (directory, filename) =>
      ".dist-info".toList.isSuffixOf directory &&
        (filename = "metadata".toList || filename = "wheel".toList || filename = "record".toList)

/-- The reserved Windows device names, `com1` to `lpt9` among them. -/
def isReservedDevice (basename : Text) : Bool :=
  basename ∈ ["con".toList, "prn".toList, "aux".toList, "nul".toList] ||
    match basename with
    | [a, b, c, digit] => [a, b, c] ∈ ["com".toList, "lpt".toList] && '1' ≤ digit && digit ≤ '9'
    | _ => false

/-- `_validate_windows_component`. -/
def validateWindowsComponent (component : Text) : Except ArchiveError Unit := do
  raiseIf (component.getLast? = some '.' ∨ component.getLast? = some ' ')
    (.unsafeWheelArchive "archive member has a Windows-unsafe trailing character")
  raiseIf (component.any fun c => decide (c.toNat < 32) || c ∈ "<>:\"|?*".toList)
    (.unsafeWheelArchive "archive member contains a Windows-illegal character")
  raiseIf (isReservedDevice (unicode.casefold (component.takeWhile (· ≠ '.'))))
    (.unsafeWheelArchive "archive member uses a reserved Windows device name")

/-- `re.match(r"^[A-Za-z]:", name)`. -/
def isDriveQualified : Text → Bool
  | letter :: ':' :: _ => letter.isAlpha
  | _ => false

/-- The checks of `_portable_path` on each of the components. -/
def validateComponent (component : Text) : Except ArchiveError Unit := do
  raiseIf (unicode.nfc component ≠ component)
    (.unsafeWheelArchive "archive member path is not NFC-normalized")
  validateWindowsComponent unicode component

/-- `_portable_path`. -/
def portablePath (name : Text) (isDirectory : Bool) : Except ArchiveError Text := do
  raiseIf (name = [] ∨ Char.ofNat 0 ∈ name ∨ '\\' ∈ name)
    (.unsafeWheelArchive "archive member path is unsafe")
  raiseIf (name.head? = some '/' ∨ isDriveQualified name)
    (.unsafeWheelArchive "archive member path is absolute or drive-qualified")
  raiseIf (isDirectory ∧ name.getLast? ≠ some '/')
    (.unsafeWheelArchive "directory member name is malformed")
  let stem := if isDirectory then name.dropLast else name
  raiseIf (stem = [])
    (.unsafeWheelArchive "archive member path is empty")
  let components := stem.splitOn '/'
  raiseIf (components.any fun component => component ∈ ([[], ['.'], ['.', '.']] : List Text))
    (.unsafeWheelArchive "archive member path contains an unsafe component")
  forM components (validateComponent unicode)
  let normalized := ['/'].intercalate components
  return if isDirectory then normalized ++ ['/'] else normalized

/-! ## The tree of paths -/

/-- The nodes below a `_TopologyNode`, by the case-folded component; `node` is the first of them and
`next` the others. -/
inductive Topology where
  | empty
  | node (component : Text) (terminalRawName : Option Text) (isFile : Bool)
      (children next : Topology)

/-- A `_TopologyNode`. -/
structure TopologyNode where
  children : Topology
  terminalRawName : Option Text
  isFile : Bool

namespace Topology

/-- `node.children.get(component)`. -/
def find (component : Text) : Topology → Option TopologyNode
  | empty => none
  | node other terminalRawName isFile children next =>
      if other = component then some ⟨children, terminalRawName, isFile⟩ else next.find component

/-- `node.children[component] = changed`. -/
def set (component : Text) (changed : TopologyNode) : Topology → Topology
  | empty => node component changed.terminalRawName changed.isFile changed.children empty
  | node other terminalRawName isFile children next =>
      if other = component then
        node component changed.terminalRawName changed.isFile changed.children next
      else node other terminalRawName isFile children (next.set component changed)

/-- `node.children.setdefault(component, _TopologyNode())`. -/
def child (component : Text) (tree : Topology) : TopologyNode :=
  (tree.find component).getD ⟨empty, none, false⟩

/-- The raw name of the member at a path. -/
def terminalAt : Topology → List Text → Option Text
  | _, [] => none
  | tree, [component] => (tree.child component).terminalRawName
  | tree, component :: rest => (tree.child component).children.terminalAt rest

end Topology

/-- Whether there is no child: the negation of the truth value of `node.children`. -/
def Topology.isEmpty : Topology → Bool
  | empty => true
  | node .. => false

/-- What `_insert_topology` raises when another member has the path already. -/
def duplicateError (rawName terminal : Text) : ArchiveError :=
  if isDistInfoCorePath unicode rawName ∨ isDistInfoCorePath unicode terminal then
    .archiveMetadataError "archive contains duplicate portable dist-info core metadata"
  else .unsafeWheelArchive "archive contains a duplicate portable member path"

/-- What `_insert_topology` does at the last component. -/
def TopologyNode.finish (rawName : Text) (isDirectory : Bool) (node : TopologyNode) :
    Except ArchiveError TopologyNode :=
  match node.terminalRawName with
  | some terminal => .error (duplicateError unicode rawName terminal)
  | none => do
      raiseIf (isDirectory = false ∧ node.children.isEmpty = false)
        (.unsafeWheelArchive "archive file is the parent of another member")
      return { node with terminalRawName := some rawName, isFile := !isDirectory }

/-- The descent of `_insert_topology` along the case-folded components. -/
def Topology.insert (rawName : Text) (isDirectory : Bool) :
    List Text → Topology → Except ArchiveError Topology
  | [], tree => return tree
  | [component], tree => do
      let finished ← (tree.child component).finish unicode rawName isDirectory
      return tree.set component finished
  | component :: rest, tree => do
      let node := tree.child component
      raiseIf (node.isFile)
        (.unsafeWheelArchive "archive member is nested beneath a file")
      let children ← Topology.insert rawName isDirectory rest node.children
      return tree.set component { node with children }

/-- The case-folded components of a path. -/
def foldedComponents (normalized : Text) : List Text :=
  ((removeSlash normalized).splitOn '/').map unicode.casefold

/-- `_insert_topology`. -/
def insertTopology (tree : Topology) (normalized rawName : Text) (isDirectory : Bool) :
    Except ArchiveError Topology :=
  tree.insert unicode rawName isDirectory (foldedComponents unicode normalized)

variable {unicode}

namespace Topology

variable {component other rawName : Text} {changed : TopologyNode} {tree tree' : Topology}
  {path query : List Text} {isDirectory : Bool}

theorem find_set_self : (tree.set component changed).find component = some changed := by
  induction tree with
  | empty => simp [set, find]
  | node first terminalRawName isFile children next _ ih =>
      by_cases hfirst : first = component
      · simp [set, find, hfirst]
      · simp [set, find, hfirst, ih]

theorem find_set_ne (hother : component ≠ other) :
    (tree.set component changed).find other = tree.find other := by
  induction tree with
  | empty => simp [set, find, hother]
  | node first terminalRawName isFile children next _ ih =>
      by_cases hfirst : first = component
      · simp [set, find, hfirst, hother]
      · by_cases hfound : first = other
        · subst hfound
          simp [set, find, hfirst]
        · simp [set, find, hfirst, hfound, ih]

@[simp] theorem child_set_self : (tree.set component changed).child component = changed := by
  simp [child, find_set_self]

theorem child_set_ne (hother : component ≠ other) :
    (tree.set component changed).child other = tree.child other := by
  simp [child, find_set_ne hother]

/-- A changed node is seen by the paths through its component only. -/
theorem terminalAt_set_ne {rest : List Text} (hother : component ≠ other) :
    (tree.set component changed).terminalAt (other :: rest) = tree.terminalAt (other :: rest) := by
  cases rest with
  | nil => simp [terminalAt, child_set_ne hother]
  | cons => simp [terminalAt, child_set_ne hother]

end Topology

theorem TopologyNode.finish_ok {node finished : TopologyNode} {rawName : Text} {isDirectory : Bool}
    (h : node.finish unicode rawName isDirectory = .ok finished) :
    node.terminalRawName = none ∧ finished.terminalRawName = some rawName ∧
      finished.children = node.children := by
  obtain ⟨children, terminalRawName, isFile⟩ := node
  cases terminalRawName with
  | some terminal => cases h
  | none =>
      obtain ⟨_, -, h⟩ := bind_ok.1 h
      cases h
      exact ⟨rfl, rfl, rfl⟩

/-- Taking a path in: there was no member at it, and there is none new at any other. -/
theorem Topology.insert_ok {rawName : Text} {isDirectory : Bool} {path : List Text}
    {tree tree' : Topology} (hpath : path ≠ [])
    (h : tree.insert unicode rawName isDirectory path = .ok tree') :
    tree.terminalAt path = none ∧ tree'.terminalAt path = some rawName ∧
      ∀ query ≠ path, tree'.terminalAt query = tree.terminalAt query := by
  induction path generalizing tree tree' with
  | nil => exact absurd rfl hpath
  | cons component rest ih =>
      cases rest with
      | nil =>
          obtain ⟨finished, hfinish, h⟩ := bind_ok.1 h
          cases h
          obtain ⟨hnone, hsome, hchildren⟩ := TopologyNode.finish_ok hfinish
          refine ⟨hnone, by simp [terminalAt, hsome], fun query hquery => ?_⟩
          cases query with
          | nil => simp [terminalAt]
          | cons other query =>
              by_cases hother : component = other
              · subst hother
                cases query with
                | nil => exact absurd rfl hquery
                | cons => simp [terminalAt, hchildren]
              · exact terminalAt_set_ne hother
      | cons second rest =>
          obtain ⟨_, -, h⟩ := bind_ok.1 h
          obtain ⟨children, hchildren, h⟩ := bind_ok.1 h
          cases h
          obtain ⟨hnone, hsome, hothers⟩ := ih (by simp) hchildren
          refine ⟨by simpa [terminalAt] using hnone, by simpa [terminalAt] using hsome,
            fun query hquery => ?_⟩
          cases query with
          | nil => simp [terminalAt]
          | cons other query =>
              by_cases hother : component = other
              · subst hother
                cases query with
                | nil => simp [terminalAt]
                | cons third query =>
                    have hne : third :: query ≠ second :: rest := by
                      intro heq
                      exact hquery (by rw [heq])
                    simpa [terminalAt] using hothers _ hne
              · exact terminalAt_set_ne hother

/-! ## Names and keys -/

theorem splitOn_append_of_notMem {text rest : Text} (h : '/' ∉ text) :
    (text ++ rest).splitOn '/' = (rest.splitOn '/').modifyHead (text ++ ·) := by
  induction text with
  | nil => cases hrest : rest.splitOn '/' <;> simp [hrest]
  | cons c text ih =>
      have hc : c ≠ '/' := fun hc => h (by simp [hc])
      have htext : '/' ∉ text := fun hmem => h (List.mem_cons_of_mem _ hmem)
      rw [List.cons_append, List.splitOn_cons_eq_if_modifyHead, ih htext]
      simp [hc, List.modifyHead_modifyHead, Function.comp_def]

/-- Folding a name folds each of its components. -/
theorem splitOn_casefold (text : Text) :
    (unicode.casefold text).splitOn '/' = (text.splitOn '/').map unicode.casefold := by
  induction text with
  | nil => simp [Unicode.casefold]
  | cons c text ih =>
      have hfold : unicode.casefold (c :: text) = unicode.foldChar c ++ unicode.casefold text := by
        simp [Unicode.casefold]
      rw [hfold, List.splitOn_cons_eq_if_modifyHead]
      by_cases hc : c = '/'
      · subst hc
        rw [unicode.foldChar_slash, List.singleton_append, List.splitOn_cons_eq_if_modifyHead]
        simp only [ih, beq_self_eq_true, if_true, List.map_cons]
        rfl
      · -- no slash comes from folding another character
        have hnone : '/' ∉ unicode.foldChar c := fun hmem => hc (unicode.eq_slash_of_mem c hmem)
        rw [splitOn_append_of_notMem hnone, ih]
        cases htext : text.splitOn '/' with
        | nil => exact absurd htext (List.splitOn_ne_nil _ _)
        | cons first others => simp [hc, Unicode.casefold]

/-- Two paths with one key have one place in the tree. -/
theorem foldedComponents_eq {name other : Text}
    (h : portableKey unicode name = portableKey unicode other) :
    foldedComponents unicode name = foldedComponents unicode other := by
  rw [foldedComponents, foldedComponents, ← splitOn_casefold, ← splitOn_casefold]
  exact congrArg (List.splitOn '/') h

theorem foldedComponents_ne_nil (name : Text) : foldedComponents unicode name ≠ [] := by
  simp [foldedComponents]

/-- The normalized path is the name itself. -/
theorem portablePath_ok {name normalized : Text} {isDirectory : Bool}
    (h : portablePath unicode name isDirectory = .ok normalized) : normalized = name := by
  obtain ⟨_, hname, h⟩ := bind_ok.1 h
  obtain ⟨_, -, h⟩ := bind_ok.1 h
  obtain ⟨_, hslash, h⟩ := bind_ok.1 h
  obtain ⟨_, -, h⟩ := bind_ok.1 h
  obtain ⟨_, -, h⟩ := bind_ok.1 h
  obtain ⟨_, -, h⟩ := bind_ok.1 h
  cases h
  rw [raiseIf_ok] at hslash
  rw [List.intercalate_splitOn]
  cases isDirectory with
  | false => rfl
  | true =>
      have hlast : name.getLast? = some '/' := by simpa using hslash
      simpa using List.dropLast_append_getLast? _ hlast

end WheelForge.Validation
