import WheelForge.Validation.MemberPaths

/-!
# What the tree of paths holds

`Topology.insert` succeeds exactly when the new path meets no other (`insert_ok_iff`), and the tree then
holds one path more (`Holds.insert`). Which paths a tree holds does not depend on the order in which
they were taken in.
-/

set_option autoImplicit false

namespace WheelForge.Validation

open WheelForge.Python

variable {unicode : Unicode}

/-- The node at a path below a node. -/
def TopologyNode.below : TopologyNode → List Text → TopologyNode
  | node, [] => node
  | node, component :: rest => (node.children.child component).below rest

/-- The node at a path; the root is a node without a member. -/
def Topology.nodeAt (tree : Topology) (path : List Text) : TopologyNode :=
  (⟨tree, none, false⟩ : TopologyNode).below path

/-- `path` is that of a directory above `other`. -/
def Above (path other : List Text) : Prop := ∃ rest, rest ≠ [] ∧ other = path ++ rest

theorem above_cons_iff {component other : Text} {path query : List Text} :
    Above (component :: query) (other :: path) ↔ component = other ∧ Above query path := by
  constructor
  · rintro ⟨rest, hrest, heq⟩
    obtain ⟨rfl, rfl⟩ := List.cons.inj heq
    exact ⟨rfl, rest, hrest, rfl⟩
  · rintro ⟨rfl, rest, hrest, rfl⟩
    exact ⟨rest, hrest, rfl⟩

theorem above_nil_iff {path : List Text} : Above [] path ↔ path ≠ [] := by
  constructor
  · rintro ⟨rest, hrest, rfl⟩
    simpa using hrest
  · exact fun hpath => ⟨path, hpath, rfl⟩

theorem not_above_nil {path : List Text} : ¬Above path [] := by
  rintro ⟨rest, hrest, heq⟩
  exact hrest (List.append_eq_nil_iff.1 heq.symm).2

namespace Topology

variable {component other rawName : Text} {changed : TopologyNode} {tree tree' : Topology}
  {path query rest : List Text} {isDirectory : Bool}

theorem nodeAt_set_self :
    (tree.set component changed).nodeAt (component :: rest) = changed.below rest := by
  simp [nodeAt, TopologyNode.below]

theorem nodeAt_set_ne (hother : component ≠ other) :
    (tree.set component changed).nodeAt (other :: rest) = tree.nodeAt (other :: rest) := by
  simp [nodeAt, TopologyNode.below, child_set_ne hother]

theorem nodeAt_cons :
    tree.nodeAt (component :: rest) = (tree.child component).below rest := rfl

@[simp] theorem isEmpty_set : (tree.set component changed).isEmpty = false := by
  cases tree with
  | empty => rfl
  | node first terminalRawName isFile children next =>
      by_cases hfirst : first = component
      · simp [set, hfirst, isEmpty]
      · simp [set, hfirst, isEmpty]

end Topology

/-- The path meets no member of the tree: there is none at it, no file above it and, for a file, none
below it. -/
structure Fits (tree : Topology) (path : List Text) (isDirectory : Bool) : Prop where
  no_file_above : ∀ query ≠ [], Above query path → (tree.nodeAt query).isFile = false
  free : (tree.nodeAt path).terminalRawName = none
  none_below : isDirectory = false → (tree.nodeAt path).children.isEmpty = true

/-- What a tree holds after it took a path in. -/
structure Inserted (tree tree' : Topology) (path : List Text) (isDirectory : Bool) : Prop where
  terminal_iff : ∀ query, (tree'.nodeAt query).terminalRawName ≠ none ↔
    (tree.nodeAt query).terminalRawName ≠ none ∨ query = path
  file_iff : ∀ query, (tree'.nodeAt query).isFile = true ↔
    (query ≠ path ∧ (tree.nodeAt query).isFile = true) ∨ (query = path ∧ isDirectory = false)
  children_iff : ∀ query, (tree'.nodeAt query).children.isEmpty = false ↔
    (tree.nodeAt query).children.isEmpty = false ∨ Above query path

section Insert

variable {tree tree' : Topology} {component rawName : Text} {rest path : List Text}
  {isDirectory : Bool}

variable (unicode rawName) in
theorem TopologyNode.finish_ok_iff {node : TopologyNode} :
    (∃ finished, node.finish unicode rawName isDirectory = .ok finished) ↔
      node.terminalRawName = none ∧ (isDirectory = false → node.children.isEmpty = true) := by
  obtain ⟨children, terminalRawName, isFile⟩ := node
  cases terminalRawName with
  | some terminal => simp [TopologyNode.finish]
  | none =>
      constructor
      · rintro ⟨finished, h⟩
        obtain ⟨_, hbelow, -⟩ := bind_ok.1 h
        rw [raiseIf_ok] at hbelow
        exact ⟨rfl, fun hfile => by simpa [hfile] using hbelow⟩
      · rintro ⟨-, hbelow⟩
        refine ⟨_, bind_ok.2 ⟨(), raiseIf_ok.2 ?_, rfl⟩⟩
        rintro ⟨hfile, hchildren⟩
        rw [hbelow hfile] at hchildren
        cases hchildren

theorem fits_singleton_iff :
    Fits tree [component] isDirectory ↔ (tree.child component).terminalRawName = none ∧
      (isDirectory = false → (tree.child component).children.isEmpty = true) := by
  constructor
  · exact fun h => ⟨h.free, h.none_below⟩
  · rintro ⟨hfree, hbelow⟩
    refine ⟨fun query hquery habove => ?_, hfree, hbelow⟩
    cases query with
    | nil => exact absurd rfl hquery
    | cons other query =>
        exact absurd (above_cons_iff.1 habove).2 not_above_nil

/-- A longer path fits when its first component is no file and the rest fits below it. -/
theorem fits_cons_iff (hrest : rest ≠ []) :
    Fits tree (component :: rest) isDirectory ↔ (tree.child component).isFile = false ∧
      Fits (tree.child component).children rest isDirectory := by
  obtain ⟨second, rest, rfl⟩ := List.exists_cons_of_ne_nil hrest
  constructor
  · intro h
    refine ⟨h.no_file_above [component] (by simp) ⟨_, hrest, rfl⟩, ⟨fun query hquery habove => ?_,
      h.free, h.none_below⟩⟩
    obtain ⟨other, query, rfl⟩ := List.exists_cons_of_ne_nil hquery
    exact h.no_file_above (component :: other :: query) (by simp)
      (above_cons_iff.2 ⟨rfl, habove⟩)
  · rintro ⟨hfile, h⟩
    refine ⟨fun query hquery habove => ?_, h.free, h.none_below⟩
    obtain ⟨other, query, rfl⟩ := List.exists_cons_of_ne_nil hquery
    obtain ⟨rfl, hbelow⟩ := above_cons_iff.1 habove
    cases query with
    | nil => exact hfile
    | cons third query => exact h.no_file_above (third :: query) (by simp) hbelow

variable (unicode rawName) in
/-- Taking a path in succeeds exactly when it fits. -/
theorem Topology.insert_ok_iff (hpath : path ≠ []) :
    (∃ tree', tree.insert unicode rawName isDirectory path = .ok tree') ↔
      Fits tree path isDirectory := by
  induction path generalizing tree with
  | nil => exact absurd rfl hpath
  | cons component rest ih =>
      cases rest with
      | nil =>
          rw [fits_singleton_iff, ← TopologyNode.finish_ok_iff unicode rawName]
          constructor
          · rintro ⟨tree', h⟩
            obtain ⟨finished, hfinish, -⟩ := bind_ok.1 h
            exact ⟨finished, hfinish⟩
          · rintro ⟨finished, hfinish⟩
            exact ⟨_, bind_ok.2 ⟨finished, hfinish, rfl⟩⟩
      | cons second rest =>
          rw [fits_cons_iff (by simp), ← ih (by simp)]
          constructor
          · rintro ⟨tree', h⟩
            obtain ⟨_, hfile, h⟩ := bind_ok.1 h
            obtain ⟨children, hchildren, -⟩ := bind_ok.1 h
            rw [raiseIf_ok, Bool.not_eq_true] at hfile
            exact ⟨hfile, children, hchildren⟩
          · rintro ⟨hfile, children, hchildren⟩
            exact ⟨_, bind_ok.2 ⟨(), raiseIf_ok.2 (by simp [hfile]),
              bind_ok.2 ⟨children, hchildren, rfl⟩⟩⟩

theorem TopologyNode.finish_changes {node finished : TopologyNode}
    (h : node.finish unicode rawName isDirectory = .ok finished) :
    finished = ⟨node.children, some rawName, !isDirectory⟩ := by
  obtain ⟨children, terminalRawName, isFile⟩ := node
  cases terminalRawName with
  | some terminal => cases h
  | none =>
      obtain ⟨_, -, h⟩ := bind_ok.1 h
      cases h
      rfl

/-- Taking a path in changes the nodes on it only. -/
theorem Topology.insert_changes (hpath : path ≠ [])
    (h : tree.insert unicode rawName isDirectory path = .ok tree') :
    Inserted tree tree' path isDirectory := by
  induction path generalizing tree tree' with
  | nil => exact absurd rfl hpath
  | cons component rest ih =>
      -- the changed child of the first component; the other children are those before
      obtain ⟨changed, rfl, hterminal, hfile, hchildren⟩ : ∃ changed,
          tree' = tree.set component changed ∧
          (∀ query, (changed.below query).terminalRawName ≠ none ↔
            ((tree.child component).below query).terminalRawName ≠ none ∨ query = rest) ∧
          (∀ query, (changed.below query).isFile = true ↔
            (query ≠ rest ∧ ((tree.child component).below query).isFile = true) ∨
              (query = rest ∧ isDirectory = false)) ∧
          (∀ query, (changed.below query).children.isEmpty = false ↔
            ((tree.child component).below query).children.isEmpty = false ∨ Above query rest) := by
        cases rest with
        | nil =>
            obtain ⟨finished, hfinish, h⟩ := bind_ok.1 h
            cases h
            refine ⟨finished, rfl, fun query => ?_, fun query => ?_, fun query => ?_⟩
            all_goals
              rw [TopologyNode.finish_changes hfinish]
              cases query with
              | nil => simp [TopologyNode.below, not_above_nil]
              | cons third query => simp [TopologyNode.below, not_above_nil]
        | cons second rest =>
            obtain ⟨_, -, h⟩ := bind_ok.1 h
            obtain ⟨children, hinner, h⟩ := bind_ok.1 h
            cases h
            have hinserted := ih (by simp) hinner
            refine ⟨_, rfl, fun query => ?_, fun query => ?_, fun query => ?_⟩
            · cases query with
              | nil => simp [TopologyNode.below]
              | cons third query => exact hinserted.terminal_iff (third :: query)
            · cases query with
              | nil => simp [TopologyNode.below]
              | cons third query => exact hinserted.file_iff (third :: query)
            · cases query with
              | nil =>
                  have hroot := hinserted.children_iff []
                  simpa [TopologyNode.below, nodeAt] using hroot
              | cons third query => exact hinserted.children_iff (third :: query)
      refine ⟨fun query => ?_, fun query => ?_, fun query => ?_⟩
      all_goals
        cases query with
        | nil => simp [nodeAt, TopologyNode.below, above_nil_iff]
        | cons other query =>
            by_cases hother : component = other
            · subst hother
              rw [nodeAt_set_self, nodeAt_cons]
              simp only [List.cons.injEq, true_and, ne_eq, above_cons_iff]
              first
                | exact hterminal query
                | exact hfile query
                | exact hchildren query
            · rw [nodeAt_set_ne hother]
              simp [above_cons_iff, Ne.symm hother]

/-- The paths of the members that a tree holds, with whether they are directories. -/
structure Holds (tree : Topology) (paths : List (List Text × Bool)) : Prop where
  terminal_iff : ∀ query, (tree.nodeAt query).terminalRawName ≠ none ↔
    query ∈ paths.map Prod.fst
  file_iff : ∀ query, (tree.nodeAt query).isFile = true ↔ (query, false) ∈ paths
  children_iff : ∀ query, (tree.nodeAt query).children.isEmpty = false ↔
    ∃ path ∈ paths.map Prod.fst, Above query path

theorem holds_empty : Holds .empty [] := by
  have hbelow : ∀ query, (Topology.nodeAt .empty query) = ⟨.empty, none, false⟩ := by
    intro query
    induction query with
    | nil => rfl
    | cons component query ih => exact ih
  exact ⟨by simp [hbelow], by simp [hbelow], by simp [hbelow, Topology.isEmpty]⟩

/-- The new path meets none of the paths in a list. -/
structure Separate (paths : List (List Text × Bool)) (path : List Text) (isDirectory : Bool) :
    Prop where
  free : path ∉ paths.map Prod.fst
  no_file_above : ∀ query, (query, false) ∈ paths → ¬Above query path
  none_below : isDirectory = false → ∀ query ∈ paths.map Prod.fst, ¬Above path query

/-- Whether a path fits depends on the paths that the tree holds only. -/
theorem Holds.fits_iff {paths : List (List Text × Bool)} (h : Holds tree paths)
    (hroot : ([], false) ∉ paths) :
    Fits tree path isDirectory ↔ Separate paths path isDirectory := by
  constructor
  · intro hfits
    refine ⟨fun hmem => (h.terminal_iff path).2 hmem hfits.free, fun query hquery habove => ?_,
      fun hfile query hquery habove => ?_⟩
    · have hne : query ≠ [] := by
        rintro rfl
        exact hroot hquery
      have hfalse := hfits.no_file_above query hne habove
      rw [(h.file_iff query).2 hquery] at hfalse
      cases hfalse
    · have htrue := hfits.none_below hfile
      rw [(h.children_iff path).2 ⟨query, hquery, habove⟩] at htrue
      cases htrue
  · intro hseparate
    refine ⟨fun query _ habove => ?_, ?_, fun hfile => ?_⟩
    · rw [← Bool.not_eq_true, h.file_iff]
      exact fun hquery => hseparate.no_file_above query hquery habove
    · by_contra hsome
      exact hseparate.free ((h.terminal_iff path).1 hsome)
    · rw [← Bool.not_eq_false, h.children_iff]
      rintro ⟨query, hquery, habove⟩
      exact hseparate.none_below hfile query hquery habove

/-- A tree that took a path in holds that path too. -/
theorem Holds.insert {paths : List (List Text × Bool)} (h : Holds tree paths) (hpath : path ≠ [])
    (hfree : path ∉ paths.map Prod.fst)
    (hinsert : tree.insert unicode rawName isDirectory path = .ok tree') :
    Holds tree' (paths ++ [(path, isDirectory)]) := by
  have hinserted := Topology.insert_changes hpath hinsert
  refine ⟨fun query => ?_, fun query => ?_, fun query => ?_⟩
  · rw [hinserted.terminal_iff, h.terminal_iff]
    simp
  · rw [hinserted.file_iff, h.file_iff, List.mem_append, List.mem_singleton, Prod.mk.injEq,
      eq_comm (a := false)]
    constructor
    · rintro (⟨-, hquery⟩ | hquery)
      · exact .inl hquery
      · exact .inr hquery
    · rintro (hquery | hquery)
      · refine .inl ⟨?_, hquery⟩
        rintro rfl
        exact hfree (List.mem_map_of_mem (f := Prod.fst) hquery)
      · exact .inr hquery
  · rw [hinserted.children_iff, h.children_iff]
    simp only [List.map_append, List.map_singleton, List.mem_append, List.mem_singleton]
    constructor
    · rintro (⟨other, hother, habove⟩ | habove)
      · exact ⟨other, .inl hother, habove⟩
      · exact ⟨path, .inr rfl, habove⟩
    · rintro ⟨other, hother | rfl, habove⟩
      · exact .inl ⟨other, hother, habove⟩
      · exact .inr habove

end Insert

end WheelForge.Validation
