import Mathlib.Order.Basic

/-!
# Directory trees

The entries of a directory, in the order in which they are listed; an entry is a file or a directory
with entries of its own. `opened` follows a path of directories, `update` changes the directory at a
path, `remove` takes the entry of a name away.

`weight` counts the entries, directories twice, and `paths` lists the paths of all directories. What
`update` does to the three is `opened_update`, `weight_update` and `paths_update`.
-/

set_option autoImplicit false

namespace WheelForge.Posix

variable {ν : Type}

/-- The entries of a directory. -/
inductive Entries (ν : Type) where
  | nil
  | file (name : ν) (rest : Entries ν)
  | directory (name : ν) (children rest : Entries ν)

/-- What a name of a directory stands for. -/
inductive Entry (ν : Type) where
  | file
  | directory (children : Entries ν)

/-- The entries of a directory entry. -/
def Entry.children : Entry ν → Option (Entries ν)
  | .file => none
  | .directory children => some children

namespace Entries

/-- The names in the order in which they are listed. -/
def names : Entries ν → List ν
  | nil => []
  | file name rest => name :: rest.names
  | directory name _ rest => name :: rest.names

/-- The number of files and twice the number of directories. -/
def weight : Entries ν → Nat
  | nil => 0
  | file _ rest => rest.weight + 1
  | directory _ children rest => children.weight + rest.weight + 2

/-- The paths of the directories. -/
def paths : Entries ν → List (List ν)
  | nil => []
  | file _ rest => rest.paths
  | directory name children rest =>
      [name] :: (children.paths.map (name :: ·) ++ rest.paths)

theorem eq_nil_of_names {t : Entries ν} (h : t.names = []) : t = nil := by
  cases t with
  | nil => rfl
  | file other rest => cases h
  | directory other children rest => cases h

variable [DecidableEq ν]

/-- The entry of a name. -/
def find (name : ν) : Entries ν → Option (Entry ν)
  | nil => none
  | file other rest => if other = name then some .file else rest.find name
  | directory other children rest =>
      if other = name then some (.directory children) else rest.find name

/-- The entries without the one of a name. -/
def remove (name : ν) : Entries ν → Entries ν
  | nil => nil
  | file other rest => if other = name then rest else file other (rest.remove name)
  | directory other children rest =>
      if other = name then rest else directory other children (rest.remove name)

/-- The entries with those of the directory `name` changed. -/
def modify (name : ν) (f : Entries ν → Entries ν) : Entries ν → Entries ν
  | nil => nil
  | file other rest => if other = name then file other rest else file other (rest.modify name f)
  | directory other children rest =>
      if other = name then directory other (f children) rest
      else directory other children (rest.modify name f)

/-- The entries of the directory at a path. -/
def opened : List ν → Entries ν → Option (Entries ν)
  | [], t => some t
  | name :: path, t => ((t.find name).bind Entry.children).bind (opened path)

/-- The tree with the directory at a path changed. -/
def update (f : Entries ν → Entries ν) : List ν → Entries ν → Entries ν
  | [], t => f t
  | name :: path, t => t.modify name (update f path)

variable {name : ν} {t c d : Entries ν} {path : List ν} {f : Entries ν → Entries ν}

@[simp] theorem opened_nil (t : Entries ν) : t.opened [] = some t := rfl

@[simp] theorem update_nil (t : Entries ν) : t.update f [] = f t := rfl

theorem opened_cons : t.opened (name :: path) = some c ↔
    ∃ d, t.find name = some (.directory d) ∧ d.opened path = some c := by
  change ((t.find name).bind Entry.children).bind (opened path) = some c ↔ _
  constructor
  · intro h
    rcases hfind : t.find name with _ | (_ | d)
    · simp [hfind] at h
    · simp [hfind, Entry.children] at h
    · simp only [hfind, Entry.children, Option.bind_some] at h
      exact ⟨d, rfl, h⟩
  · rintro ⟨d, hfind, hd⟩
    simp only [hfind, Option.bind_some, Entry.children, hd]

/-- Opening a directory inside an opened one. -/
theorem opened_append (hopen : t.opened path = some c) (hfind : c.find name = some (.directory d)) :
    t.opened (path ++ [name]) = some d := by
  induction path generalizing t with
  | nil =>
      cases hopen
      exact opened_cons.2 ⟨d, hfind, rfl⟩
  | cons first path ih =>
      obtain ⟨e, he, hopen⟩ := opened_cons.1 hopen
      exact opened_cons.2 ⟨e, he, ih hopen⟩

/-- The directory that an opened one is in. -/
theorem opened_of_append (hopen : t.opened (path ++ [name]) = some d) :
    ∃ c, t.opened path = some c ∧ c.find name = some (.directory d) := by
  induction path generalizing t with
  | nil =>
      obtain ⟨e, he, hopen⟩ := opened_cons.1 hopen
      cases hopen
      exact ⟨t, rfl, he⟩
  | cons first path ih =>
      obtain ⟨e, he, hopen⟩ := opened_cons.1 hopen
      obtain ⟨c, hc, hfind⟩ := ih hopen
      exact ⟨c, opened_cons.2 ⟨e, he, hc⟩, hfind⟩

/-- The directories on the way to an opened one. -/
theorem opened_prefix {rest : List ν} (hopen : t.opened (path ++ rest) = some d) :
    ∃ c, t.opened path = some c := by
  induction path generalizing t with
  | nil => exact ⟨t, rfl⟩
  | cons first path ih =>
      obtain ⟨e, he, hopen⟩ := opened_cons.1 hopen
      obtain ⟨c, hc⟩ := ih hopen
      exact ⟨c, opened_cons.2 ⟨e, he, hc⟩⟩

theorem find_isSome : (t.find name).isSome ↔ name ∈ t.names := by
  induction t with
  | nil => simp [find, names]
  | file other rest ih =>
      unfold find names
      split
      · next h => simp [h]
      · next h => simp [ih, Ne.symm h]
  | directory other children rest _ ih =>
      unfold find names
      split
      · next h => simp [h]
      · next h => simp [ih, Ne.symm h]

/-! ## Changing a directory -/

theorem find_modify (hfind : t.find name = some (.directory d)) :
    (t.modify name f).find name = some (.directory (f d)) := by
  induction t with
  | nil => cases hfind
  | file other rest ih =>
      unfold find at hfind
      split at hfind
      · cases hfind
      · next h => simpa [modify, h, find] using ih hfind
  | directory other children rest _ ih =>
      unfold find at hfind
      split at hfind
      · next h =>
        cases hfind
        simp [modify, h, find]
      · next h => simpa [modify, h, find] using ih hfind

theorem opened_update (hopen : t.opened path = some c) :
    (t.update f path).opened path = some (f c) := by
  induction path generalizing t with
  | nil =>
      cases hopen
      rfl
  | cons name path ih =>
      obtain ⟨d, hfind, hopen⟩ := opened_cons.1 hopen
      exact opened_cons.2 ⟨_, find_modify hfind, ih hopen⟩

theorem weight_modify (hfind : t.find name = some (.directory d)) :
    (t.modify name f).weight + d.weight = t.weight + (f d).weight := by
  induction t with
  | nil => cases hfind
  | file other rest ih =>
      unfold find at hfind
      split at hfind
      · cases hfind
      · next h =>
        simp only [modify, h, if_false, weight]
        have := ih hfind
        omega
  | directory other children rest _ ih =>
      unfold find at hfind
      split at hfind
      · next h =>
        cases hfind
        simp only [modify, h, if_true, weight]
        omega
      · next h =>
        simp only [modify, h, if_false, weight]
        have := ih hfind
        omega

theorem weight_update (hopen : t.opened path = some c) :
    (t.update f path).weight + c.weight = t.weight + (f c).weight := by
  induction path generalizing t with
  | nil =>
      cases hopen
      exact Nat.add_comm _ _
  | cons name path ih =>
      obtain ⟨d, hfind, hopen⟩ := opened_cons.1 hopen
      have houter := weight_modify (f := update f path) hfind
      have hinner := ih hopen
      simp only [update]
      omega

theorem weight_find (hfind : t.find name = some (.directory d)) : d.weight + 2 ≤ t.weight := by
  induction t with
  | nil => cases hfind
  | file other rest ih =>
      unfold find at hfind
      split at hfind
      · cases hfind
      · have := ih hfind
        simp only [weight]
        omega
  | directory other children rest _ ih =>
      unfold find at hfind
      split at hfind
      · cases hfind
        simp only [weight]
        omega
      · have := ih hfind
        simp only [weight]
        omega

/-- A path is at most half as long as the tree is heavy. -/
theorem weight_opened (hopen : t.opened path = some c) :
    c.weight + 2 * path.length ≤ t.weight := by
  induction path generalizing t with
  | nil =>
      cases hopen
      simp
  | cons name path ih =>
      obtain ⟨d, hfind, hopen⟩ := opened_cons.1 hopen
      have hfirst := weight_find hfind
      have hrest := ih hopen
      simp only [List.length_cons]
      omega

theorem weight_remove_file (hfind : t.find name = some .file) :
    (t.remove name).weight + 1 = t.weight := by
  induction t with
  | nil => cases hfind
  | file other rest ih =>
      unfold find at hfind
      split at hfind
      · next h => simp [remove, h, weight]
      · next h =>
        have := ih hfind
        simp only [remove, h, if_false, weight]
        omega
  | directory other children rest _ ih =>
      unfold find at hfind
      split at hfind
      · cases hfind
      · next h =>
        have := ih hfind
        simp only [remove, h, if_false, weight]
        omega

theorem weight_remove_directory (hfind : t.find name = some (.directory nil)) :
    (t.remove name).weight + 2 = t.weight := by
  induction t with
  | nil => cases hfind
  | file other rest ih =>
      unfold find at hfind
      split at hfind
      · cases hfind
      · next h =>
        have := ih hfind
        simp only [remove, h, if_false, weight]
        omega
  | directory other children rest _ ih =>
      unfold find at hfind
      split at hfind
      · next h =>
        cases hfind
        simp [remove, h, weight]
      · next h =>
        have := ih hfind
        simp only [remove, h, if_false, weight]
        omega

/-! ## Paths -/

theorem paths_remove (name : ν) (t : Entries ν) : (t.remove name).paths ⊆ t.paths := by
  induction t with
  | nil => exact List.Subset.refl _
  | file other rest ih =>
      unfold remove
      split
      · exact List.Subset.refl _
      · exact ih
  | directory other children rest _ ih =>
      unfold remove
      split
      · intro path h
        exact List.mem_cons_of_mem _ (List.mem_append_right _ h)
      · intro path h
        simp only [paths, List.mem_cons, List.mem_append] at h ⊢
        exact h.imp_right (Or.imp_right (@ih path))

theorem paths_modify (hfind : t.find name = some (.directory d)) (hf : (f d).paths ⊆ d.paths) :
    (t.modify name f).paths ⊆ t.paths := by
  induction t with
  | nil => cases hfind
  | file other rest ih =>
      unfold find at hfind
      split at hfind
      · cases hfind
      · next h =>
        simp only [modify, h, if_false, paths]
        exact ih hfind
  | directory other children rest _ ih =>
      unfold find at hfind
      split at hfind
      · next h =>
        cases hfind
        intro path hpath
        simp only [modify, h, if_true, paths, List.mem_cons, List.mem_append, List.mem_map]
          at hpath ⊢
        rcases hpath with rfl | ⟨inner, hinner, rfl⟩ | hpath
        · exact Or.inl rfl
        · exact Or.inr (Or.inl ⟨inner, hf hinner, rfl⟩)
        · exact Or.inr (Or.inr hpath)
      · next h =>
        intro path hpath
        simp only [modify, h, if_false, paths, List.mem_cons, List.mem_append] at hpath ⊢
        exact hpath.imp_right (Or.imp_right (@ih hfind path))

theorem paths_update (hopen : t.opened path = some c) (hf : (f c).paths ⊆ c.paths) :
    (t.update f path).paths ⊆ t.paths := by
  induction path generalizing t with
  | nil =>
      cases hopen
      exact hf
  | cons name path ih =>
      obtain ⟨d, hfind, hopen⟩ := opened_cons.1 hopen
      exact paths_modify hfind (ih hopen)

theorem find_mem_paths (hfind : t.find name = some (.directory d)) :
    [name] ∈ t.paths ∧ ∀ path ∈ d.paths, name :: path ∈ t.paths := by
  induction t with
  | nil => cases hfind
  | file other rest ih =>
      unfold find at hfind
      split at hfind
      · cases hfind
      · exact ih hfind
  | directory other children rest _ ih =>
      unfold find at hfind
      simp only [paths, List.mem_cons, List.mem_append, List.mem_map]
      split at hfind
      · next h =>
        cases hfind
        subst h
        exact ⟨Or.inl rfl, fun path hpath => Or.inr (Or.inl ⟨path, hpath, rfl⟩)⟩
      · obtain ⟨hname, hinner⟩ := ih hfind
        exact ⟨Or.inr (Or.inr hname), fun path hpath => Or.inr (Or.inr (hinner path hpath))⟩

theorem opened_mem_paths (hopen : t.opened path = some c) (hne : path ≠ []) :
    path ∈ t.paths := by
  induction path generalizing t with
  | nil => exact absurd rfl hne
  | cons name path ih =>
      obtain ⟨d, hfind, hopen⟩ := opened_cons.1 hopen
      obtain ⟨hname, hinner⟩ := find_mem_paths hfind
      cases path with
      | nil => exact hname
      | cons next path => exact hinner _ (ih hopen (List.cons_ne_nil _ _))

end Entries

end WheelForge.Posix
