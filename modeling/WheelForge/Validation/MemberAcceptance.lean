import WheelForge.Validation.MemberTopology
import WheelForge.Validation.RecordAgreement
import Mathlib.Algebra.Order.BigOperators.Group.List

/-!
# Which members an archive may have

`ArchiveAllowed` says without an order which members an archive may have. `validateArchiveMembers`, which
takes them one by one, accepts exactly these archives (`validateArchiveMembers_accepts`), in whatever
order the members come.
-/

set_option autoImplicit false

namespace WheelForge.Validation

open WheelForge.Python

/-! ## The predicate -/

section Allowed

variable (unicode : Unicode) (limits : ArchiveLimits)

/-- A component of a path that every target file system can hold. -/
structure SafeComponent (component : Text) : Prop where
  ne_empty : component ≠ []
  ne_current : component ≠ ['.']
  ne_parent : component ≠ ['.', '.']
  nfc : unicode.nfc component = component
  no_trailing : component.getLast? ≠ some '.' ∧ component.getLast? ≠ some ' '
  no_illegal : ∀ c ∈ component, 32 ≤ c.toNat ∧ c ∉ "<>:\"|?*".toList
  not_reserved : isReservedDevice (unicode.casefold (component.takeWhile (· ≠ '.'))) = false

/-- A safe relative path; the name of a directory ends in a slash. -/
structure SafePath (name : Text) (isDirectory : Bool) : Prop where
  no_backslash : '\\' ∉ name
  not_absolute : name.head? ≠ some '/'
  directory_slash : isDirectory = true → name.getLast? = some '/'
  components : ∀ component ∈ (if isDirectory then name.dropLast else name).splitOn '/',
    SafeComponent unicode component

/-- What the fields of a member may be. -/
structure MemberAllowed (info : ZipInfo) : Prop where
  single_disk : info.volume = 0
  not_encrypted : info.flagBits &&& 0x1 = 0
  not_symlink : (info.externalAttr >>> 16) &&& 0o170000 ≠ 0o120000
  sizes_nonneg : 0 ≤ info.fileSize ∧ 0 ≤ info.compressSize
  directory_empty : info.isDir = true → info.fileSize = 0
  entry_limit : info.fileSize ≤ limits.maxEntryUncompressedBytes
  ratio_limit : 0 < info.fileSize → info.compressSize ≠ 0 ∧
    trueDivision info.fileSize.toNat info.compressSize.toNat ≤ limits.maxCompressionRatio

/-- The case-folded name of a member, without the slash of a directory. -/
def foldedName (info : ZipInfo) : Text := portableKey unicode info.origFilename

/-- The members that may be in one archive. -/
structure MembersAllowed (infos : List ZipInfo) : Prop where
  paths_safe : ∀ info ∈ infos, SafePath unicode info.origFilename info.isDir
  keys_nodup : (infos.map (foldedName unicode)).Nodup
  no_file_above : ∀ info ∈ infos, info.isDir = false → ∀ other ∈ infos,
    ¬(foldedName unicode info ++ ['/']) <+: foldedName unicode other
  members_allowed : ∀ info ∈ infos, MemberAllowed limits info
  total_limit : (infos.map ZipInfo.fileSize).sum ≤ limits.maxTotalUncompressedBytes

/-- The archives that may be validated further. -/
structure ArchiveAllowed (infos : List ZipInfo) : Prop extends MembersAllowed unicode limits infos where
  entry_count : infos.length ≤ limits.maxEntries

end Allowed

variable {unicode : Unicode} {limits : ArchiveLimits}

/-- Which members are allowed does not depend on their order. -/
theorem MembersAllowed.perm {infos others : List ZipInfo} (hperm : others.Perm infos)
    (h : MembersAllowed unicode limits infos) : MembersAllowed unicode limits others := by
  refine ⟨fun info hinfo => h.paths_safe info (hperm.mem_iff.1 hinfo),
    ((hperm.map _).nodup_iff).2 h.keys_nodup, fun info hinfo hfile other hother => ?_,
    fun info hinfo => h.members_allowed info (hperm.mem_iff.1 hinfo), ?_⟩
  · exact h.no_file_above info (hperm.mem_iff.1 hinfo) hfile other (hperm.mem_iff.1 hother)
  · rw [(hperm.map ZipInfo.fileSize).sum_eq]
    exact h.total_limit

theorem ArchiveAllowed.perm {infos others : List ZipInfo} (hperm : others.Perm infos)
    (h : ArchiveAllowed unicode limits infos) : ArchiveAllowed unicode limits others :=
  ⟨h.toMembersAllowed.perm hperm, hperm.length_eq ▸ h.entry_count⟩

/-! ## Paths -/

theorem validateWindowsComponent_ok_iff {component : Text} {u : Unit} :
    validateWindowsComponent unicode component = .ok u ↔
      (component.getLast? ≠ some '.' ∧ component.getLast? ≠ some ' ') ∧
      (∀ c ∈ component, 32 ≤ c.toNat ∧ c ∉ "<>:\"|?*".toList) ∧
      isReservedDevice (unicode.casefold (component.takeWhile (· ≠ '.'))) = false := by
  rw [validateWindowsComponent]
  constructor
  · intro h
    obtain ⟨_, htrailing, h⟩ := bind_ok.1 h
    obtain ⟨_, hillegal, h⟩ := bind_ok.1 h
    rw [raiseIf_ok] at htrailing hillegal h
    refine ⟨not_or.1 htrailing, fun c hc => ?_, by simpa using h⟩
    rw [Bool.not_eq_true, List.any_eq_false] at hillegal
    simpa using hillegal c hc
  · rintro ⟨htrailing, hillegal, hreserved⟩
    refine bind_ok.2 ⟨(), raiseIf_ok.2 (not_or.2 htrailing), bind_ok.2 ⟨(), raiseIf_ok.2 ?_,
      raiseIf_ok.2 (Bool.not_eq_true _ ▸ hreserved)⟩⟩
    rw [Bool.not_eq_true, List.any_eq_false]
    intro c hc
    simpa using hillegal c hc

theorem validateComponent_ok_iff {component : Text} {u : Unit} :
    validateComponent unicode component = .ok u ∧
        component ∉ ([[], ['.'], ['.', '.']] : List Text) ↔ SafeComponent unicode component := by
  rw [validateComponent]
  constructor
  · rintro ⟨h, hspecial⟩
    obtain ⟨_, hnfc, h⟩ := bind_ok.1 h
    rw [raiseIf_ok, not_not] at hnfc
    obtain ⟨htrailing, hillegal, hreserved⟩ := validateWindowsComponent_ok_iff.1 h
    simp only [List.mem_cons, List.not_mem_nil, or_false, not_or] at hspecial
    exact ⟨hspecial.1, hspecial.2.1, hspecial.2.2, hnfc, htrailing, hillegal, hreserved⟩
  · intro h
    refine ⟨bind_ok.2 ⟨(), raiseIf_ok.2 (not_not.2 h.nfc),
      validateWindowsComponent_ok_iff.2 ⟨h.no_trailing, h.no_illegal, h.not_reserved⟩⟩, ?_⟩
    simp [h.ne_empty, h.ne_current, h.ne_parent]

/-- A character that is in no component is not in the path. -/
theorem notMem_of_components {stem : Text} {c : Char} (hslash : c ≠ '/')
    (h : ∀ component ∈ stem.splitOn '/', c ∉ component) : c ∉ stem := by
  intro hmem
  have hstem : ['/'].intercalate (stem.splitOn '/') = stem := List.intercalate_splitOn '/'
  rw [← hstem] at hmem
  rcases mem_intercalate hmem with rfl | ⟨component, hcomponent, hmem⟩
  · exact hslash rfl
  · exact h component hcomponent hmem

theorem colon_of_isDriveQualified {name : Text} (h : isDriveQualified name = true) : ':' ∈ name := by
  unfold isDriveQualified at h
  split at h
  · simp
  · cases h

theorem portablePath_ok_iff {name : Text} {isDirectory : Bool} :
    (∃ normalized, portablePath unicode name isDirectory = .ok normalized) ↔
      SafePath unicode name isDirectory := by
  rw [portablePath]
  constructor
  · rintro ⟨normalized, h⟩
    obtain ⟨_, hname, h⟩ := bind_ok.1 h
    obtain ⟨_, habsolute, h⟩ := bind_ok.1 h
    obtain ⟨_, hslash, h⟩ := bind_ok.1 h
    obtain ⟨_, -, h⟩ := bind_ok.1 h
    obtain ⟨_, hspecial, h⟩ := bind_ok.1 h
    obtain ⟨_, hcomponents, -⟩ := bind_ok.1 h
    rw [raiseIf_ok] at hname habsolute hslash hspecial
    rw [not_or, not_or] at hname
    refine ⟨hname.2.2, (not_or.1 habsolute).1, fun hdir => by simpa [hdir] using hslash,
      fun component hcomponent => ?_⟩
    rw [Bool.not_eq_true, List.any_eq_false] at hspecial
    exact validateComponent_ok_iff.1 ⟨forM_ok hcomponents component hcomponent,
      by simpa using hspecial component hcomponent⟩
  · intro h
    -- the characters of the name are those of its components and slashes
    have hchars : ∀ c, c ≠ '/' → (c.toNat < 32 ∨ c ∈ "<>:\"|?*".toList) → c ∉ name := by
      intro c hslash hc hmem
      have hstem : c ∉ if isDirectory then name.dropLast else name :=
        notMem_of_components hslash fun component hcomponent hmem => by
          obtain ⟨hcode, hillegal⟩ := (h.components component hcomponent).no_illegal c hmem
          rcases hc with hc | hc
          · omega
          · exact hillegal hc
      cases isDirectory with
      | false => exact hstem hmem
      | true =>
          rw [← List.dropLast_append_getLast? _ (h.directory_slash rfl)] at hmem
          rcases List.mem_append.1 hmem with hmem | hmem
          · exact hstem hmem
          · exact hslash (List.mem_singleton.1 hmem)
    have hstemNe : (if isDirectory then name.dropLast else name) ≠ [] := by
      intro hstem
      have hcomponents := h.components
      rw [hstem] at hcomponents
      exact (hcomponents [] (by simp)).ne_empty rfl
    have hne : name ≠ [] := by
      rintro rfl
      exact hstemNe (by simp)
    have hdrive : isDriveQualified name = false := by
      cases hcases : isDriveQualified name with
      | false => rfl
      | true =>
          exact absurd (colon_of_isDriveQualified hcases)
            (hchars ':' (by decide) (.inr (by decide)))
    have hcomponents : ∀ component ∈ (if isDirectory then name.dropLast else name).splitOn '/',
        validateComponent unicode component = .ok () ∧
          component ∉ ([[], ['.'], ['.', '.']] : List Text) := fun component hcomponent =>
      validateComponent_ok_iff.2 (h.components component hcomponent)
    refine ⟨_, bind_ok.2 ⟨(), raiseIf_ok.2 ?_, bind_ok.2 ⟨(), raiseIf_ok.2 ?_,
      bind_ok.2 ⟨(), raiseIf_ok.2 ?_, bind_ok.2 ⟨(), raiseIf_ok.2 hstemNe,
      bind_ok.2 ⟨(), raiseIf_ok.2 ?_, bind_ok.2 ⟨(), forM_of_ok fun component hcomponent =>
        (hcomponents component hcomponent).1, rfl⟩⟩⟩⟩⟩⟩⟩
    · rw [not_or, not_or]
      exact ⟨hne, hchars _ (by decide) (.inl (by decide)), h.no_backslash⟩
    · rw [not_or, hdrive]
      exact ⟨h.not_absolute, by simp⟩
    · rintro ⟨hdir, hslash⟩
      exact hslash (h.directory_slash hdir)
    · rw [Bool.not_eq_true, List.any_eq_false]
      intro component hcomponent
      simpa using (hcomponents component hcomponent).2

/-! ## Keys -/

theorem intercalate_append {sep : Char} {parts others : List Text} (hparts : parts ≠ [])
    (hothers : others ≠ []) :
    [sep].intercalate (parts ++ others) =
      [sep].intercalate parts ++ sep :: [sep].intercalate others := by
  induction parts with
  | nil => exact absurd rfl hparts
  | cons part parts ih =>
      cases parts with
      | nil => simp [List.intercalate_cons_of_ne_nil hothers]
      | cons next parts =>
          rw [List.cons_append, List.intercalate_cons_of_ne_nil (by simp), ih (by simp),
            List.intercalate_cons_cons]
          simp

/-- One path is above another when its text and a slash begin the other. -/
theorem above_splitOn_iff {key other : Text} :
    Above (key.splitOn '/') (other.splitOn '/') ↔ (key ++ ['/']) <+: other := by
  constructor
  · rintro ⟨rest, hrest, hsplit⟩
    refine ⟨['/'].intercalate rest, ?_⟩
    have hother : ['/'].intercalate (other.splitOn '/') = other := List.intercalate_splitOn '/'
    rw [hsplit, intercalate_append (List.splitOn_ne_nil _ _) hrest, List.intercalate_splitOn] at hother
    rw [← hother]
    simp
  · rintro ⟨rest, rfl⟩
    refine ⟨rest.splitOn '/', List.splitOn_ne_nil _ _, ?_⟩
    rw [List.append_assoc, List.singleton_append, List.splitOn_append_cons_self]

theorem foldedComponents_eq_splitOn (name : Text) :
    foldedComponents unicode name = (portableKey unicode name).splitOn '/' := by
  rw [foldedComponents, portableKey, splitOn_casefold]

theorem foldedComponents_eq_iff {name other : Text} :
    foldedComponents unicode name = foldedComponents unicode other ↔
      portableKey unicode name = portableKey unicode other := by
  constructor
  · intro h
    rw [foldedComponents_eq_splitOn, foldedComponents_eq_splitOn] at h
    have hname : ['/'].intercalate ((portableKey unicode name).splitOn '/') =
        portableKey unicode name := List.intercalate_splitOn '/'
    rw [← hname, h, List.intercalate_splitOn]
  · exact foldedComponents_eq

/-! ## One member more -/

/-- The path of a member in the tree, with whether it is a directory. -/
def memberPath (unicode : Unicode) (info : ZipInfo) : List Text × Bool :=
  (foldedComponents unicode info.origFilename, info.isDir)

/-- What a new member must meet beside the members before it. -/
structure Joins (unicode : Unicode) (limits : ArchiveLimits) (done : List ZipInfo) (info : ZipInfo) :
    Prop where
  path_safe : SafePath unicode info.origFilename info.isDir
  separate : Separate (done.map (memberPath unicode))
    (foldedComponents unicode info.origFilename) info.isDir
  member_allowed : MemberAllowed limits info
  total_limit : (done.map ZipInfo.fileSize).sum + info.fileSize ≤ limits.maxTotalUncompressedBytes

theorem sum_fileSize_nonneg {infos : List ZipInfo}
    (h : ∀ info ∈ infos, MemberAllowed limits info) : 0 ≤ (infos.map ZipInfo.fileSize).sum := by
  refine List.sum_nonneg fun size hsize => ?_
  obtain ⟨info, hinfo, rfl⟩ := List.mem_map.1 hsize
  exact (h info hinfo).sizes_nonneg.1

theorem MembersAllowed.of_append {done rest : List ZipInfo}
    (h : MembersAllowed unicode limits (done ++ rest)) : MembersAllowed unicode limits done := by
  have hmem : ∀ info ∈ done, info ∈ done ++ rest := fun info => List.mem_append_left rest
  refine ⟨fun info hinfo => h.paths_safe info (hmem info hinfo), ?_,
    fun info hinfo hfile other hother => h.no_file_above info (hmem info hinfo) hfile other
      (hmem other hother), fun info hinfo => h.members_allowed info (hmem info hinfo), ?_⟩
  · have hnodup := h.keys_nodup
    rw [List.map_append] at hnodup
    exact hnodup.of_append_left
  · have htotal := h.total_limit
    have hrest := sum_fileSize_nonneg fun info hinfo =>
      h.members_allowed info (List.mem_append_right done hinfo)
    rw [List.map_append, List.sum_append] at htotal
    omega

theorem separate_iff {done : List ZipInfo} {info : ZipInfo} :
    Separate (done.map (memberPath unicode)) (foldedComponents unicode info.origFilename)
        info.isDir ↔
      foldedName unicode info ∉ done.map (foldedName unicode) ∧
      (∀ other ∈ done, other.isDir = false →
        ¬(foldedName unicode other ++ ['/']) <+: foldedName unicode info) ∧
      (info.isDir = false → ∀ other ∈ done,
        ¬(foldedName unicode info ++ ['/']) <+: foldedName unicode other) := by
  have habove : ∀ a b : ZipInfo, Above (foldedComponents unicode a.origFilename)
      (foldedComponents unicode b.origFilename) ↔
        (foldedName unicode a ++ ['/']) <+: foldedName unicode b := fun a b => by
    rw [foldedComponents_eq_splitOn, foldedComponents_eq_splitOn, above_splitOn_iff]
    rfl
  have hfst : (done.map (memberPath unicode)).map Prod.fst =
      done.map fun other => foldedComponents unicode other.origFilename := by
    rw [List.map_map]
    rfl
  constructor
  · rintro ⟨hfree, hfile, hbelow⟩
    rw [hfst] at hfree hbelow
    refine ⟨fun hmem => hfree ?_, fun other hother hdir => ?_, fun hdir other hother => ?_⟩
    · obtain ⟨other, hother, hkey⟩ := List.mem_map.1 hmem
      exact List.mem_map.2 ⟨other, hother, foldedComponents_eq hkey⟩
    · rw [← habove]
      exact hfile _ (List.mem_map.2 ⟨other, hother, by rw [memberPath, hdir]⟩)
    · rw [← habove]
      exact hbelow hdir _ (List.mem_map.2 ⟨other, hother, rfl⟩)
  · rintro ⟨hfree, hfile, hbelow⟩
    refine ⟨fun hmem => hfree ?_, fun query hquery => ?_, fun hdir query hquery => ?_⟩
    · rw [hfst] at hmem
      obtain ⟨other, hother, hpath⟩ := List.mem_map.1 hmem
      exact List.mem_map.2 ⟨other, hother, foldedComponents_eq_iff.1 hpath⟩
    · obtain ⟨other, hother, hpath⟩ := List.mem_map.1 hquery
      obtain ⟨rfl, hdir⟩ := Prod.mk.inj hpath
      rw [habove]
      exact hfile other hother hdir
    · rw [hfst] at hquery
      obtain ⟨other, hother, rfl⟩ := List.mem_map.1 hquery
      rw [habove]
      exact hbelow hdir other hother

/-- A name and a slash are longer than the name. -/
theorem not_append_slash_prefix (key : Text) : ¬(key ++ ['/']) <+: key := by
  intro h
  have := h.length_le
  simp at this

theorem membersAllowed_concat_iff {done : List ZipInfo} {info : ZipInfo} :
    MembersAllowed unicode limits (done ++ [info]) ↔
      MembersAllowed unicode limits done ∧ Joins unicode limits done info := by
  constructor
  · intro h
    have hdone := h.of_append
    have hinfo : info ∈ done ++ [info] := by simp
    have hmem : ∀ other ∈ done, other ∈ done ++ [info] := fun other => List.mem_append_left _
    refine ⟨hdone, h.paths_safe info hinfo, separate_iff.2 ⟨?_, fun other hother hdir =>
      h.no_file_above other (hmem other hother) hdir info hinfo, fun hdir other hother =>
      h.no_file_above info hinfo hdir other (hmem other hother)⟩, h.members_allowed info hinfo, ?_⟩
    · have hnodup := h.keys_nodup
      rw [List.map_append, List.map_singleton, List.nodup_append] at hnodup
      exact fun hkey => hnodup.2.2 _ hkey _ (List.mem_singleton_self _) rfl
    · have htotal := h.total_limit
      rw [List.map_append, List.sum_append] at htotal
      simpa using htotal
  · rintro ⟨h, hjoins⟩
    obtain ⟨hfree, hfile, hbelow⟩ := separate_iff.1 hjoins.separate
    refine ⟨fun other hother => ?_, ?_, fun other hother hdir third hthird => ?_,
      fun other hother => ?_, ?_⟩
    · rcases List.mem_append.1 hother with hother | hother
      · exact h.paths_safe other hother
      · cases List.mem_singleton.1 hother
        exact hjoins.path_safe
    · rw [List.map_append, List.map_singleton]
      simpa using h.keys_nodup.concat hfree
    · rcases List.mem_append.1 hother with hother | hother
      · rcases List.mem_append.1 hthird with hthird | hthird
        · exact h.no_file_above other hother hdir third hthird
        · cases List.mem_singleton.1 hthird
          exact hfile other hother hdir
      · cases List.mem_singleton.1 hother
        rcases List.mem_append.1 hthird with hthird | hthird
        · exact hbelow hdir third hthird
        · cases List.mem_singleton.1 hthird
          exact not_append_slash_prefix _
    · rcases List.mem_append.1 hother with hother | hother
      · exact h.members_allowed other hother
      · cases List.mem_singleton.1 hother
        exact hjoins.member_allowed
    · rw [List.map_append, List.sum_append]
      simpa using hjoins.total_limit

/-! ## The loop -/

variable {lib : Libraries}

/-- The state of the loop after some members. -/
structure Taken (lib : Libraries) (done : List ZipInfo) (s : MembersState) : Prop where
  total_eq : s.totalDeclared = (done.map ZipInfo.fileSize).sum
  raw_eq : s.rawNames = done.map ZipInfo.origFilename
  holds : Holds s.topology (done.map (memberPath lib.unicode))
  names_eq : s.result.map Prod.fst = done.map ZipInfo.origFilename

theorem root_notMem (unicode : Unicode) (done : List ZipInfo) :
    ([], false) ∉ done.map (memberPath unicode) := by
  intro hmem
  obtain ⟨info, -, hpath⟩ := List.mem_map.1 hmem
  exact foldedComponents_ne_nil _ (Prod.mk.inj hpath).1

/-- A member is taken in exactly when it joins those before it. -/
theorem validateMember_ok_iff {done : List ZipInfo} {s : MembersState} {info : ZipInfo}
    (hs : Taken lib done s) :
    (∃ s', validateMember lib limits s info = .ok s') ↔ Joins lib.unicode limits done info := by
  rw [validateMember]
  constructor
  · rintro ⟨s', h⟩
    obtain ⟨_, -, h⟩ := bind_ok.1 h
    obtain ⟨normalized, hportable, h⟩ := bind_ok.1 h
    obtain ⟨topology, htopology, h⟩ := bind_ok.1 h
    obtain ⟨_, -, h⟩ := bind_ok.1 h
    obtain ⟨_, hvolume, h⟩ := bind_ok.1 h
    obtain ⟨_, hencrypted, h⟩ := bind_ok.1 h
    obtain ⟨_, hsymlink, h⟩ := bind_ok.1 h
    obtain ⟨_, hsizes, h⟩ := bind_ok.1 h
    obtain ⟨_, hdirectory, h⟩ := bind_ok.1 h
    obtain ⟨_, hentry, h⟩ := bind_ok.1 h
    obtain ⟨_, htotal, h⟩ := bind_ok.1 h
    obtain ⟨_, hratio, -⟩ := bind_ok.1 h
    rw [raiseIf_ok] at hvolume hencrypted hsymlink hsizes hdirectory hentry htotal hratio
    rw [hs.total_eq] at htotal
    cases portablePath_ok hportable
    have hfits := (Topology.insert_ok_iff _ _ (foldedComponents_ne_nil _)).1 ⟨_, htopology⟩
    refine ⟨portablePath_ok_iff.1 ⟨_, hportable⟩,
      (hs.holds.fits_iff (root_notMem _ _)).1 hfits, ⟨not_not.1 hvolume, not_not.1 hencrypted,
      hsymlink, by omega, fun hdir => ?_, not_lt.1 hentry, fun hsize => ?_⟩, by omega⟩
    · exact not_not.1 (not_and.1 hdirectory hdir)
    · obtain ⟨hne, hle⟩ := not_or.1 (not_and.1 hratio hsize)
      exact ⟨hne, not_lt.1 hle⟩
  · rintro ⟨hsafe, hseparate, hallowed, htotal⟩
    obtain ⟨normalized, hportable⟩ := portablePath_ok_iff.2 hsafe
    cases portablePath_ok hportable
    have hfits := (hs.holds.fits_iff (root_notMem _ _)).2 hseparate
    obtain ⟨topology, htopology⟩ := (Topology.insert_ok_iff lib.unicode
      info.origFilename (foldedComponents_ne_nil info.origFilename)).2 hfits
    -- a repeated name would have a repeated key
    have hnew : info.origFilename ∉ done.map ZipInfo.origFilename := by
      intro hmem
      obtain ⟨other, hother, hname⟩ := List.mem_map.1 hmem
      refine hseparate.free (List.mem_map.2 ⟨_, List.mem_map_of_mem hother, ?_⟩)
      rw [memberPath, hname]
    refine ⟨_, bind_ok.2 ⟨(), raiseIf_ok.2 (hs.raw_eq ▸ hnew), bind_ok.2 ⟨_, hportable,
      bind_ok.2 ⟨topology, htopology, bind_ok.2 ⟨(), raiseIf_ok.2 (hs.names_eq ▸ hnew),
      bind_ok.2 ⟨(), raiseIf_ok.2 (not_not.2 hallowed.single_disk),
      bind_ok.2 ⟨(), raiseIf_ok.2 (not_not.2 hallowed.not_encrypted),
      bind_ok.2 ⟨(), raiseIf_ok.2 hallowed.not_symlink,
      bind_ok.2 ⟨(), raiseIf_ok.2 ?_, bind_ok.2 ⟨(), raiseIf_ok.2 ?_,
      bind_ok.2 ⟨(), raiseIf_ok.2 (not_lt.2 hallowed.entry_limit),
      bind_ok.2 ⟨(), raiseIf_ok.2 ?_, bind_ok.2 ⟨(), raiseIf_ok.2 ?_, rfl⟩⟩⟩⟩⟩⟩⟩⟩⟩⟩⟩⟩⟩
    · have hsizes := hallowed.sizes_nonneg
      omega
    · rintro ⟨hdir, hsize⟩
      exact hsize (hallowed.directory_empty hdir)
    · rw [hs.total_eq]
      omega
    · rintro ⟨hsize, hratio⟩
      obtain ⟨hne, hle⟩ := hallowed.ratio_limit hsize
      rcases hratio with hratio | hratio
      · exact hne hratio
      · exact absurd hle (not_le.2 hratio)

theorem validateMember_taken {done : List ZipInfo} {s s' : MembersState} {info : ZipInfo}
    (hs : Taken lib done s) (h : validateMember lib limits s info = .ok s') :
    Taken lib (done ++ [info]) s' := by
  have hjoins := (validateMember_ok_iff hs).1 ⟨s', h⟩
  rw [validateMember] at h
  obtain ⟨_, -, h⟩ := bind_ok.1 h
  obtain ⟨normalized, hportable, h⟩ := bind_ok.1 h
  obtain ⟨topology, htopology, h⟩ := bind_ok.1 h
  iterate 9 obtain ⟨_, -, h⟩ := bind_ok.1 h
  cases h
  cases portablePath_ok hportable
  have hholds := hs.holds.insert (foldedComponents_ne_nil _) hjoins.separate.free htopology
  refine ⟨by simp [hs.total_eq], by simp [hs.raw_eq], ?_, by simp [hs.names_eq]⟩
  rw [List.map_append]
  exact hholds

/-- Whether `_validate_archive_members` returns. -/
def Accepts (lib : Libraries) (limits : ArchiveLimits) (infos : List ZipInfo) : Prop :=
  ∃ members, validateArchiveMembers lib limits infos = .ok members

theorem accepts_iff {infos : List ZipInfo} :
    Accepts lib limits infos ↔ ArchiveAllowed lib.unicode limits infos := by
  have hstart : Taken lib [] ⟨0, [], .empty, []⟩ := ⟨rfl, rfl, holds_empty, rfl⟩
  have hempty : MembersAllowed lib.unicode limits [] :=
    ⟨by simp, by simp, by simp, by simp, by simp⟩
  have hloop := exists_foldlM_iff (Taken lib) (MembersAllowed lib.unicode limits) infos
    (fun done info s hs hdone => by
      rw [validateMember_ok_iff hs, membersAllowed_concat_iff]
      exact ⟨fun h => ⟨hdone, h⟩, And.right⟩)
    (fun _ _ _ _ => validateMember_taken) (fun _ _ => MembersAllowed.of_append)
    hstart hempty
  rw [List.nil_append] at hloop
  rw [Accepts]
  constructor
  · rintro ⟨members, h⟩
    obtain ⟨_, hcount, h⟩ := bind_ok.1 h
    obtain ⟨s, hs, -⟩ := bind_ok.1 h
    rw [raiseIf_ok, not_lt] at hcount
    exact ⟨hloop.1 ⟨s, hs⟩, hcount⟩
  · intro h
    obtain ⟨s, hs⟩ := hloop.2 h.toMembersAllowed
    exact ⟨s.result, bind_ok.2 ⟨(), raiseIf_ok.2 (not_lt.2 h.entry_count), bind_ok.2 ⟨s, hs, rfl⟩⟩⟩

/-- The members of an archive are accepted exactly when they are allowed, and so in any order. -/
theorem validateArchiveMembers_accepts (lib : Libraries) (limits : ArchiveLimits)
    (infos : List ZipInfo) :
    (Accepts lib limits infos ↔ ArchiveAllowed lib.unicode limits infos) ∧
      ∀ others, others.Perm infos → (Accepts lib limits others ↔ Accepts lib limits infos) := by
  refine ⟨accepts_iff, fun others hperm => ?_⟩
  rw [accepts_iff, accepts_iff]
  exact ⟨ArchiveAllowed.perm hperm.symm, ArchiveAllowed.perm hperm⟩

/-- A directory. -/
def packageDirectory : ZipInfo := ⟨"a/".toList, true, 0, 0, 0, 0, 0⟩

/-- A file in it. -/
def packageFile : ZipInfo := ⟨"a/b".toList, false, 0, 0, 0, 3, 5⟩

theorem packageFile_before_directory :
    Accepts caseLibraries caseLimits [packageFile, packageDirectory] := by
  have haccepts : Accepts caseLibraries caseLimits [packageDirectory, packageFile] := by
    apply exists_ok_of_isOk
    decide +kernel
  exact ((validateArchiveMembers_accepts caseLibraries caseLimits _).2 _
    (List.Perm.swap packageDirectory packageFile [])).2 haccepts

end WheelForge.Validation
