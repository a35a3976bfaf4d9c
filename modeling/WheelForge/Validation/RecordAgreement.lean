import WheelForge.Validation.Tracking
import Mathlib.Algebra.BigOperators.Group.List.Basic

/-!
# RECORD and the members

Every member of an accepted archive is seen in the end, so the rows of RECORD and the members account
for each other (`Accounts`) and the reported total is the size of all of them (`TotalWithin`).
-/

set_option autoImplicit false

namespace WheelForge.Validation

open WheelForge.Pep440 (Version)
open WheelForge.Python
open WheelForge.Target (Tag)

variable {lib : Libraries} {limits : ArchiveLimits} {archive : ZipFile} {expected : ExpectedWheel}
  {members : Members} {infos : List ZipInfo}

/-! ## The whole archive -/

theorem selectCore_ok {coreName : String} {info : ZipInfo}
    (hvalid : ValidMembers lib infos members)
    (h : selectCore lib members expected coreName = .ok info) :
    info ∈ infos ∧ info.origFilename = corePath lib expected coreName.toList ∧
      info.isDir = false := by
  obtain ⟨found, hfound, h⟩ := bind_ok.1 h
  obtain ⟨_, hfile, h⟩ := bind_ok.1 h
  cases h
  rw [orRaise_ok] at hfound
  rw [raiseIf_ok, Bool.not_eq_true] at hfile
  obtain ⟨hmem, hname⟩ := hvalid.mem_of_lookup hfound
  exact ⟨hmem, hname, hfile⟩

/-- The core files are members with the names of the expected wheel. -/
theorem coreInfos_ok {metadata wheel record : ZipInfo} (hvalid : ValidMembers lib infos members)
    (h : coreInfos lib members expected = .ok (metadata, wheel, record)) :
    (metadata ∈ infos ∧ wheel ∈ infos ∧ record ∈ infos) ∧
      metadata.origFilename = corePath lib expected "METADATA".toList ∧
      wheel.origFilename = corePath lib expected "WHEEL".toList ∧
      record.origFilename = corePath lib expected "RECORD".toList ∧ record.isDir = false := by
  obtain ⟨_, -, h⟩ := bind_ok.1 h
  obtain ⟨_, hmetadata, h⟩ := bind_ok.1 h
  obtain ⟨_, hwheel, h⟩ := bind_ok.1 h
  obtain ⟨_, hrecord, h⟩ := bind_ok.1 h
  cases h
  obtain ⟨hm, hmname, -⟩ := selectCore_ok hvalid hmetadata
  obtain ⟨hw, hwname, -⟩ := selectCore_ok hvalid hwheel
  obtain ⟨hr, hrname, hrfile⟩ := selectCore_ok hvalid hrecord
  exact ⟨⟨hm, hw, hr⟩, hmname, hwname, hrname, hrfile⟩

/-- Core files of different names have different keys. -/
theorem keyOf_core_ne {info info' : ZipInfo} {name name' : Text}
    (hvalid : ValidMembers lib infos members) (hinfo : info ∈ infos) (hinfo' : info' ∈ infos)
    (hname : info.origFilename = corePath lib expected name)
    (hname' : info'.origFilename = corePath lib expected name') (hne : name ≠ name') :
    keyOf lib info ≠ keyOf lib info' := by
  intro hkey
  cases hvalid.eq_of_keyOf hinfo hinfo' hkey
  rw [hname, corePath, corePath, List.append_cancel_left_eq] at hname'
  exact hne (List.cons.inj hname').2

/-- The tracker after the loop over the members: those done are seen. -/
structure MembersRead (lib : Libraries) (limits : ArchiveLimits) (archive : ZipFile)
    (infos : List ZipInfo) (done : Members) (tracker : ReadTracker) (seen : List ZipInfo) : Prop where
  tracked : Tracked lib limits archive seen tracker
  subset : ∀ info ∈ seen, info ∈ infos
  done_seen : ∀ member ∈ done, keyOf lib member.2 ∈ seen.map (keyOf lib)

theorem readMember_ok {done : Members} {member : Text × ZipInfo} {tracker tracker' : ReadTracker}
    {seen : List ZipInfo} (hkey : portableKey lib.unicode member.1 = keyOf lib member.2)
    (hmember : member.2 ∈ infos)
    (hread : MembersRead lib limits archive infos done tracker seen)
    (h : readMember lib limits archive tracker member = .ok tracker') :
    ∃ seen', MembersRead lib limits archive infos (done ++ [member]) tracker' seen' := by
  rw [readMember, hkey, hread.tracked.keys_eq] at h
  by_cases hseen : keyOf lib member.2 ∈ seen.map (keyOf lib)
  · rw [if_pos hseen] at h
    cases h
    refine ⟨seen, hread.tracked, hread.subset, fun other hother => ?_⟩
    rcases List.mem_append.1 hother with hother | hother
    · exact hread.done_seen other hother
    · cases List.mem_singleton.1 hother
      exact hseen
  · rw [if_neg hseen] at h
    obtain ⟨⟨result, observation, tracker₁⟩, hbytes, h⟩ := bind_ok.1 h
    cases h
    obtain ⟨seen', htracked, hseen', hmem⟩ := hread.tracked.read hbytes
    have hsub : ∀ info ∈ seen, info ∈ seen' := by
      rcases hseen' with rfl | rfl
      · exact fun _ hinfo => hinfo
      · exact fun _ hinfo => List.mem_append_left _ hinfo
    refine ⟨seen', htracked, fun info hinfo => ?_, fun other hother => ?_⟩
    · rcases hseen' with rfl | rfl
      · exact hread.subset info hinfo
      · rcases List.mem_append.1 hinfo with hinfo | hinfo
        · exact hread.subset info hinfo
        · cases List.mem_singleton.1 hinfo
          exact hmember
    · rcases List.mem_append.1 hother with hother | hother
      · obtain ⟨info, hinfo, hinfokey⟩ := List.mem_map.1 (hread.done_seen other hother)
        exact List.mem_map.2 ⟨info, hsub info hinfo, hinfokey⟩
      · cases List.mem_singleton.1 hother
        exact hmem

/-- After the loop the members seen are all members, each once. -/
theorem seen_perm {tracker : ReadTracker} {seen : List ZipInfo}
    (hvalid : ValidMembers lib infos members)
    (hread : MembersRead lib limits archive infos members tracker seen) : seen.Perm infos := by
  apply (List.perm_ext_iff_of_nodup hread.tracked.keys_nodup.of_map hvalid.nodup_keyOf.of_map).2
  intro info
  constructor
  · exact hread.subset info
  · intro hinfo
    have hmember := hvalid.mem_iff.1 hinfo
    obtain ⟨other, hother, hkey⟩ := List.mem_map.1 (hread.done_seen _ hmember)
    cases hvalid.eq_of_keyOf (hread.subset other hother) hinfo hkey
    exact hother

/-- The rows of RECORD and the members account for each other. -/
structure Accounts (lib : Libraries) (archive : ZipFile) (record : ZipInfo)
    (rows : List (List Text)) : Prop where
  /-- The only row of a file has its digest and its size. -/
  verified : ∀ info ∈ archive.infolist, info.isDir = false → info ≠ record →
    ∃ digestField sizeField,
      rows.filter (fun row => row.head? = some info.origFilename) =
        [[info.origFilename, digestField, sizeField]] ∧
      parseRecordDigest digestField = .ok (lib.sha256 (archive.content info)) ∧
      decimal sizeField = some (archive.sizeOf info)
  /-- A row is of a file, or of RECORD under its name in another case. -/
  known : ∀ row ∈ rows, ∃ info ∈ archive.infolist, info.isDir = false ∧
    (row.head? = some info.origFilename ∨
      info = record ∧ ∃ path, row = [path, [], []] ∧
        portableKey lib.unicode path = keyOf lib record)

theorem filter_eq_singleton {α β : Type} {f : α → β} {p : α → Bool} {l : List α} {a : α}
    (hnodup : (l.map f).Nodup) (ha : a ∈ l) (hpa : p a = true)
    (hp : ∀ b ∈ l, p b = true → f b = f a) : l.filter p = [a] := by
  have hsub : (l.filter p).map f = [f a] := by
    have hnodup' : ((l.filter p).map f).Nodup := hnodup.sublist (List.filter_sublist.map f)
    have hmem : ∀ y, y ∈ (l.filter p).map f ↔ y ∈ [f a] := by
      intro y
      rw [List.mem_map, List.mem_singleton]
      constructor
      · rintro ⟨b, hb, rfl⟩
        exact hp b (List.mem_filter.1 hb).1 (List.mem_filter.1 hb).2
      · rintro rfl
        exact ⟨a, List.mem_filter.2 ⟨ha, hpa⟩, rfl⟩
    exact List.perm_singleton.1 ((List.perm_ext_iff_of_nodup hnodup' (by simp)).2 hmem)
  obtain ⟨b, hb, -⟩ := List.map_eq_singleton_iff.1 hsub
  have hmem : a ∈ l.filter p := List.mem_filter.2 ⟨ha, hpa⟩
  rw [hb, List.mem_singleton] at hmem
  rw [hb, hmem]

/-- The path of a row. -/
def rowPath (row : List Text) : Text := row.headD []

section Checks

variable {record : ZipInfo} {rows : List (List Text)} {parsed : RecordRows} {tracker : ReadTracker}
  {u : Unit}

/-- The keys of the entries are those of the rows. -/
theorem RowsTaken.keys_eq {recordPath : Text}
    (htaken : RowsTaken lib recordPath members rows parsed) :
    rows.map (fun row => portableKey lib.unicode (rowPath row)) = parsed.map Prod.fst := by
  apply List.forall₂_eq_eq_eq ▸ List.forall₂_map_left_iff.2 (List.forall₂_map_right_iff.2 ?_)
  refine htaken.parsed_eq.imp fun row entry hrow => ?_
  obtain ⟨path, digestField, sizeField, rfl, hkey, -⟩ := parseRecordRow_ok hrow
  exact hkey.symm

theorem memberKey_ok {info : ZipInfo} {key : Text} (h : memberKey lib info = .ok key) :
    key = keyOf lib info := by
  obtain ⟨path, hpath, h⟩ := bind_ok.1 h
  cases h
  cases portablePath_ok hpath
  rfl

/-- The keys of the rows are those of the files. -/
theorem validateRecordPaths_ok (hvalid : ValidMembers lib infos members)
    (h : validateRecordPaths lib parsed members record = .ok u) :
    (∀ entry ∈ parsed, ∃ info ∈ infos, info.isDir = false ∧ keyOf lib info = entry.1) ∧
      ∀ info ∈ infos, info.isDir = false → keyOf lib info ∈ parsed.map Prod.fst := by
  obtain ⟨_, hkeys, -⟩ := bind_ok.1 h
  rw [raiseIf_ok, not_not, List.all_eq_true, List.all_eq_true] at hkeys
  obtain ⟨hrows, hfiles⟩ := hkeys
  constructor
  · intro entry hentry
    obtain ⟨member, hmember, hkey⟩ := List.mem_map.1 (of_decide_eq_true (hrows entry hentry))
    obtain ⟨hmember, hfile⟩ := List.mem_filter.1 hmember
    refine ⟨member.2, ?_, by simpa using hfile, ?_⟩
    · rw [← hvalid.infos_eq]
      exact List.mem_map_of_mem hmember
    · rw [← hvalid.keyOf_eq hmember, hkey]
  · intro info hinfo hfile
    have hmember := hvalid.mem_iff.1 hinfo
    apply of_decide_eq_true (hfiles _ ?_)
    refine List.mem_map.2 ⟨_, List.mem_filter.2 ⟨hmember, by simp [hfile]⟩, ?_⟩
    exact hvalid.keyOf_eq hmember

/-- An entry with a hash agrees with what was streamed under its key. -/
theorem verifyRow_ok {seen : List ZipInfo} {recordPath portable : Text} {row : RecordRow}
    {digest : Bytes} {size : Nat} (htracked : Tracked lib limits archive seen tracker)
    (hdigest : row.digest = some digest) (hsize : row.size = some size)
    (h : verifyRow recordPath tracker (portable, row) = .ok u) :
    ∃ info ∈ seen, keyOf lib info = portable ∧ size = archive.sizeOf info ∧
      digest = lib.sha256 (archive.content info) := by
  rw [verifyRow, if_neg (by simp [hdigest]), hdigest, hsize] at h
  cases hlookup : tracker.observed.lookup portable with
  | none =>
      rw [hlookup] at h
      cases h
  | some observation =>
      obtain ⟨info, hinfo, hkey, rfl⟩ := htracked.lookup_eq hlookup
      rw [hlookup] at h
      obtain ⟨hsize, hdigest⟩ := not_or.1 (raiseIf_ok.1 h)
      exact ⟨info, hinfo, hkey, (not_not.1 hsize).symm, (not_not.1 hdigest).symm⟩

/-- What the checks of RECORD establish. -/
theorem accounts_of_checks {seen : List ZipInfo} (hinfos : archive.infolist = infos)
    (hvalid : ValidMembers lib infos members) (hrecord : record ∈ infos)
    (hfile : record.isDir = false) (htaken : RowsTaken lib (keyOf lib record) members rows parsed)
    (htracked : Tracked lib limits archive seen tracker) (hseen : ∀ info ∈ seen, info ∈ infos)
    (hpaths : validateRecordPaths lib parsed members record = .ok u)
    (hhashes : verifyRecordHashes lib parsed record tracker = .ok u) :
    Accounts lib archive record rows := by
  obtain ⟨hrows, hfiles⟩ := validateRecordPaths_ok hvalid hpaths
  obtain ⟨recordPath, hpath, hhashes⟩ := bind_ok.1 hhashes
  cases memberKey_ok hpath
  have hkeys : (rows.map fun row => portableKey lib.unicode (rowPath row)).Nodup := by
    rw [htaken.keys_eq]
    exact htaken.keys_nodup
  constructor
  · intro info hinfo hinfofile hne
    rw [hinfos] at hinfo
    -- the row with the key of the file
    obtain ⟨⟨portable, parsedRow⟩, hentry, hkey⟩ := List.mem_map.1 (hfiles info hinfo hinfofile)
    obtain rfl : portable = keyOf lib info := hkey
    obtain ⟨row, hrow, hparse⟩ := exists_mem_of_forall₂ htaken.parsed_eq.flip _ hentry
    obtain ⟨path, digestField, sizeField, rfl, hportable, hown | hmember⟩ :=
      parseRecordRow_ok hparse
    · -- RECORD alone may be without a hash
      exact absurd (hvalid.eq_of_keyOf hinfo hrecord hown.1) hne
    · obtain ⟨digest, size, member, hdigest, hsize, hlookup, hdigest', hsize'⟩ := hmember
      obtain ⟨hmember, hname⟩ := hvalid.mem_of_lookup hlookup
      have hinfoname : info.origFilename = path := by
        have hportable : keyOf lib info = portableKey lib.unicode path := hportable
        have hkey : keyOf lib info = keyOf lib member := by rw [hportable, ← hname, keyOf]
        rw [hvalid.eq_of_keyOf hinfo hmember hkey, hname]
      obtain ⟨other, hother, hotherkey, rfl, rfl⟩ :=
        verifyRow_ok htracked hdigest' hsize' (forM_ok hhashes _ hentry)
      cases hvalid.eq_of_keyOf (hseen other hother) hinfo hotherkey
      refine ⟨digestField, sizeField, ?_, hdigest, hsize⟩
      rw [hinfoname]
      refine filter_eq_singleton hkeys hrow (by simp) fun row' hrow' hhead => ?_
      have hpath : rowPath row' = path := by
        cases row' with
        | nil => simp at hhead
        | cons first others => simpa [rowPath] using hhead
      rw [hpath]
      rfl
  · intro row hrow
    obtain ⟨⟨portable, parsedRow⟩, hentry, hparse⟩ := exists_mem_of_forall₂ htaken.parsed_eq row hrow
    obtain ⟨path, digestField, sizeField, rfl, hportable, hown | hmember⟩ :=
      parseRecordRow_ok hparse
    · obtain ⟨hkey, rfl, rfl, -⟩ := hown
      exact ⟨record, hinfos ▸ hrecord, hfile, .inr ⟨rfl, path, rfl, hportable ▸ hkey⟩⟩
    · obtain ⟨_, _, member, -, -, hlookup, -, -⟩ := hmember
      obtain ⟨hmember, hname⟩ := hvalid.mem_of_lookup hlookup
      -- a file has the key of the row, and it is this member
      obtain ⟨info, hinfo, hinfofile, hkey⟩ := hrows _ hentry
      have hsame : info = member := by
        apply hvalid.eq_of_keyOf hinfo hmember
        rw [hkey, hportable, keyOf, hname]
      subst hsame
      exact ⟨info, hinfos ▸ hinfo, hinfofile, .inl (by simp [hname])⟩

end Checks

/-- The uncompressed size that is reported: what was streamed of all members, within the limits. -/
structure TotalWithin (limits : ArchiveLimits) (archive : ZipFile) (total : Nat) : Prop where
  total_eq : total = (archive.infolist.map archive.sizeOf).sum
  total_le : total ≤ limits.maxTotalUncompressedBytes
  entry_le : ∀ info ∈ archive.infolist, archive.sizeOf info ≤ limits.maxEntryUncompressedBytes

theorem validateZipFile_ok {report : ArchiveValidationReport}
    (h : validateZipFile lib limits archive expected = .ok report) :
    ∃ record ∈ archive.infolist, record.origFilename = corePath lib expected "RECORD".toList ∧
      (∃ rows, archive.recordRows lib.csv record = some rows ∧
        Accounts lib archive record rows) ∧
      TotalWithin limits archive report.totalUncompressedBytes := by
  obtain ⟨members, hmembers, h⟩ := bind_ok.1 h
  obtain ⟨⟨metadata, wheel, record⟩, hcore, h⟩ := bind_ok.1 h
  obtain ⟨⟨metadataBytes, _, tracker₁⟩, hmetadata, h⟩ := bind_ok.1 h
  obtain ⟨⟨wheelBytes, _, tracker₂⟩, hwheel, h⟩ := bind_ok.1 h
  obtain ⟨_, -, h⟩ := bind_ok.1 h
  obtain ⟨_, -, h⟩ := bind_ok.1 h
  obtain ⟨_, -, h⟩ := bind_ok.1 h
  obtain ⟨⟨parsed, tracker₃⟩, hrecord, h⟩ := bind_ok.1 h
  obtain ⟨_, hpaths, h⟩ := bind_ok.1 h
  obtain ⟨tracker, hloop, h⟩ := bind_ok.1 h
  obtain ⟨_, hhashes, h⟩ := bind_ok.1 h
  obtain ⟨⟨name, version, requiresDist, requiresPython⟩, -, h⟩ := bind_ok.1 h
  have htotal : report.totalUncompressedBytes = tracker.actualTotal := by
    by_cases hname : name = ""
    · simp only [dif_pos hname] at h
      cases h
    · simp only [dif_neg hname] at h
      cases h
      rfl
  have hvalid := validateArchiveMembers_ok hmembers
  obtain ⟨⟨hm, hw, hr⟩, hmname, hwname, hrname, hfile⟩ := coreInfos_ok hvalid hcore
  obtain ⟨seen₁, htracked₁, hseen₁, -⟩ := Tracked.start.read hmetadata
  obtain ⟨seen₂, htracked₂, hseen₂, -⟩ := htracked₁.read hwheel
  have hcoreSeen : ∀ info ∈ seen₂, info = metadata ∨ info = wheel := by
    rcases hseen₂ with rfl | rfl <;> rcases hseen₁ with rfl | rfl <;> simp
  have hnew : keyOf lib record ∉ seen₂.map (keyOf lib) := by
    intro hkey
    obtain ⟨info, hinfo, hkey⟩ := List.mem_map.1 hkey
    rcases hcoreSeen info hinfo with rfl | rfl
    · exact keyOf_core_ne hvalid hm hr hmname hrname (by decide) hkey
    · exact keyOf_core_ne hvalid hw hr hwname hrname (by decide) hkey
  obtain ⟨htracked₃, rows, hrows, htaken⟩ := streamRecord_ok htracked₂ hnew hrecord
  have hread : ∃ seen, MembersRead lib limits archive archive.infolist members tracker seen := by
    have hstart : ∃ seen, MembersRead lib limits archive archive.infolist [] tracker₃ seen := by
      refine ⟨_, htracked₃, fun info hinfo => ?_, by simp⟩
      rcases List.mem_append.1 hinfo with hinfo | hinfo
      · rcases hcoreSeen info hinfo with rfl | rfl
        · exact hm
        · exact hw
      · cases List.mem_singleton.1 hinfo
        exact hr
    refine foldlM_ok (fun done tracker =>
      ∃ seen, MembersRead lib limits archive archive.infolist done tracker seen) ?_ hstart hloop
    rintro member hmember done s s' ⟨seen, hread⟩ hstep
    have hinfo : member.2 ∈ archive.infolist := by
      rw [← hvalid.infos_eq]
      exact List.mem_map_of_mem hmember
    exact readMember_ok (hvalid.keyOf_eq hmember) hinfo hread hstep
  obtain ⟨seen, hread⟩ := hread
  have hperm := seen_perm hvalid hread
  refine ⟨record, hr, hrname, ⟨rows, hrows, accounts_of_checks rfl hvalid hr hfile htaken
    hread.tracked hread.subset hpaths hhashes⟩, ?_, ?_, ?_⟩
  · rw [htotal, hread.tracked.total_eq]
    exact (hperm.map _).sum_eq
  · rw [htotal]
    exact hread.tracked.total_le
  · intro info hinfo
    exact hread.tracked.entry_le info (hperm.mem_iff.2 hinfo)

/-- An accepted wheel: RECORD and the members account for each other, and the total that is reported
is what was streamed. -/
theorem validateSnapshot_accounts {snapshot : WheelSnapshot} {report : ArchiveValidationReport}
    (h : validateSnapshot lib limits snapshot expected = .ok report) :
    ∃ archive, lib.zipFile snapshot.content = some archive ∧
      ∃ record ∈ archive.infolist,
        record.origFilename = corePath lib expected "RECORD".toList ∧
        (∃ rows, archive.recordRows lib.csv record = some rows ∧
          Accounts lib archive record rows) ∧
        TotalWithin limits archive report.totalUncompressedBytes := by
  obtain ⟨content, hopened, h⟩ := bind_ok.1 h
  obtain ⟨_, -, h⟩ := bind_ok.1 h
  obtain ⟨archive, harchive, h⟩ := bind_ok.1 h
  rw [orRaise_ok] at harchive
  have hcontent : content = snapshot.content := by
    obtain ⟨_, -, hopened⟩ := bind_ok.1 hopened
    obtain ⟨_, -, hopened⟩ := bind_ok.1 hopened
    cases hopened
    rfl
  rw [← hcontent]
  exact ⟨archive, harchive, validateZipFile_ok h⟩

/-! ## The row of RECORD itself -/

/-- The rows of RECORD and the members account for each other, and every row has the name of a
file. -/
structure ExactAccounts (lib : Libraries) (archive : ZipFile) (record : ZipInfo)
    (rows : List (List Text)) : Prop extends Accounts lib archive record rows where
  named : ∀ row ∈ rows, ∃ info ∈ archive.infolist, info.isDir = false ∧
    row.head? = some info.origFilename

/-- RECORD lists itself without hash and size under its own name only. -/
def OwnRowExact (lib : Libraries) (record : ZipInfo) (rows : List (List Text)) : Prop :=
  ∀ row ∈ rows, row.tail = [[], []] → portableKey lib.unicode (rowPath row) = keyOf lib record →
    rowPath row = record.origFilename

instance (record : ZipInfo) (rows : List (List Text)) : Decidable (OwnRowExact lib record rows) :=
  inferInstanceAs (Decidable (∀ row ∈ rows, _))

theorem head?_eq_rowPath {row : List Text} (h : row.tail = [[], []]) :
    row.head? = some (rowPath row) := by
  cases row with
  | nil => simp at h
  | cons path fields => simp [rowPath]

/-- Only RECORD has a row without a hash. -/
theorem Accounts.hashless {record : ZipInfo} {rows : List (List Text)}
    (h : Accounts lib archive record rows) {row : List Text} (hrow : row ∈ rows)
    (hempty : row.tail = [[], []]) {info : ZipInfo} (hinfo : info ∈ archive.infolist)
    (hfile : info.isDir = false) (hname : row.head? = some info.origFilename) : info = record := by
  by_contra hne
  obtain ⟨digestField, sizeField, hrows, hdigest, -⟩ := h.verified info hinfo hfile hne
  have hmem : row ∈ rows.filter fun row => row.head? = some info.origFilename :=
    List.mem_filter.2 ⟨hrow, by simp [hname]⟩
  rw [hrows, List.mem_singleton] at hmem
  subst hmem
  -- the digest field of the row of a file is no empty text
  obtain ⟨rfl, -⟩ : digestField = [] ∧ sizeField = [] := by simpa using hempty
  cases hdigest

theorem Accounts.exact_iff {record : ZipInfo} {rows : List (List Text)}
    (h : Accounts lib archive record rows) :
    ExactAccounts lib archive record rows ↔ OwnRowExact lib record rows := by
  constructor
  · intro hexact row hrow hempty hkey
    obtain ⟨info, hinfo, hfile, hname⟩ := hexact.named row hrow
    cases h.hashless hrow hempty hinfo hfile hname
    exact Option.some.inj ((head?_eq_rowPath hempty).symm.trans hname)
  · intro hown
    refine ⟨h, fun row hrow => ?_⟩
    obtain ⟨info, hinfo, hfile, hname | ⟨rfl, path, rfl, hkey⟩⟩ := h.known row hrow
    · exact ⟨info, hinfo, hfile, hname⟩
    · exact ⟨info, hinfo, hfile, congrArg some (hown _ hrow rfl hkey)⟩

/-- In an accepted wheel the rows of RECORD are exactly those of the files, with what was streamed of
each, if and only if RECORD's own row without a hash is spelled as the member. -/
theorem validateSnapshot_exact_iff {snapshot : WheelSnapshot} {report : ArchiveValidationReport}
    (h : validateSnapshot lib limits snapshot expected = .ok report) :
    ∃ archive, lib.zipFile snapshot.content = some archive ∧
      ∃ record ∈ archive.infolist,
        record.origFilename = corePath lib expected "RECORD".toList ∧
        ∃ rows, archive.recordRows lib.csv record = some rows ∧
          (ExactAccounts lib archive record rows ∧
              TotalWithin limits archive report.totalUncompressedBytes ↔
            OwnRowExact lib record rows) := by
  obtain ⟨archive, harchive, record, hrecord, hname, ⟨rows, hrows, haccounts⟩, htotal⟩ :=
    validateSnapshot_accounts h
  refine ⟨archive, harchive, record, hrecord, hname, rows, hrows, ?_⟩
  rw [← haccounts.exact_iff]
  exact ⟨And.left, fun hexact => ⟨hexact, htotal⟩⟩

/-! ## A wheel whose RECORD spells its own path in another case -/

/-- The bytes of an ASCII text. -/
def ascii (text : String) : Bytes := text.toList.map fun c => UInt8.ofNat c.toNat

def asciiText (bytes : Bytes) : Text := bytes.map fun byte => Char.ofNat byte.toNat

def metadataBytes : Bytes := ascii "Metadata-Version: 2.1\nName: a\nVersion: 1.0\n"

def wheelBytes : Bytes := ascii "Wheel-Version: 1.0\nTag: py3-none-any\n"

def recordBytes : Bytes := ascii
  ("a-1.0.dist-info/METADATA,sha256=JeJjWHJ7pidSacNoCgKib2j77zAZeH4gg3JCk5C2QGE,43\r\n" ++
    "a-1.0.dist-info/WHEEL,sha256=c2sCN4vvlZhk3BchbhFJEfhyDSOwBajfTYQ5XgvNqOA,37\r\n" ++
    "a-1.0.dist-info/record,,\r\n")

/-- The lowest `size` bytes of a number, the lowest first. -/
def toLittleEndian : Nat → Nat → Bytes
  | 0, _ => []
  | size + 1, number => UInt8.ofNat (number % 256) :: toLittleEndian size (number / 256)

/-- A stored member: its name, its content and its CRC. -/
structure StoredMember where
  name : String
  content : Bytes
  crc : Nat

/-- The fields that the two headers of a member have in common. -/
def StoredMember.fields (member : StoredMember) : Bytes :=
  toLittleEndian 2 20 ++ toLittleEndian 8 0x0021000000000000 ++ toLittleEndian 4 member.crc ++
    toLittleEndian 4 member.content.length ++ toLittleEndian 4 member.content.length ++
    toLittleEndian 2 member.name.length ++ toLittleEndian 2 0

def StoredMember.localPart (member : StoredMember) : Bytes :=
  [80, 75, 3, 4] ++ member.fields ++ ascii member.name ++ member.content

def StoredMember.centralPart (member : StoredMember) (offset : Nat) : Bytes :=
  [80, 75, 1, 2] ++ toLittleEndian 2 788 ++ member.fields ++ toLittleEndian 6 0 ++
    toLittleEndian 4 (0o644 * 65536) ++ toLittleEndian 4 offset ++ ascii member.name

/-- The local and the central parts of members whose first one is at `offset`. -/
def storedParts : Nat → List StoredMember → Bytes × Bytes
  | _, [] => ([], [])
  | offset, member :: members =>
      let (locals, central) := storedParts (offset + member.localPart.length) members
      (member.localPart ++ locals, member.centralPart offset ++ central)

def storedZip (members : List StoredMember) : Bytes :=
  let (locals, central) := storedParts 0 members
  locals ++ central ++ [80, 75, 5, 6] ++ toLittleEndian 4 0 ++ toLittleEndian 2 members.length ++
    toLittleEndian 2 members.length ++ toLittleEndian 4 central.length ++
    toLittleEndian 4 locals.length ++ toLittleEndian 2 0

def caseMembers : List StoredMember :=
  [⟨"a-1.0.dist-info/METADATA", metadataBytes, 1293616205⟩,
    ⟨"a-1.0.dist-info/WHEEL", wheelBytes, 1457446388⟩,
    ⟨"a-1.0.dist-info/RECORD", recordBytes, 139568562⟩]

def caseContent : Bytes := storedZip caseMembers

/-- The ASCII letters in both cases. -/
def letterCases : List (Char × Char) :=
  "ABCDEFGHIJKLMNOPQRSTUVWXYZ".toList.zip "abcdefghijklmnopqrstuvwxyz".toList

/-- Case folding and normalization on ASCII. -/
def asciiUnicode : Unicode where
  foldChar c := [(letterCases.lookup c).getD c]
  nfc text := text
  foldChar_slash := by decide
  eq_slash_of_mem c h := by
    rw [List.mem_singleton] at h
    cases hlookup : letterCases.lookup c with
    | none =>
        rw [hlookup] at h
        exact h.symm
    | some lower =>
        rw [hlookup, Option.getD_some] at h
        subst h
        obtain ⟨before, after, heq, -⟩ := List.lookup_eq_some_iff.1 hlookup
        have hmem : (c, '/') ∈ letterCases := by simp [heq]
        exact absurd rfl ((by decide : ∀ pair ∈ letterCases, pair.2 ≠ '/') _ hmem)

/-- The reader of a text without quotes. -/
def unquotedCsv : CsvReader where
  State := Bytes
  start := []
  feed state block := ([], some (state ++ block))
  finish state := ((splitLines (asciiText state)).map (·.splitOn ','), true)

/-- One header in each line. -/
def plainHeaders (value : Bytes) : Message where
  headers := (splitLines (asciiText value)).map fun line =>
    (line.takeWhile (· ≠ ':'), (line.dropWhile (· ≠ ':')).drop 2)
  hasDefects := false

def anyTag : Tag := ⟨"py3", "none", "any"⟩

def versionOne : Version := .ofMajor 1

def storedInfo (member : StoredMember) : ZipInfo where
  origFilename := member.name.toList
  isDir := false
  volume := 0
  flagBits := 0
  externalAttr := 0o644 * 65536
  fileSize := member.content.length
  compressSize := member.content.length

/-- A content that is read in one block. -/
def oneBlock (content : Bytes) : MemberStream where
  blocks := if content = [] then [] else [content]
  raises := false
  block_ne_nil block hblock := by
    split at hblock
    · cases hblock
    · rw [List.mem_singleton.1 hblock]
      assumption

def storedZipFile (members : List StoredMember) : ZipFile where
  infolist := members.map storedInfo
  stream info :=
    match members.find? fun member => member.name.toList = info.origFilename with
    | some member => oneBlock member.content
    | none => ⟨[], true, by simp⟩

def caseSha256 (content : Bytes) : Bytes :=
  if content = metadataBytes then
    [37, 226, 99, 88, 114, 123, 166, 39, 82, 105, 195, 104, 10, 2, 162, 111, 104, 251, 239, 48, 25,
      120, 126, 32, 131, 114, 66, 147, 144, 182, 64, 97]
  else if content = wheelBytes then
    [115, 107, 2, 55, 139, 239, 149, 152, 100, 220, 23, 33, 110, 17, 73, 17, 248, 114, 13, 35, 176,
      5, 168, 223, 77, 132, 57, 94, 11, 205, 168, 224]
  else if content = recordBytes then
    [42, 92, 102, 94, 9, 132, 17, 141, 131, 87, 103, 6, 220, 84, 83, 183, 106, 253, 228, 214, 96,
      230, 187, 202, 210, 134, 183, 83, 205, 253, 233, 231]
  else
    [143, 229, 251, 25, 5, 203, 219, 239, 193, 98, 138, 101, 94, 156, 94, 252, 162, 143, 93, 61,
      143, 180, 51, 70, 173, 142, 143, 220, 242, 43, 164, 156]

/-- The libraries on the wheel below. -/
def caseLibraries : Libraries where
  version text := if text = "1.0" then some versionOne else none
  requirement _ := .error .invalidRequirement
  marker _ := .error .invalidRequirement
  specifier _ := none
  specifierSet _ := none
  contains _ _ := false
  canonicalizeName name := name
  parseWheelFilename filename :=
    if filename = "a-1.0-py3-none-any.whl" then some ("a", versionOne, [anyTag]) else none
  repr text := "'" ++ text ++ "'"
  unicode := asciiUnicode
  csv := unquotedCsv
  sha256 := caseSha256
  zipFile content := if content = caseContent then some (storedZipFile caseMembers) else none
  parsebytes value := some (plainHeaders value)
  parseTag text := if text = "py3-none-any" then some [anyTag] else none

theorem caseLibraries_zipFile (content : Bytes) : caseLibraries.zipFile content =
    if content = caseContent then some (storedZipFile caseMembers) else none :=
  rfl

def caseLimits : ArchiveLimits where
  maxEntries := 20000
  maxTotalUncompressedBytes := 2 * 1024 ^ 3
  maxEntryUncompressedBytes := 512 * 1024 ^ 2
  maxCompressionRatio := 200
  entries_bounded := by decide
  total_bounded := by decide
  entry_bounded := by decide
  ratio_bounded := by decide

def caseExpected : ExpectedWheel where
  package := "a"
  version := versionOne
  filename := "a-1.0-py3-none-any.whl"
  source := .pypi
  byteSize := 647
  sha256 := "8fe5fb1905cbdbefc1628a655e9c5efca28f5d3d8fb43346ad8e8fdcf22ba49c"
  tags := ["py3-none-any"]
  tagSet := [anyTag]
  tags_eq := by decide

def caseSnapshot : WheelSnapshot :=
  ⟨caseContent, 647,
    "8fe5fb1905cbdbefc1628a655e9c5efca28f5d3d8fb43346ad8e8fdcf22ba49c".toList⟩

theorem caseSnapshot_accepted :
    ∃ report, validateSnapshot caseLibraries caseLimits caseSnapshot caseExpected = .ok report := by
  apply exists_ok_of_isOk
  decide +kernel

theorem caseSnapshot_accounts :
    ∃ report archive,
      validateSnapshot caseLibraries caseLimits caseSnapshot caseExpected = .ok report ∧
      caseLibraries.zipFile caseSnapshot.content = some archive ∧
      ∃ record ∈ archive.infolist,
        record.origFilename = corePath caseLibraries caseExpected "RECORD".toList ∧
        (∃ rows, archive.recordRows caseLibraries.csv record = some rows ∧
          Accounts caseLibraries archive record rows) ∧
        TotalWithin caseLimits archive report.totalUncompressedBytes := by
  obtain ⟨report, hreport⟩ := caseSnapshot_accepted
  obtain ⟨archive, harchive, haccounts⟩ := validateSnapshot_accounts hreport
  exact ⟨report, archive, hreport, harchive, haccounts⟩

def caseRecord : ZipInfo := storedInfo ⟨"a-1.0.dist-info/RECORD", recordBytes, 139568562⟩

/-- A row of an accepted wheel whose path no member has. -/
theorem caseSnapshot_row_of_no_member :
    (∃ report, validateSnapshot caseLibraries caseLimits caseSnapshot caseExpected = .ok report) ∧
      ∃ archive rows, caseLibraries.zipFile caseSnapshot.content = some archive ∧
        archive.recordRows caseLibraries.csv caseRecord = some rows ∧
        ¬∀ row ∈ rows, ∃ info ∈ archive.infolist, row.head? = some info.origFilename := by
  refine ⟨caseSnapshot_accepted, storedZipFile caseMembers,
    ((storedZipFile caseMembers).recordRows unquotedCsv caseRecord).getD [], ?_, ?_, ?_⟩
  · rw [caseLibraries_zipFile]
    exact if_pos rfl
  · change (storedZipFile caseMembers).recordRows unquotedCsv caseRecord = _
    have hsome : ((storedZipFile caseMembers).recordRows unquotedCsv caseRecord).isSome = true := by
      decide +kernel
    obtain ⟨rows, hrows⟩ := Option.isSome_iff_exists.1 hsome
    rw [hrows, Option.getD_some]
  · decide +kernel

/-! ## A wheel whose RECORD lists itself as the member -/

def exactRecordBytes : Bytes := ascii
  ("a-1.0.dist-info/METADATA,sha256=JeJjWHJ7pidSacNoCgKib2j77zAZeH4gg3JCk5C2QGE,43\r\n" ++
    "a-1.0.dist-info/WHEEL,sha256=c2sCN4vvlZhk3BchbhFJEfhyDSOwBajfTYQ5XgvNqOA,37\r\n" ++
    "a-1.0.dist-info/RECORD,,\r\n")

def exactMembers : List StoredMember :=
  [⟨"a-1.0.dist-info/METADATA", metadataBytes, 1293616205⟩,
    ⟨"a-1.0.dist-info/WHEEL", wheelBytes, 1457446388⟩,
    ⟨"a-1.0.dist-info/RECORD", exactRecordBytes, 895178041⟩]

def exactContent : Bytes := storedZip exactMembers

def exactSha256 (content : Bytes) : Bytes :=
  if content = exactContent then
    [235, 189, 117, 123, 52, 104, 203, 206, 62, 45, 168, 2, 200, 145, 166, 172, 104, 41, 88, 17, 46,
      149, 102, 132, 46, 11, 159, 163, 12, 249, 109, 244]
  else if content = exactRecordBytes then
    [253, 161, 226, 104, 124, 195, 118, 120, 0, 170, 133, 51, 73, 122, 32, 160, 204, 116, 81, 177,
      119, 47, 157, 76, 114, 76, 125, 182, 219, 86, 53, 245]
  else caseSha256 content

def exactLibraries : Libraries :=
  { caseLibraries with
    sha256 := exactSha256
    zipFile := fun content =>
      if content = exactContent then some (storedZipFile exactMembers) else none }

theorem exactLibraries_zipFile (content : Bytes) : exactLibraries.zipFile content =
    if content = exactContent then some (storedZipFile exactMembers) else none :=
  rfl

def exactExpected : ExpectedWheel :=
  { caseExpected with
    sha256 := "ebbd757b3468cbce3e2da802c891a6ac682958112e9566842e0b9fa30cf96df4" }

def exactSnapshot : WheelSnapshot :=
  ⟨exactContent, 647,
    "ebbd757b3468cbce3e2da802c891a6ac682958112e9566842e0b9fa30cf96df4".toList⟩

theorem exactSnapshot_exact :
    ∃ report archive record rows,
      validateSnapshot exactLibraries caseLimits exactSnapshot exactExpected = .ok report ∧
      exactLibraries.zipFile exactSnapshot.content = some archive ∧
      archive.recordRows exactLibraries.csv record = some rows ∧
      ExactAccounts exactLibraries archive record rows ∧
      TotalWithin caseLimits archive report.totalUncompressedBytes := by
  obtain ⟨report, hreport⟩ :
      ∃ report, validateSnapshot exactLibraries caseLimits exactSnapshot exactExpected =
        .ok report := by
    apply exists_ok_of_isOk
    decide +kernel
  obtain ⟨archive, harchive, record, hrecord, -, rows, hrows, hiff⟩ :=
    validateSnapshot_exact_iff hreport
  have hzip : exactLibraries.zipFile exactSnapshot.content = some (storedZipFile exactMembers) := by
    rw [exactLibraries_zipFile]
    exact if_pos rfl
  cases Option.some.inj (harchive.symm.trans hzip)
  have hown : ∀ info ∈ (storedZipFile exactMembers).infolist,
      ∀ rows ∈ (storedZipFile exactMembers).recordRows exactLibraries.csv info,
        OwnRowExact exactLibraries info rows := by
    decide +kernel
  obtain ⟨hexact, htotal⟩ := hiff.2 (hown record hrecord rows hrows)
  exact ⟨report, _, record, rows, hreport, harchive, hrows, hexact, htotal⟩

end WheelForge.Validation
