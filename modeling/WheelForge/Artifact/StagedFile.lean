import WheelForge.Artifact.Builder
import Mathlib.Data.List.Nodup

/-!
# The staged ZIP file

What the builder writes and what its verification establishes. The members are written in the order of
their names (`writeZip_ok`), the checksums that pass the verification list the other members
(`verifyZip_ok`), and what the builder writes passes it (`verifyZip_written`).
-/

set_option autoImplicit false

namespace WheelForge.Artifact

open WheelForge.Python
open WheelForge.Validation (Bytes decodeUtf8 hexdigest)

variable {lib : BuilderLibraries}

theorem mem_of_lookup {α β : Type} [BEq α] [LawfulBEq α] {l : List (α × β)} {a : α} {b : β}
    (h : l.lookup a = some b) : (a, b) ∈ l := by
  obtain ⟨before, after, rfl, -⟩ := List.lookup_eq_some_iff.1 h
  simp

theorem lookup_isSome_of_mem {α β : Type} [BEq α] [LawfulBEq α] {l : List (α × β)} {a : α}
    (h : a ∈ l.map Prod.fst) : ∃ b, l.lookup a = some b := by
  obtain ⟨⟨a', b⟩, hentry, rfl⟩ := List.mem_map.1 h
  exact Option.isSome_iff_exists.1 (List.lookup_isSome_iff.2 ⟨_, hentry, by simp⟩)

/-- A key that no other entry has is found with its value. -/
theorem lookup_of_mem {α β : Type} [BEq α] [LawfulBEq α] {l : List (α × β)} {a : α} {b : β}
    (hnodup : (l.map Prod.fst).Nodup) (h : (a, b) ∈ l) : l.lookup a = some b := by
  obtain ⟨b', hb'⟩ := lookup_isSome_of_mem (List.mem_map_of_mem (f := Prod.fst) h)
  have hpair := List.inj_on_of_nodup_map hnodup (mem_of_lookup hb') h rfl
  rw [hb', (Prod.mk.inj hpair).2]

/-! ## Writing -/

theorem zipMember_ok {path : String} {content : Bytes} {member : ZipMember}
    (h : zipMember path content = .ok member) :
    member.filename = path ∧ member.content = content := by
  obtain ⟨_, -, h⟩ := bind_ok.1 h
  cases h
  exact ⟨rfl, rfl⟩

/-- What a written member holds. -/
theorem writeMember_ok {entries : List (String × Bytes)} {packages : List (String × ValidatedWheel)}
    {path : String} {member : ZipMember}
    (h : writeMember lib entries packages path = .ok member) :
    member.filename = path ∧ (∀ content, entries.lookup path = some content →
      member.content = content) ∧ (entries.lookup path = none →
        ∃ item, packages.lookup path = some item ∧
          snapshotContent lib item = .ok member.content) := by
  rw [writeMember] at h
  cases hentry : entries.lookup path with
  | some content =>
      rw [hentry] at h
      obtain ⟨hname, hcontent⟩ := zipMember_ok h
      refine ⟨hname, ?_, by simp⟩
      rintro content' hcontent'
      cases hcontent'
      exact hcontent
  | none =>
      rw [hentry] at h
      obtain ⟨item, hitem, h⟩ := bind_ok.1 h
      obtain ⟨content, hcontent, h⟩ := bind_ok.1 h
      obtain ⟨hname, hmember⟩ := zipMember_ok h
      rw [orRaise_ok] at hitem
      refine ⟨hname, by simp, fun _ => ⟨item, hitem, ?_⟩⟩
      rw [hmember]
      exact hcontent

/-- The members are written in the order of their names, each once. -/
theorem writeZip_ok {entries : List (String × Bytes)} {packages : List (String × ValidatedWheel)}
    {members : List ZipMember} (h : writeZip lib entries packages = .ok members) :
    members.map ZipMember.filename =
        sortedNames (entries.map Prod.fst ++ packages.map Prod.fst) ∧
      ∀ member ∈ members, writeMember lib entries packages member.filename = .ok member := by
  have hforall := mapM_ok h
  generalize sortedNames (entries.map Prod.fst ++ packages.map Prod.fst) = names at hforall
  clear h
  induction hforall with
  | nil => simp
  | cons hmember _ ih =>
      obtain ⟨hname, -, -⟩ := writeMember_ok hmember
      refine ⟨by simp [hname, ih.1], fun member hmem => ?_⟩
      rcases List.mem_cons.1 hmem with rfl | hmem
      · rw [hname]
        exact hmember
      · exact ih.2 member hmem

theorem sortedNames_perm {names : List String} (hnodup : names.Nodup) :
    (sortedNames names).Perm names := by
  rw [sortedNames, hnodup.dedup]
  exact List.perm_insertionSort _ _

section Written

variable {entries : List (String × Bytes)} {packages : List (String × ValidatedWheel)}
  {members : List ZipMember}

/-- Each name that is to be written has a member. -/
theorem exists_member (h : writeZip lib entries packages = .ok members) {name : String}
    (hname : name ∈ entries.map Prod.fst ++ packages.map Prod.fst) :
    ∃ member ∈ members, member.filename = name ∧
      writeMember lib entries packages name = .ok member := by
  obtain ⟨hnames, hmembers⟩ := writeZip_ok h
  have hsorted : name ∈ members.map ZipMember.filename := by
    rw [hnames, sortedNames, List.mem_insertionSort, List.mem_dedup]
    exact hname
  obtain ⟨member, hmember, rfl⟩ := List.mem_map.1 hsorted
  exact ⟨member, hmember, rfl, hmembers member hmember⟩

theorem member_of_entry (h : writeZip lib entries packages = .ok members) {name : String}
    {content : Bytes} (hnodup : (entries.map Prod.fst).Nodup) (hentry : (name, content) ∈ entries) :
    ∃ member ∈ members, member.filename = name ∧ member.content = content := by
  obtain ⟨member, hmember, hname, hwritten⟩ :=
    exists_member h (List.mem_append_left _ (List.mem_map_of_mem (f := Prod.fst) hentry))
  obtain ⟨-, hcontent, -⟩ := writeMember_ok hwritten
  exact ⟨member, hmember, hname, hcontent content (lookup_of_mem hnodup hentry)⟩

theorem member_of_package (h : writeZip lib entries packages = .ok members) {path : String}
    {item : ValidatedWheel} (hnew : path ∉ entries.map Prod.fst)
    (hnodup : (packages.map Prod.fst).Nodup) (hitem : (path, item) ∈ packages) :
    ∃ member ∈ members, member.filename = path ∧
      snapshotContent lib item = .ok member.content := by
  obtain ⟨member, hmember, hname, hwritten⟩ :=
    exists_member h (List.mem_append_right _ (List.mem_map_of_mem (f := Prod.fst) hitem))
  obtain ⟨-, -, hpackage⟩ := writeMember_ok hwritten
  have hnone : entries.lookup path = none := by
    rw [List.lookup_eq_none_iff]
    intro entry hentry
    simp only [bne_iff_ne, ne_eq]
    rintro rfl
    exact hnew (List.mem_map_of_mem hentry)
  obtain ⟨item', hitem', hcontent⟩ := hpackage hnone
  rw [lookup_of_mem hnodup hitem] at hitem'
  cases hitem'
  exact ⟨member, hmember, hname, hcontent⟩

end Written

/-! ## Verifying -/

/-- The entries of the lines of a checksum file, which have different paths. -/
structure LinesParsed (done : List Text) (result : List (String × String)) : Prop where
  length_eq : result.length = done.length
  paths_nodup : (result.map Prod.fst).Nodup

theorem parseChecksums_ok {content : Bytes} {checksums : List (String × String)}
    (h : parseChecksums content = .ok checksums) :
    ∃ decoded, decodeUtf8 content = some decoded ∧ LinesParsed (splitLines decoded) checksums := by
  obtain ⟨decoded, hdecoded, h⟩ := bind_ok.1 h
  rw [orRaise_ok] at hdecoded
  refine ⟨decoded, hdecoded, ?_⟩
  have hstart : LinesParsed [] [] := ⟨rfl, by simp⟩
  refine foldlM_ok LinesParsed (fun line _ done result result' hresult hline => ?_) hstart h
  obtain ⟨_, hnew, hline⟩ := bind_ok.1 hline
  cases hline
  simp only [raiseIf_ok, not_or] at hnew
  exact ⟨by simp [hresult.length_eq], by simpa using hresult.paths_nodup.concat hnew.2.2.2⟩

theorem sameSet_iff {α : Type} [DecidableEq α] {a b : List α} :
    sameSet a b = true ↔ ∀ x, x ∈ a ↔ x ∈ b := by
  rw [sameSet, Bool.and_eq_true, List.all_eq_true, List.all_eq_true]
  constructor
  · rintro ⟨hab, hba⟩ x
    exact ⟨fun hx => of_decide_eq_true (hab x hx), fun hx => of_decide_eq_true (hba x hx)⟩
  · intro h
    exact ⟨fun x hx => decide_eq_true ((h x).1 hx), fun x hx => decide_eq_true ((h x).2 hx)⟩

/-- The checksum file lists the other members, each once and with the hash of its content. -/
structure ChecksumsListed (lib : BuilderLibraries) (members : List ZipMember) : Prop where
  listed : ∃ listing ∈ members, listing.filename = checksumsName ∧
    ∃ checksums, parseChecksums listing.content = .ok checksums ∧
      (checksums.map Prod.fst).Nodup ∧
      ∀ name digest, (name, digest) ∈ checksums ↔ name ≠ checksumsName ∧
        ∃ member ∈ members, member.filename = name ∧ sha256Hex lib member.content = digest

theorem verifyZip_ok {members : List ZipMember} {names : List String}
    {hashes : List (String × String)} {u : Unit}
    (h : verifyZip lib members names hashes = .ok u) : ChecksumsListed lib members := by
  obtain ⟨_, hnames, h⟩ := bind_ok.1 h
  obtain ⟨_, -, h⟩ := bind_ok.1 h
  obtain ⟨_, -, h⟩ := bind_ok.1 h
  obtain ⟨listing, hlisting, h⟩ := bind_ok.1 h
  obtain ⟨checksums, hchecksums, h⟩ := bind_ok.1 h
  obtain ⟨_, hcoverage, h⟩ := bind_ok.1 h
  obtain ⟨_, -, h⟩ := bind_ok.1 h
  obtain ⟨_, hverified, h⟩ := bind_ok.1 h
  rw [orRaise_ok] at hlisting
  simp only [raiseIf_ok, not_or, not_not, Bool.not_eq_false] at hnames hcoverage
  obtain ⟨hnodup, hsame⟩ := hnames
  rw [sameSet_iff] at hsame hcoverage
  obtain ⟨_, -, hparsed⟩ := parseChecksums_ok hchecksums
  -- a checksum is that of the member with its name
  have hmember : ∀ entry ∈ checksums, ∃ member ∈ members, member.filename = entry.1 ∧
      sha256Hex lib member.content = entry.2 := by
    intro entry hentry
    obtain ⟨member, hfound, hhash⟩ := bind_ok.1 (forM_ok hverified entry hentry)
    rw [orRaise_ok] at hfound
    rw [raiseIf_ok, not_not] at hhash
    exact ⟨member, List.mem_of_find?_eq_some hfound, by simpa using List.find?_some hfound, hhash⟩
  refine ⟨listing, List.mem_of_find?_eq_some hlisting, by simpa using List.find?_some hlisting,
    checksums, hchecksums, hparsed.paths_nodup, fun name digest => ?_⟩
  constructor
  · intro hentry
    obtain ⟨member, hmem, hname, hhash⟩ := hmember _ hentry
    have hexpected := (hcoverage name).1 (List.mem_map_of_mem (f := Prod.fst) hentry)
    exact ⟨by simpa using (List.mem_filter.1 hexpected).2, member, hmem, hname, hhash⟩
  · rintro ⟨hne, member, hmem, rfl, rfl⟩
    have hexpected := (hsame _).1 (List.mem_map_of_mem (f := ZipMember.filename) hmem)
    have hkey := (hcoverage member.filename).2 (List.mem_filter.2 ⟨hexpected, by simpa using hne⟩)
    obtain ⟨⟨name, digest⟩, hentry, hname⟩ := List.mem_map.1 hkey
    obtain ⟨other, hother, hothername, hhash⟩ := hmember _ hentry
    have hsameName : other.filename = member.filename := hothername.trans hname
    rw [List.inj_on_of_nodup_map hnodup hother hmem hsameName] at hhash
    have hentryEq : (member.filename, sha256Hex lib member.content) = (name, digest) :=
      Prod.ext hname.symm hhash
    rw [hentryEq]
    exact hentry

/-! ## What is written passes the verification -/

/-- A hash that a line of the checksum file can hold. -/
structure Listable (hash : String × String) : Prop where
  digest : isSha256 hash.2 = true
  safe : safeZipPath hash.1 = true
  path_line : OneLine hash.1.toList

/-- The line of a hash, without its end. -/
def checksumRow (hash : String × String) : Text :=
  hash.2.toList ++ ([' ', ' '] ++ hash.1.toList)

theorem checksumLine_eq (hash : String × String) : checksumLine hash = checksumRow hash ++ ['\n'] := by
  simp [checksumLine, checksumRow]

theorem oneLine_of_isSha256 {value : String} (h : isSha256 value = true) : OneLine value.toList := by
  intro c hc
  simp only [isSha256, Bool.and_eq_true, List.all_eq_true] at h
  have hdigit := h.2 c hc
  simp only [Bool.or_eq_true, Bool.and_eq_true, decide_eq_true_eq, Char.le_def,
    UInt32.le_iff_toNat_le] at hdigit
  -- no boundary is a hexadecimal digit
  rw [Bool.eq_false_iff]
  intro hboundary
  have hcode : c.val.toNat ∈ [0xa, 0xb, 0xc, 0xd, 0x1c, 0x1d, 0x1e, 0x85, 0x2028, 0x2029] :=
    of_decide_eq_true hboundary
  have h0 : '0'.val.toNat = 48 := rfl
  have h9 : '9'.val.toNat = 57 := rfl
  have ha : 'a'.val.toNat = 97 := rfl
  have hf : 'f'.val.toNat = 102 := rfl
  simp only [List.mem_cons, List.not_mem_nil, or_false] at hcode
  omega

theorem checksumRow_oneLine {hash : String × String} (h : Listable hash) :
    OneLine (checksumRow hash) :=
  (oneLine_of_isSha256 h.digest).append (OneLine.append (by decide) h.path_line)

/-- The line of a hash is read back. -/
theorem parseChecksum_row {hash : String × String} {result : List (String × String)}
    (h : Listable hash) (hnew : hash.1 ∉ result.map Prod.fst) :
    parseChecksum result (checksumRow hash) = .ok (result ++ [hash]) := by
  have hlength : hash.2.toList.length = 64 := by
    have hdigest := h.digest
    rw [isSha256, Bool.and_eq_true, decide_eq_true_iff] at hdigest
    exact hdigest.1
  have hdigest : (checksumRow hash).take 64 = hash.2.toList := List.take_left' hlength
  have hpath : (checksumRow hash).drop 64 = [' ', ' '] ++ hash.1.toList := List.drop_left' hlength
  have hname : (checksumRow hash).drop 66 = hash.1.toList := by
    rw [show 66 = 64 + 2 from rfl, ← List.drop_drop, hpath]
    rfl
  refine bind_ok.2 ⟨(), raiseIf_ok.2 ?_, ?_⟩
  · rw [hdigest, hpath, hname]
    simp [h.digest, h.safe, hnew]
  · rw [hdigest, hname]
    simp
    rfl

theorem decodeUtf8_text (value : Text) :
    decodeUtf8 (text value) = some (Parser.normalizeNewlines value) := by
  have hbytes : (⟨(text value).toArray⟩ : ByteArray) =
      (String.ofList (Parser.normalizeNewlines value)).toUTF8 := by
    simp [text]
  rw [decodeUtf8, hbytes, fromUTF8_toUTF8, Option.map_some, String.toList_ofList]

/-- The lines of a text entry whose lines each end in a line feed. -/
theorem decodeUtf8_lines {lines : List Text} (h : ∀ line ∈ lines, OneLine line) :
    (decodeUtf8 (text (lines.flatMap (· ++ ['\n'])))).map splitLines = some lines := by
  have hreturn : '\r' ∉ lines.flatMap (· ++ ['\n']) := by
    intro hmem
    obtain ⟨line, hline, hmem⟩ := List.mem_flatMap.1 hmem
    rcases List.mem_append.1 hmem with hmem | hmem
    · exact absurd (h line hline _ hmem) (by decide)
    · exact absurd (List.mem_singleton.1 hmem) (by decide)
  rw [decodeUtf8_text, Parser.normalizeNewlines_of_notMem hreturn, Option.map_some,
    splitLines_terminated h]

/-- The file of some hashes with different paths is read back. -/
theorem parseChecksums_text {hashes : List (String × String)}
    (hlistable : ∀ hash ∈ hashes, Listable hash) (hnodup : (hashes.map Prod.fst).Nodup) :
    parseChecksums (text (checksumsText hashes)) =
      .ok (hashes.insertionSort fun a b => a.1 ≤ b.1) := by
  rw [checksumsText]
  have hperm := List.perm_insertionSort (fun a b : String × String => a.1 ≤ b.1) hashes
  generalize (hashes.insertionSort fun a b => a.1 ≤ b.1) = sorted at hperm ⊢
  replace hlistable : ∀ hash ∈ sorted, Listable hash := fun hash hmem =>
    hlistable hash (hperm.mem_iff.1 hmem)
  replace hnodup : (sorted.map Prod.fst).Nodup := ((hperm.map _).nodup_iff).2 hnodup
  clear hperm
  have hlines : sorted.flatMap checksumLine = (sorted.map checksumRow).flatMap (· ++ ['\n']) := by
    rw [List.flatMap_map]
    exact List.flatMap_congr fun hash _ => checksumLine_eq hash
  have hdecoded : (decodeUtf8 (text (sorted.flatMap checksumLine))).map splitLines =
      some (sorted.map checksumRow) := by
    rw [hlines]
    refine decodeUtf8_lines fun row hrow => ?_
    obtain ⟨hash, hhash, rfl⟩ := List.mem_map.1 hrow
    exact checksumRow_oneLine (hlistable hash hhash)
  obtain ⟨decoded, hsome, hsplit⟩ := Option.map_eq_some_iff.1 hdecoded
  refine bind_ok.2 ⟨decoded, orRaise_ok.2 hsome, ?_⟩
  rw [hsplit, List.foldlM_map]
  -- the rows are read behind those already read
  suffices hread : ∀ done : List (String × String), ((done ++ sorted).map Prod.fst).Nodup →
      sorted.foldlM (fun result hash => parseChecksum result (checksumRow hash)) done =
        .ok (done ++ sorted) from hread [] hnodup
  clear hnodup hlines hdecoded hsplit hsome
  induction sorted with
  | nil => simp [pure, Except.pure]
  | cons hash sorted ih =>
      intro done hnodup
      have hsplit : done ++ hash :: sorted = (done ++ [hash]) ++ sorted := by simp
      have hnew : hash.1 ∉ done.map Prod.fst := by
        intro hmem
        rw [List.map_append, List.nodup_append] at hnodup
        exact hnodup.2.2 _ hmem _ List.mem_cons_self rfl
      rw [List.foldlM_cons]
      refine bind_ok.2 ⟨_, parseChecksum_row (hlistable hash List.mem_cons_self) hnew, ?_⟩
      rw [hsplit]
      refine ih (fun other hother => hlistable other (List.mem_cons_of_mem _ hother)) _ ?_
      rw [← hsplit]
      exact hnodup

theorem zipMember_metadata {path : String} {content : Bytes} {member : ZipMember}
    (h : zipMember path content = .ok member) :
    safeZipPath member.filename = true ∧ validMetadata member = true := by
  obtain ⟨_, hsafe, h⟩ := bind_ok.1 h
  cases h
  rw [raiseIf_ok, Bool.not_eq_false] at hsafe
  refine ⟨hsafe, ?_⟩
  have hmode : (memberMode path * 65536) >>> 16 = memberMode path := by
    rw [Nat.shiftRight_eq_div_pow]
    omega
  simp [validMetadata, hmode]

theorem writeMember_metadata {entries : List (String × Bytes)}
    {packages : List (String × ValidatedWheel)} {path : String} {member : ZipMember}
    (h : writeMember lib entries packages path = .ok member) :
    safeZipPath member.filename = true ∧ validMetadata member = true := by
  rw [writeMember] at h
  cases hentry : entries.lookup path with
  | some content =>
      rw [hentry] at h
      exact zipMember_metadata h
  | none =>
      rw [hentry] at h
      obtain ⟨_, -, h⟩ := bind_ok.1 h
      obtain ⟨_, -, h⟩ := bind_ok.1 h
      exact zipMember_metadata h

/-- The hashes under which some members are to be verified: each other member has the hash that is
listed under its name. -/
structure HashesOf (lib : BuilderLibraries) (members : List ZipMember)
    (hashes : List (String × String)) : Prop where
  names_nodup : (hashes.map Prod.fst).Nodup
  listable : ∀ hash ∈ hashes, Listable hash
  mem_iff : ∀ name, name ∈ hashes.map Prod.fst ↔
    name ≠ checksumsName ∧ name ∈ members.map ZipMember.filename
  digest_eq : ∀ member ∈ members, ∀ hash ∈ hashes, hash.1 = member.filename →
    sha256Hex lib member.content = hash.2

/-- Verification succeeds on what was written, when the checksum file was written from the hashes of
the other members and the ZIP library can read it back. -/
theorem verifyZip_written {entries : List (String × Bytes)}
    {packages : List (String × ValidatedWheel)} {members : List ZipMember}
    {hashes : List (String × String)} (hwritten : writeZip lib entries packages = .ok members)
    (hlisting : entries.lookup checksumsName = some (text (checksumsText hashes)))
    (hhashes : HashesOf lib members hashes) (htest : lib.testzip members = none) :
    verifyZip lib members (entries.map Prod.fst ++ packages.map Prod.fst) hashes = .ok () := by
  obtain ⟨hnames, hmembers⟩ := writeZip_ok hwritten
  have hnodup : (members.map ZipMember.filename).Nodup := by
    rw [hnames]
    exact ((List.perm_insertionSort _ _).nodup_iff).2 (List.nodup_dedup _)
  have hmem : ∀ name, name ∈ members.map ZipMember.filename ↔
      name ∈ entries.map Prod.fst ++ packages.map Prod.fst := by
    intro name
    rw [hnames, sortedNames, List.mem_insertionSort, List.mem_dedup]
  have hsorted : members.map ZipMember.filename =
      (members.map ZipMember.filename).insertionSort (· ≤ ·) := by
    rw [hnames, sortedNames]
    exact (List.pairwise_insertionSort (· ≤ ·) _).insertionSort_eq.symm
  have hfind : ∀ member ∈ members,
      members.find? (fun other => other.filename = member.filename) = some member := by
    intro member hmember
    cases hfound : members.find? (fun other => other.filename = member.filename) with
    | none => exact absurd (List.find?_eq_none.1 hfound member hmember) (by simp)
    | some other =>
        have hname : other.filename = member.filename := by simpa using List.find?_some hfound
        rw [List.inj_on_of_nodup_map hnodup (List.mem_of_find?_eq_some hfound) hmember hname]
  -- the member of the checksum file
  obtain ⟨listing, hlistingMem, hlistingName, hlistingWritten⟩ := exists_member hwritten
    (List.mem_append_left _ (List.mem_map_of_mem (f := Prod.fst) (mem_of_lookup hlisting)))
  have hcontent := (writeMember_ok hlistingWritten).2.1 _ hlisting
  have hperm := List.perm_insertionSort (fun a b : String × String => a.1 ≤ b.1) hashes
  refine bind_ok.2 ⟨(), raiseIf_ok.2 ?_, bind_ok.2 ⟨(), raiseIf_ok.2 ?_,
    bind_ok.2 ⟨(), raiseIf_ok.2 ?_, bind_ok.2 ⟨listing, orRaise_ok.2 ?_,
    bind_ok.2 ⟨_, hcontent ▸ parseChecksums_text hhashes.listable hhashes.names_nodup,
    bind_ok.2 ⟨(), raiseIf_ok.2 ?_, bind_ok.2 ⟨(), raiseIf_ok.2 ?_,
    bind_ok.2 ⟨(), forM_of_ok fun hash hhash => ?_, raiseIf_ok.2 ?_⟩⟩⟩⟩⟩⟩⟩⟩
  · rw [not_or, not_not, Bool.not_eq_false, sameSet_iff]
    exact ⟨hnodup, hmem⟩
  · rw [not_or, not_not, Bool.not_eq_true, List.any_eq_false]
    refine ⟨hsorted, fun name hname => ?_⟩
    obtain ⟨member, hmember, rfl⟩ := List.mem_map.1 hname
    simp [(writeMember_metadata (hmembers member hmember)).1]
  · rw [Bool.not_eq_false, List.all_eq_true]
    exact fun member hmember => (writeMember_metadata (hmembers member hmember)).2
  · replace hlistingName : listing.filename = checksumsName := hlistingName
    rw [← hlistingName]
    exact hfind listing hlistingMem
  · rw [Bool.not_eq_false, sameSet_iff]
    intro name
    rw [(hperm.map Prod.fst).mem_iff, hhashes.mem_iff, List.mem_filter, hmem, decide_eq_true_iff,
      and_comm]
  · rw [Bool.not_eq_false, sameSet_iff]
    exact fun hash => hperm.mem_iff
  · have hmemHash := hperm.mem_iff.1 hhash
    obtain ⟨-, hname⟩ := (hhashes.mem_iff hash.1).1 (List.mem_map_of_mem hmemHash)
    obtain ⟨member, hmember, hname⟩ := List.mem_map.1 hname
    refine bind_ok.2 ⟨member, orRaise_ok.2 ?_, raiseIf_ok.2 ?_⟩
    · rw [← hname]
      exact hfind member hmember
    · rw [not_not]
      exact hhashes.digest_eq member hmember hash hmemHash hname.symm
  · simp [htest]

end WheelForge.Artifact
