import WheelForge.Interaction.Views
import WheelForge.Storage.OwnedDelete

/-!
# Files in quarantine

However deletes and sweeps follow each other, wherever they crash and whatever other programs do to
the files outside, a file that a delete has moved into quarantine is accounted for
(`quarantined_files_accounted`): it is in its directory, described by metadata and reached by a live
record, or it was put back, or it was deleted as the file that the delete had hashed. An interrupted
delete is undone by the next sweep that may touch its quarantine (`recovery_puts_back`).
-/

set_option autoImplicit false

namespace WheelForge.Storage.OwnedDelete

open WheelForge.Interaction WheelForge.Transition
open Interaction.Program (Shows Ending shows_ret shows_pure shows_raise shows_bind shows_handle
  shows_attempt)

/-! ## One quarantine -/

/-- The files in the directory, if there is one. -/
def Quarantine.files (z : Quarantine) : List (Name × FileId) :=
  match z.directory with
  | none => []
  | some d => d.entries

/-- The metadata of a file that belongs under the object key, in a directory beside it. -/
structure Describes (m : Metadata) (id : Uuid) (parent : Path) (objectKey : String) : Prop where
  identifier : m.quarantineId = id
  key : m.objectKey = objectKey
  path : objectKeyParts objectKey = .ok (parent ++ [m.originalName])

/-- No file has left the quarantine. -/
def Unsettled (history : List Event) : Prop :=
  (∀ i path, Event.restored i path ∉ history) ∧ ∀ i, Event.unlinked i ∉ history

/-- The directory tells where its file belongs, and the queue has its record. -/
def Reached (id : Uuid) (z : Quarantine) (name : Name) : Prop :=
  ∃ d m objectKey, z.directory = some d ∧ d.metadata = some m ∧ Describes m id d.parent objectKey ∧
    (name = m.originalName ∨ name = recoveryCandidate) ∧ z.record = some objectKey

/-- The file was opened and hashed, it has the digest that the caller expected, and its status in
the quarantine was the one after the hashing. -/
def Justified (digests : List (FileId × String)) (history : List Event) (identity : FileId) :
    Prop :=
  ∃ m status, Event.described m ∈ history ∧ m.source = some status ∧ status.identity = identity ∧
    (identity, m.expectedSha256) ∈ digests ∧ Event.observed ⟨true, status⟩ ∈ history

/-- The invariant of one quarantine. -/
structure Sound (digests : List (FileId × String)) (id : Uuid) (z : Quarantine) : Prop where
  reached : ∀ file ∈ z.files, Unsettled z.history ∧ Reached id z file.1
  single : z.files.length ≤ 1
  accounted : ∀ i, Event.quarantined i ∈ z.history → (∃ name, (name, i) ∈ z.files) ∨
    (∃ path, Event.restored i path ∈ z.history) ∨ Event.unlinked i ∈ z.history
  exclusive : ∀ i path, Event.restored i path ∈ z.history → ∀ j, Event.unlinked j ∉ z.history
  justified : ∀ i, Event.unlinked i ∈ z.history → Justified digests z.history i

section Sound

variable {digests digests' : List (FileId × String)} {history : List Event} {id : Uuid}
  {z : Quarantine} {d : QuarantineDirectory} {i : FileId} {name : Name} {e : Event}

theorem Justified.mono (h : Justified digests history i) (hsub : ∀ x ∈ digests, x ∈ digests') :
    Justified digests' history i := by
  obtain ⟨m, status, hdescribed, hsource, hidentity, hdigest, hobserved⟩ := h
  exact ⟨m, status, hdescribed, hsource, hidentity, hsub _ hdigest, hobserved⟩

theorem Justified.later (h : Justified digests history i) (e : Event) :
    Justified digests (e :: history) i := by
  obtain ⟨m, status, hdescribed, hsource, hidentity, hdigest, hobserved⟩ := h
  exact ⟨m, status, List.mem_cons_of_mem _ hdescribed, hsource, hidentity, hdigest,
    List.mem_cons_of_mem _ hobserved⟩

theorem Sound.mono (h : Sound digests id z) (hsub : ∀ x ∈ digests, x ∈ digests') :
    Sound digests' id z where
  reached := h.reached
  single := h.single
  accounted := h.accounted
  exclusive := h.exclusive
  justified i hi := (h.justified i hi).mono hsub

theorem files_eq (hd : z.directory = some d) : z.files = d.entries := by
  unfold Quarantine.files
  rw [hd]

theorem files_nil (h : z.directory = none) : z.files = [] := by
  unfold Quarantine.files
  rw [h]

/-- A quarantine that was never used. -/
theorem sound_unused : Sound digests id ⟨none, none, []⟩ where
  reached _ hfile := absurd hfile List.not_mem_nil
  single := Nat.zero_le 1
  accounted _ hi := absurd hi List.not_mem_nil
  exclusive _ _ hi := absurd hi List.not_mem_nil
  justified _ hi := absurd hi List.not_mem_nil

/-- What changes without a file in the quarantine: the directory and the record. -/
theorem Sound.of_empty (h : Sound digests id z) (hfiles : z.files = []) {z' : Quarantine}
    (hfiles' : z'.files = []) (hhistory : z'.history = z.history) : Sound digests id z' where
  reached file hfile := by
    rw [hfiles'] at hfile
    cases hfile
  single := by
    rw [hfiles']
    exact Nat.zero_le 1
  accounted i hi := by
    rw [hhistory] at hi ⊢
    rcases h.accounted i hi with ⟨name, hname⟩ | hsettled
    · rw [hfiles] at hname
      cases hname
    · exact .inr hsettled
  exclusive := hhistory ▸ h.exclusive
  justified := hhistory ▸ h.justified

/-- Events that do not move a file. -/
def Event.isRecord : Event → Bool
  | described _ | observed _ => true
  | _ => false

theorem mem_of_isRecord {e' : Event} (hkind : e'.isRecord = false) (he : e.isRecord = true)
    (h : e' ∈ e :: history) : e' ∈ history := by
  rcases List.mem_cons.1 h with rfl | h
  · rw [hkind] at he
    cases he
  · exact h

theorem Unsettled.later (h : Unsettled history) (he : e.isRecord = true) :
    Unsettled (e :: history) :=
  ⟨fun i path hi => h.1 i path (mem_of_isRecord rfl he hi),
    fun i hi => h.2 i (mem_of_isRecord rfl he hi)⟩

theorem Sound.happened (h : Sound digests id z) (he : e.isRecord = true) :
    Sound digests id (z.happened e) where
  reached file hfile := ⟨(h.reached file hfile).1.later he, (h.reached file hfile).2⟩
  single := h.single
  accounted i hi := (h.accounted i (mem_of_isRecord rfl he hi)).imp_right fun hsettled =>
    hsettled.imp (fun ⟨path, hpath⟩ => ⟨path, List.mem_cons_of_mem _ hpath⟩)
      (List.mem_cons_of_mem _)
  exclusive i path hi j hj :=
    h.exclusive i path (mem_of_isRecord rfl he hi) j (mem_of_isRecord rfl he hj)
  justified i hi := (h.justified i (mem_of_isRecord rfl he hi)).later e

/-- New metadata of the same file. -/
theorem Sound.redescribed (h : Sound digests id z) (hd : z.directory = some d) {m m' : Metadata}
    (hm : d.metadata = some m) (hid : m'.quarantineId = m.quarantineId)
    (hkey : m'.objectKey = m.objectKey) (hname : m'.originalName = m.originalName) :
    Sound digests id (z.withDirectory (some { d with metadata := some m' })) := by
  have hfiles : (z.withDirectory (some { d with metadata := some m' })).files = z.files :=
    (files_eq hd).symm
  refine ⟨fun file hfile => ?_, hfiles ▸ h.single, hfiles ▸ h.accounted, h.exclusive, h.justified⟩
  rw [hfiles] at hfile
  obtain ⟨hunsettled, d', m₀, objectKey, hd', hm₀, hdescribes, hnames, hrecord⟩ :=
    h.reached file hfile
  obtain rfl := Option.some.inj (hd.symm.trans hd')
  obtain rfl := Option.some.inj (hm.symm.trans hm₀)
  refine ⟨hunsettled, _, m', objectKey, rfl, rfl, ⟨hid.trans hdescribes.identifier,
    hkey.trans hdescribes.key, ?_⟩, ?_, hrecord⟩
  · rw [hname]
    exact hdescribes.path
  · rw [hname]
    exact hnames

/-- The file comes into a directory that is described and reached. -/
theorem Sound.quarantined (h : Sound digests id z) (hd : z.directory = some d)
    (hempty : d.entries = []) (hunsettled : Unsettled z.history) {m : Metadata}
    {objectKey : String} (hm : d.metadata = some m) (hdescribes : Describes m id d.parent objectKey)
    (hrecord : z.record = some objectKey) (i : FileId) :
    Sound digests id
      ((z.withDirectory (some (d.insert m.originalName i))).happened (.quarantined i)) := by
  have hfiles : z.files = [] := (files_eq hd).trans hempty
  have hnew : ((z.withDirectory (some (d.insert m.originalName i))).happened
      (.quarantined i)).files = [(m.originalName, i)] := by
    show (m.originalName, i) :: d.entries = _
    rw [hempty]
  have hnone : ∀ {e : Event}, e ≠ .quarantined i → e ∉ z.history →
      e ∉ Event.quarantined i :: z.history := by
    intro e hne he hmem
    exact (List.mem_cons.1 hmem).elim hne he
  refine ⟨fun file hfile => ?_, ?_, fun j hj => ?_, fun j path hj => ?_, fun j hj => ?_⟩
  · rw [hnew, List.mem_singleton] at hfile
    subst hfile
    refine ⟨⟨fun j path => hnone nofun (hunsettled.1 j path),
      fun j => hnone nofun (hunsettled.2 j)⟩, _, m, objectKey, rfl, hm, hdescribes, .inl rfl,
      hrecord⟩
  · rw [hnew]
    exact Nat.le_refl 1
  · rcases List.mem_cons.1 hj with hsame | hj
    · obtain rfl := Event.quarantined.inj hsame
      rw [hnew]
      exact .inl ⟨_, List.mem_singleton.2 rfl⟩
    · rcases h.accounted j hj with ⟨name, hname⟩ | ⟨path, hpath⟩ | hunlinked
      · rw [hfiles] at hname
        cases hname
      · exact absurd hpath (hunsettled.1 j path)
      · exact absurd hunlinked (hunsettled.2 j)
  · exact absurd hj (hnone nofun (hunsettled.1 j path))
  · exact absurd hj (hnone nofun (hunsettled.2 j))

/-- A directory with one file. -/
theorem Sound.eq_singleton (h : Sound digests id z) (hd : z.directory = some d)
    (hfind : d.find name = some i) : d.entries = [(name, i)] := by
  have hsingle := h.single
  rw [files_eq hd] at hsingle
  unfold QuarantineDirectory.find at hfind
  match hentries : d.entries with
  | [] =>
      rw [hentries] at hfind
      cases hfind
  | [(name', i')] =>
      rw [hentries, List.lookup_cons, List.lookup_nil] at hfind
      by_cases hname : name = name'
      · subst hname
        rw [beq_self_eq_true] at hfind
        rw [Option.some.inj hfind]
      · rw [beq_eq_false_iff_ne.2 hname] at hfind
        cases hfind
  | _ :: _ :: _ =>
      rw [hentries] at hsingle
      exact absurd hsingle (by simp)

/-- What is left in the directory without the file. -/
theorem Sound.erase_entries (h : Sound digests id z) (hd : z.directory = some d)
    (hfind : d.find name = some i) : (d.erase name).entries = [] := by
  show d.entries.filter _ = []
  rw [h.eq_singleton hd hfind]
  simp

/-- The file gets the name of the candidate. -/
theorem Sound.isolated (h : Sound digests id z) (hd : z.directory = some d)
    (hfind : d.find name = some i) :
    Sound digests id
      (z.withDirectory (some ((d.erase name).insert recoveryCandidate i))) := by
  have hold : z.files = [(name, i)] := (files_eq hd).trans (h.eq_singleton hd hfind)
  have hnew : (z.withDirectory (some ((d.erase name).insert recoveryCandidate i))).files =
      [(recoveryCandidate, i)] := by
    show (recoveryCandidate, i) :: (d.erase name).entries = _
    rw [h.erase_entries hd hfind]
  refine ⟨fun file hfile => ?_, ?_, fun j hj => ?_, h.exclusive, h.justified⟩
  · rw [hnew, List.mem_singleton] at hfile
    subst hfile
    obtain ⟨hunsettled, d', m, objectKey, hd', hm, hdescribes, -, hrecord⟩ :=
      h.reached (name, i) (hold ▸ List.mem_singleton.2 rfl)
    obtain rfl := Option.some.inj (hd.symm.trans hd')
    exact ⟨hunsettled, _, m, objectKey, rfl, hm, hdescribes, .inr rfl, hrecord⟩
  · rw [hnew]
    exact Nat.le_refl 1
  · refine (h.accounted j hj).imp_left ?_
    rintro ⟨other, hother⟩
    rw [hold, List.mem_singleton] at hother
    cases hother
    exact ⟨recoveryCandidate, hnew ▸ List.mem_singleton.2 rfl⟩

/-- The file goes back under its name. -/
theorem Sound.restored (h : Sound digests id z) (hd : z.directory = some d)
    (hfind : d.find name = some i) (path : Path) :
    Sound digests id ((z.withDirectory (some (d.erase name))).happened (.restored i path)) := by
  have hold : z.files = [(name, i)] := (files_eq hd).trans (h.eq_singleton hd hfind)
  have hnew : ((z.withDirectory (some (d.erase name))).happened (.restored i path)).files = [] :=
    h.erase_entries hd hfind
  have hunsettled := (h.reached (name, i) (hold ▸ List.mem_singleton.2 rfl)).1
  refine ⟨fun file hfile => ?_, ?_, fun j hj => ?_, fun j other _ k hk => ?_, fun j hj => ?_⟩
  · rw [hnew] at hfile
    cases hfile
  · rw [hnew]
    exact Nat.zero_le 1
  · rcases List.mem_cons.1 hj with hsame | hj
    · cases hsame
    · right
      rcases h.accounted j hj with ⟨other, hother⟩ | ⟨other, hother⟩ | hunlinked
      · rw [hold, List.mem_singleton] at hother
        cases hother
        exact .inl ⟨path, List.mem_cons_self⟩
      · exact .inl ⟨other, List.mem_cons_of_mem _ hother⟩
      · exact .inr (List.mem_cons_of_mem _ hunlinked)
  · rcases List.mem_cons.1 hk with hsame | hk
    · cases hsame
    · exact hunsettled.2 k hk
  · rcases List.mem_cons.1 hj with hsame | hj
    · cases hsame
    · exact absurd hj (hunsettled.2 j)

/-- The file is deleted. -/
theorem Sound.unlinked (h : Sound digests id z) (hd : z.directory = some d)
    (hfind : d.find name = some i) (hjustified : Justified digests z.history i) :
    Sound digests id ((z.withDirectory (some (d.erase name))).happened (.unlinked i)) := by
  have hold : z.files = [(name, i)] := (files_eq hd).trans (h.eq_singleton hd hfind)
  have hnew : ((z.withDirectory (some (d.erase name))).happened (.unlinked i)).files = [] :=
    h.erase_entries hd hfind
  have hunsettled := (h.reached (name, i) (hold ▸ List.mem_singleton.2 rfl)).1
  refine ⟨fun file hfile => ?_, ?_, fun j hj => ?_, fun j path hj => ?_, fun j hj => ?_⟩
  · rw [hnew] at hfile
    cases hfile
  · rw [hnew]
    exact Nat.zero_le 1
  · rcases List.mem_cons.1 hj with hsame | hj
    · cases hsame
    · right
      rcases h.accounted j hj with ⟨other, hother⟩ | ⟨other, hother⟩ | hunlinked
      · rw [hold, List.mem_singleton] at hother
        cases hother
        exact .inr List.mem_cons_self
      · exact .inl ⟨other, List.mem_cons_of_mem _ hother⟩
      · exact .inr (List.mem_cons_of_mem _ hunlinked)
  · rcases List.mem_cons.1 hj with hsame | hj
    · cases hsame
    · exact absurd hj (hunsettled.1 j path)
  · rcases List.mem_cons.1 hj with hsame | hj
    · obtain rfl := Event.unlinked.inj hsame
      exact hjustified.later _
    · exact absurd hj (hunsettled.2 j)

end Sound

/-! ## The view of a call -/

/-- What the proof of a program knows: its own quarantine, and digests that were computed. -/
structure Knowledge where
  quarantine : Quarantine
  digests : List (FileId × String)

/-- The tree has this quarantine under the UUID, and every quarantine is sound. -/
structure Looks (id : Uuid) (v : Knowledge) (s : Tree) : Prop where
  own : s.quarantines id = v.quarantine
  digests : ∀ x ∈ v.digests, x ∈ s.digests
  sound : Sound v.digests id v.quarantine
  others : ∀ other, other ≠ id → Sound s.digests other (s.quarantines other)

/-- Demanded at every call. -/
def AllSound (s : Tree) (_ : DeleteCall) : Prop := ∀ id, Sound s.digests id (s.quarantines id)

section Views

variable {id : Uuid} {v : Knowledge} {s t : Tree}

theorem Looks.allSound (h : Looks id v s) :
    ∀ other, Sound s.digests other (s.quarantines other) := by
  intro other
  by_cases hsame : other = id
  · subst hsame
    rw [h.own]
    exact h.sound.mono h.digests
  · exact h.others other hsame

theorem Looks.disturbed (h : Looks id v s) (hd : Disturbs s t) : Looks id v t where
  own := by
    rw [hd.quarantines]
    exact h.own
  digests := by
    rw [hd.digests]
    exact h.digests
  sound := h.sound
  others := by
    rw [hd.digests, hd.quarantines]
    exact h.others

/-- A change of the quarantine and of files outside. -/
theorem Looks.set (h : Looks id v s) {z : Quarantine} (hz : Sound v.digests id z)
    (hd : Disturbs s t) : Looks id ⟨z, v.digests⟩ (t.set id z) where
  own := Function.update_self ..
  digests := (h.disturbed hd).digests
  sound := hz
  others other hne := by
    show Sound t.digests other (Function.update t.quarantines id z other)
    rw [Function.update_of_ne hne]
    exact (h.disturbed hd).others other hne

theorem Disturbs.refl (s : Tree) : Disturbs s s := ⟨rfl, rfl⟩

/-- One call of a program that owns a quarantine: what it is answered, and that it may fail. -/
theorem shows_perform {sha256 : List UInt8 → String} {call : DeleteCall}
    {Q : Except DeleteError call.Answer → Knowledge → Prop}
    (hanswer : ∀ s, Looks id v s →
      ∃ w, Looks id w (answer sha256 s call).2 ∧ Q (answer sha256 s call).1 w)
    (hfail : ∀ e, Fails call e → Q (.error e) v)
    (hlost : call.onQueue = true → ∀ s e, Looks id v s → Fails call e →
      ∃ w, Looks id w (answer sha256 s call).2 ∧ Q (.error e) w) :
    Shows AllSound (Answers sha256) (Looks id) v (perform call) Q := by
  refine Program.shows_op (fun s hs => hs.allSound) fun s r t hs hr => ?_
  cases hr with
  | answered h => exact hanswer _ (hs.disturbed h)
  | failed h he => exact ⟨v, hs.disturbed h, hfail _ he⟩
  | lost h he hqueue => exact hlost hqueue _ _ (hs.disturbed h) he

/-- A call that changes nothing. -/
theorem shows_reading {sha256 : List UInt8 → String} {call : DeleteCall}
    {Q : Except DeleteError call.Answer → Knowledge → Prop} (hqueue : call.onQueue = false)
    (hsame : ∀ s, (answer sha256 s call).2 = s)
    (hanswer : ∀ s, Looks id v s → Q (answer sha256 s call).1 v)
    (hfail : ∀ e, Fails call e → Q (.error e) v) :
    Shows AllSound (Answers sha256) (Looks id) v (perform call) Q := by
  refine shows_perform (fun s hs => ⟨v, ?_, hanswer s hs⟩) hfail fun h => ?_
  · rw [hsame]
    exact hs
  · rw [hqueue] at h
    cases h

end Views

/-! ## Calls -/

section Calls

variable {sha256 : List UInt8 → String} {id : Uuid} {v : Knowledge} {d : QuarantineDirectory}

/-- The triples of this module. -/
abbrev Does (sha256 : List UInt8 → String) (id : Uuid) {α : Type} (v : Knowledge)
    (p : DeleteProgram α) (Q : Except DeleteError α → Knowledge → Prop) : Prop :=
  Shows AllSound (Answers sha256) (Looks id) v p Q

theorem does_fsync {Q : Except DeleteError Unit → Knowledge → Prop} (h : ∀ r, Q r v) :
    Does sha256 id v (perform .fsync) Q :=
  shows_reading rfl (fun _ => rfl) (fun _ _ => h _) fun e _ => h (.error e)

theorem does_prune {artifact : Uuid × Option Uuid} {Q : Except DeleteError Unit → Knowledge → Prop}
    (h : ∀ r, Q r v) : Does sha256 id v (perform (.prune artifact)) Q :=
  shows_reading rfl (fun _ => rfl) (fun _ _ => h _) fun e _ => h (.error e)

theorem does_enqueue {objectKey : String} {Q : Except DeleteError Unit → Knowledge → Prop}
    (hfiles : v.quarantine.files = [])
    (hok : Q (.ok ()) ⟨v.quarantine.withRecord (some objectKey), v.digests⟩)
    (herror : ∀ e, Q (.error e) v ∧
      Q (.error e) ⟨v.quarantine.withRecord (some objectKey), v.digests⟩) :
    Does sha256 id v (perform (.enqueue id objectKey)) Q := by
  have hset : ∀ s, Looks id v s → Looks id ⟨v.quarantine.withRecord (some objectKey), v.digests⟩
      (answer sha256 s (.enqueue id objectKey)).2 := by
    intro s hs
    simp only [answer, hs.own]
    exact hs.set (hs.sound.of_empty hfiles hfiles rfl) (.refl s)
  exact shows_perform (fun s hs => ⟨_, hset s hs, hok⟩) (fun e _ => (herror e).1)
    fun _ s e hs _ => ⟨_, hset s hs, (herror e).2⟩

theorem does_complete {Q : Except DeleteError Unit → Knowledge → Prop}
    (hfiles : v.quarantine.files = [])
    (hok : Q (.ok ()) ⟨v.quarantine.withRecord none, v.digests⟩)
    (herror : ∀ e, Q (.error e) v ∧ Q (.error e) ⟨v.quarantine.withRecord none, v.digests⟩) :
    Does sha256 id v (perform (.complete id)) Q := by
  have hset : ∀ s, Looks id v s → Looks id ⟨v.quarantine.withRecord none, v.digests⟩
      (answer sha256 s (.complete id)).2 := by
    intro s hs
    simp only [answer, hs.own]
    exact hs.set (hs.sound.of_empty hfiles hfiles rfl) (.refl s)
  exact shows_perform (fun s hs => ⟨_, hset s hs, hok⟩) (fun e _ => (herror e).1)
    fun _ s e hs _ => ⟨_, hset s hs, (herror e).2⟩

theorem does_mkdir {parent : Path} {Q : Except DeleteError Unit → Knowledge → Prop}
    (hdirectory : v.quarantine.directory = none)
    (hok : Q (.ok ()) ⟨v.quarantine.withDirectory (some ⟨parent, none, []⟩), v.digests⟩)
    (herror : ∀ e, Q (.error e) v) : Does sha256 id v (perform (.mkdir id parent)) Q := by
  refine shows_perform (fun s hs => ?_) (fun e _ => herror e) nofun
  simp only [answer, hs.own, hdirectory]
  exact ⟨_, hs.set (hs.sound.of_empty (files_nil hdirectory) rfl rfl) (.refl s), hok⟩

theorem does_openQuarantine {parent : Path} {Q : Except DeleteError Unit → Knowledge → Prop}
    (hok : ∀ d, v.quarantine.directory = some d → d.parent = parent → Q (.ok ()) v)
    (hmissing : (∀ d, v.quarantine.directory = some d → d.parent ≠ parent) →
      Q (.error .fileNotFound) v)
    (herror : ∀ e, e ≠ .fileNotFound → Q (.error e) v) :
    Does sha256 id v (perform (.openQuarantine id parent)) Q := by
  refine shows_perform (fun s hs => ⟨v, ?_⟩) (fun e he => herror e he.1) nofun
  simp only [answer, hs.own]
  cases hd : v.quarantine.directory with
  | none => exact ⟨hs, hmissing (by simp [hd])⟩
  | some d =>
      -- the directory is there, but only its own parent finds it
      refine ⟨hs, ?_⟩
      dsimp only
      split
      · next hparent => exact hok d hd hparent
      · next hparent =>
        refine hmissing fun d' hd' => ?_
        rw [hd] at hd'
        cases hd'
        exact hparent

theorem does_putMetadata {m : Metadata} {Q : Except DeleteError Unit → Knowledge → Prop}
    (hd : v.quarantine.directory = some d)
    (hsound : Sound v.digests id v.quarantine →
      Sound v.digests id (v.quarantine.withDirectory (some { d with metadata := some m })))
    (hok : Q (.ok ()) ⟨(v.quarantine.withDirectory (some { d with metadata := some m })).happened
      (.described m), v.digests⟩)
    (herror : ∀ e, Q (.error e) v) : Does sha256 id v (perform (.putMetadata id m)) Q := by
  refine shows_perform (fun s hs => ?_) (fun e _ => herror e) nofun
  simp only [answer, hs.own, hd]
  exact ⟨_, hs.set ((hsound hs.sound).happened rfl) (.refl s), hok⟩

theorem does_renameInto {path : Path} {m : Metadata} {objectKey : String}
    {Q : Except DeleteError Unit → Knowledge → Prop} (hd : v.quarantine.directory = some d)
    (hempty : d.entries = []) (hunsettled : Unsettled v.quarantine.history)
    (hm : d.metadata = some m) (hdescribes : Describes m id d.parent objectKey)
    (hrecord : v.quarantine.record = some objectKey)
    (hok : ∀ i, Q (.ok ()) ⟨(v.quarantine.withDirectory (some (d.insert m.originalName i))).happened
      (.quarantined i), v.digests⟩)
    (herror : ∀ e, Q (.error e) v) :
    Does sha256 id v (perform (.renameInto path id m.originalName)) Q := by
  refine shows_perform (fun s hs => ?_) (fun e _ => herror e) nofun
  simp only [answer, hs.own, hd]
  cases hentry : s.files.entries path with
  | none => exact ⟨v, hs, herror _⟩
  | some i =>
      have hfind : d.find m.originalName = none := by
        unfold QuarantineDirectory.find
        rw [hempty]
        rfl
      dsimp only
      rw [hfind]
      have hsound := hs.sound.quarantined hd hempty hunsettled hm hdescribes hrecord i
      exact ⟨_, hs.set hsound ⟨rfl, rfl⟩, hok i⟩

theorem does_renameInside {source : Name} {Q : Except DeleteError Unit → Knowledge → Prop}
    (hd : v.quarantine.directory = some d)
    (hok : ∀ i, d.find source = some i → Q (.ok ())
      ⟨v.quarantine.withDirectory (some ((d.erase source).insert recoveryCandidate i)), v.digests⟩)
    (hmissing : d.find source = none → Q (.error .fileNotFound) v)
    (herror : ∀ e, e ≠ .fileNotFound → Q (.error e) v) :
    Does sha256 id v (perform (.renameInside id source recoveryCandidate)) Q := by
  refine shows_perform (fun s hs => ?_) (fun e he => herror e he.1) nofun
  simp only [answer, hs.own, hd]
  cases hfind : d.find source with
  | none => exact ⟨v, hs, hmissing hfind⟩
  | some i =>
      cases htarget : d.find recoveryCandidate with
      | some j => exact ⟨v, hs, herror _ nofun⟩
      | none => exact ⟨_, hs.set (hs.sound.isolated hd hfind) (.refl s), hok i hfind⟩

theorem does_lstatInside {name : Name} {Q : Except DeleteError EntryStatus → Knowledge → Prop}
    (hd : v.quarantine.directory = some d)
    (hok : ∀ i status, d.find name = some i → status.status.identity = i → Q (.ok status)
      ⟨v.quarantine.happened (.observed status), v.digests⟩)
    (hmissing : d.find name = none → Q (.error .fileNotFound) v)
    (herror : ∀ e, e ≠ .fileNotFound → Q (.error e) v) :
    Does sha256 id v (perform (.lstatInside id name)) Q := by
  refine shows_perform (fun s hs => ?_) (fun e he => herror e he.1) nofun
  simp only [answer, hs.own, hd, Option.bind_some]
  cases hfind : d.find name with
  | none => exact ⟨v, hs, hmissing hfind⟩
  | some i => exact ⟨_, hs.set (hs.sound.happened rfl) (.refl s), hok i _ hfind rfl⟩

theorem does_unlinkInside {name : Name} {i : FileId}
    {Q : Except DeleteError Unit → Knowledge → Prop} (hd : v.quarantine.directory = some d)
    (hfind : d.find name = some i) (hjustified : Justified v.digests v.quarantine.history i)
    (hok : Q (.ok ())
      ⟨(v.quarantine.withDirectory (some (d.erase name))).happened (.unlinked i), v.digests⟩)
    (herror : ∀ e, Q (.error e) v) : Does sha256 id v (perform (.unlinkInside id name)) Q := by
  refine shows_perform (fun s hs => ?_) (fun e _ => herror e) nofun
  simp only [answer, hs.own, hd, hfind]
  exact ⟨_, hs.set (hs.sound.unlinked hd hfind hjustified) (.refl s), hok⟩

theorem does_renameOut {name : Name} {path : Path} {i : FileId}
    {Q : Except DeleteError Unit → Knowledge → Prop} (hd : v.quarantine.directory = some d)
    (hfind : d.find name = some i)
    (hok : (d.erase name).entries = [] → Q (.ok ())
      ⟨(v.quarantine.withDirectory (some (d.erase name))).happened (.restored i path), v.digests⟩)
    (herror : ∀ e, Q (.error e) v) :
    Does sha256 id v (perform (.renameOut id name path)) Q := by
  refine shows_perform (fun s hs => ?_) (fun e _ => herror e) nofun
  simp only [answer, hs.own, hd, hfind]
  cases hentry : s.files.entries path with
  | none =>
      exact ⟨_, hs.set (hs.sound.restored hd hfind path) ⟨rfl, rfl⟩,
        hok (hs.sound.erase_entries hd hfind)⟩
  | some j => exact ⟨v, hs, herror _⟩

theorem does_rmdir {Q : Except DeleteError Unit → Knowledge → Prop}
    (hok : v.quarantine.files = [] → Q (.ok ()) ⟨v.quarantine.withDirectory none, v.digests⟩)
    (herror : ∀ e, Q (.error e) v) : Does sha256 id v (perform (.rmdir id)) Q := by
  refine shows_perform (fun s hs => ?_) (fun e _ => herror e) nofun
  simp only [answer, hs.own]
  cases hd : v.quarantine.directory with
  | none => exact ⟨v, hs, herror _⟩
  | some d =>
      dsimp only
      split
      · next hempty =>
        have hfiles : v.quarantine.files = [] :=
          (files_eq hd).trans (List.isEmpty_iff.1 hempty)
        exact ⟨_, hs.set (hs.sound.of_empty hfiles rfl rfl) (.refl s), hok hfiles⟩
      · exact ⟨v, hs, herror _⟩

theorem does_getMetadata {Q : Except DeleteError (Option Metadata) → Knowledge → Prop}
    (hd : v.quarantine.directory = some d) (hok : Q (.ok d.metadata) v)
    (herror : ∀ e, Q (.error e) v) : Does sha256 id v (perform (.getMetadata id)) Q := by
  refine shows_perform (fun s hs => ⟨v, ?_⟩) (fun e _ => herror e) nofun
  simp only [answer, hs.own, hd]
  refine ⟨hs, ?_⟩
  split
  · exact hok
  · exact herror _

theorem does_fstat {descriptor : FileId} {Q : Except DeleteError EntryStatus → Knowledge → Prop}
    (hok : ∀ status, status.status.identity = descriptor → Q (.ok status) v)
    (herror : ∀ e, Q (.error e) v) : Does sha256 id v (perform (.fstat descriptor)) Q :=
  shows_reading rfl (fun _ => rfl) (fun _ _ => hok _ rfl) fun e _ => herror e

theorem does_hash {descriptor : FileId} {Q : Except DeleteError String → Knowledge → Prop}
    (hok : ∀ digest, Q (.ok digest) ⟨v.quarantine, (descriptor, digest) :: v.digests⟩)
    (herror : ∀ e, Q (.error e) v) : Does sha256 id v (perform (.hash descriptor)) Q := by
  refine shows_perform (fun s hs => ?_) (fun e _ => herror e) nofun
  simp only [answer]
  refine ⟨⟨v.quarantine, (descriptor, sha256 (s.files.inodes descriptor).content) :: v.digests⟩,
    ⟨hs.own, fun x hx => ?_, ?_, fun other hne => ?_⟩, hok _⟩
  · rcases List.mem_cons.1 hx with rfl | hx
    · exact List.mem_cons_self
    · exact List.mem_cons_of_mem _ (hs.digests x hx)
  · exact hs.sound.mono fun _ => List.mem_cons_of_mem _
  · exact (hs.others other hne).mono fun _ => List.mem_cons_of_mem _

theorem does_lstat {path : Path} {Q : Except DeleteError EntryStatus → Knowledge → Prop}
    (h : ∀ r, Q r v) : Does sha256 id v (perform (.lstat path)) Q := by
  refine shows_reading rfl (fun s => ?_) (fun _ _ => h _) fun e _ => h (.error e)
  simp only [answer]
  split <;> rfl

theorem does_openFile {path : Path} {Q : Except DeleteError (FileId × Bool) → Knowledge → Prop}
    (h : ∀ r, Q r v) : Does sha256 id v (perform (.openFile path)) Q := by
  refine shows_reading rfl (fun s => ?_) (fun _ _ => h _) fun e _ => h (.error e)
  simp only [answer]
  split <;> rfl

theorem does_openParent {parent : Path} {Q : Except DeleteError Unit → Knowledge → Prop}
    (h : ∀ r, Q r v) : Does sha256 id v (perform (.openParent parent)) Q :=
  shows_reading rfl (fun _ => rfl) (fun _ _ => h _) fun e _ => h (.error e)

theorem does_clock {Q : Except DeleteError DateTime → Knowledge → Prop} (h : ∀ r, Q r v) :
    Does sha256 id v (perform .clock) Q :=
  shows_reading rfl (fun _ => rfl) (fun _ _ => h _) fun e _ => h (.error e)

theorem does_move {Q : Except DeleteError Unit → Knowledge → Prop} (h : ∀ r, Q r v) :
    Does sha256 id v (perform (.move id)) Q :=
  shows_reading rfl (fun _ => rfl) (fun _ _ => h _) fun e _ => h (.error e)

theorem does_isEmpty {Q : Except DeleteError Bool → Knowledge → Prop} (h : ∀ r, Q r v) :
    Does sha256 id v (perform (.isEmpty id)) Q :=
  shows_reading rfl (fun _ => rfl) (fun _ _ => h _) fun e _ => h (.error e)

end Calls

/-! ## `delete_if_owned` -/

section Delete

variable {sha256 : List UInt8 → String} {id : Uuid} {v : Knowledge} {α : Type}

theorem does_bestEffort {p : DeleteProgram Unit} {P : Knowledge → Prop}
    (h : Does sha256 id v p fun _ w => P w) : Does sha256 id v (bestEffort p) fun _ w => P w :=
  shows_handle h (fun _ _ hw => hw) fun _ _ hw => shows_pure hw

theorem does_onError {p : DeleteProgram α} {cleanup : DeleteProgram Unit} {P : α → Knowledge → Prop}
    {E F : Knowledge → Prop} (hp : Does sha256 id v p (Ending P fun _ => E))
    (hcleanup : ∀ w, E w → Does sha256 id w cleanup fun _ => F) :
    Does sha256 id v (onError p cleanup) (Ending P fun _ => F) := by
  refine shows_handle hp (fun _ _ hw => hw) fun e w hw => ?_
  exact shows_bind (hcleanup w hw) (fun _ u hu => shows_raise hu) fun _ _ hu => hu

theorem does_onNotFound {p h : DeleteProgram α} {P Q : Except DeleteError α → Knowledge → Prop}
    (hp : Does sha256 id v p P) (hok : ∀ a w, P (.ok a) w → Q (.ok a) w)
    (herror : ∀ e w, e ≠ .fileNotFound → P (.error e) w → Q (.error e) w)
    (hh : ∀ w, P (.error .fileNotFound) w → Does sha256 id w h Q) :
    Does sha256 id v (onNotFound p h) Q := by
  refine shows_handle hp hok fun e w hw => ?_
  split
  · next he =>
    subst he
    exact hh w hw
  · next he => exact shows_raise (herror e w he hw)

/-- There is no file in the quarantine, and there has been none. -/
structure Vacant (digests : List (FileId × String)) (w : Knowledge) : Prop where
  files : w.quarantine.files = []
  unsettled : Unsettled w.quarantine.history
  digests : w.digests = digests

variable {digests : List (FileId × String)}

theorem Vacant.of_history {w w' : Knowledge} (h : Vacant digests w)
    (hfiles : w'.quarantine.files = []) (hhistory : w'.quarantine.history = w.quarantine.history)
    (hdigests : w'.digests = w.digests) : Vacant digests w' :=
  ⟨hfiles, hhistory ▸ h.unsettled, hdigests.trans h.digests⟩

theorem Vacant.complete (h : Vacant digests v) :
    Does sha256 id v (perform (.complete id)) fun _ w => Vacant digests w :=
  does_complete h.files (h.of_history h.files rfl rfl) fun _ =>
    ⟨h, h.of_history h.files rfl rfl⟩

theorem Vacant.removeEmpty (h : Vacant digests v) :
    Does sha256 id v (removeEmptyQuarantineDirectory id) fun _ w => Vacant digests w := by
  unfold removeEmptyQuarantineDirectory
  refine shows_bind (P := fun _ w => Vacant digests w) (does_rmdir (fun _ => ?_) fun _ => h)
    (fun _ w hw => does_fsync fun _ => hw) fun _ _ hw => hw
  exact h.of_history rfl rfl rfl

theorem Vacant.cleanUp (h : Vacant digests v) :
    Does sha256 id v (do
      bestEffort (removeEmptyQuarantineDirectory id)
      bestEffort (perform (.complete id))) fun _ w => Vacant digests w :=
  shows_bind (does_bestEffort h.removeEmpty) (fun _ _ hw => does_bestEffort hw.complete)
    fun _ _ hw => hw

/-- The file is in the directory under this name. -/
structure Holding (digests : List (FileId × String)) (m : Metadata) (name : Name) (w : Knowledge) :
    Prop where
  file : ∃ d i, w.quarantine.directory = some d ∧ d.entries = [(name, i)]
  described : Event.described m ∈ w.quarantine.history
  unsettled : Unsettled w.quarantine.history
  digests : w.digests = digests

/-- The directory before the rename: described, reached and empty. -/
structure Prepared (digests : List (FileId × String)) (m : Metadata) (path : Path) (w : Knowledge) :
    Prop where
  directory : w.quarantine.directory = some ⟨path.dropLast, some m, []⟩
  described : Event.described m ∈ w.quarantine.history
  unsettled : Unsettled w.quarantine.history
  record : w.quarantine.record = some m.objectKey
  digests : w.digests = digests

theorem Prepared.vacant {m : Metadata} {path : Path} (h : Prepared digests m path v) :
    Vacant digests v :=
  ⟨files_eq h.directory, h.unsettled, h.digests⟩

/-- What the rename into the directory comes to. -/
def Moved (digests : List (FileId × String)) (m : Metadata) (moved : Bool) (w : Knowledge) : Prop :=
  if moved then Holding digests m m.originalName w else Vacant digests w

theorem Prepared.rename {m : Metadata} {path : Path} (h : Prepared digests m path v)
    (hid : m.quarantineId = id) (hpath : objectKeyParts m.objectKey = .ok (path.dropLast ++
      [m.originalName])) :
    Does sha256 id v (onNotFound
      (do
        perform (.renameInto path m.quarantineId m.originalName)
        return true)
      (do
        removeEmptyQuarantineDirectory m.quarantineId
        perform (.complete m.quarantineId)
        return false)) (Ending (Moved digests m) fun _ => Vacant digests) := by
  subst hid
  refine does_onNotFound (P := Ending (Moved digests m) fun _ => Vacant digests) ?_
    (fun _ _ hw => hw) (fun _ _ _ hw => hw) fun w (hw : Vacant digests w) => ?_
  · refine shows_bind (P := Ending (fun _ => Holding digests m m.originalName)
      fun _ => Vacant digests) ?_ (fun _ _ hw => shows_pure hw) fun _ _ hw => hw
    refine does_renameInto h.directory rfl h.unsettled rfl ⟨rfl, rfl, hpath⟩ h.record
      (fun i => ?_) fun _ => h.vacant
    refine ⟨⟨_, i, rfl, rfl⟩, List.mem_cons_of_mem _ h.described, ⟨fun j other hmem => ?_,
      fun j hmem => ?_⟩, h.digests⟩
    · exact h.unsettled.1 j other ((List.mem_cons.1 hmem).resolve_left nofun)
    · exact h.unsettled.2 j ((List.mem_cons.1 hmem).resolve_left nofun)
  · refine shows_bind (P := fun _ => Vacant digests) hw.removeEmpty (fun _ u hu => ?_)
      fun _ _ hu => hu
    exact shows_bind (P := fun _ => Vacant digests) hu.complete (fun _ _ ht => shows_pure ht)
      fun _ _ ht => ht

theorem does_moveIntoQuarantine {m : Metadata} {path : Path} (hid : m.quarantineId = id)
    (hpath : objectKeyParts m.objectKey = .ok (path.dropLast ++ [m.originalName]))
    (hd : v.quarantine.directory = some ⟨path.dropLast, none, []⟩)
    (hrecord : v.quarantine.record = some m.objectKey) (h : Vacant digests v) :
    Does sha256 id v (moveIntoQuarantine path m)
      (Ending (Moved digests m) fun _ => Vacant digests) := by
  unfold moveIntoQuarantine
  have hopen : Does sha256 id v (perform (.openQuarantine m.quarantineId path.dropLast))
      fun _ w => w = v := by
    rw [hid]
    exact does_openQuarantine (fun _ _ _ => rfl) (fun _ => rfl) fun _ _ => rfl
  refine shows_bind hopen ?_ fun e w hw => hw ▸ h
  rintro _ w rfl
  have hput : Does sha256 id w (perform (.putMetadata m.quarantineId m))
      (Ending (fun _ => Prepared digests m path) fun _ => Vacant digests) := by
    rw [hid]
    refine does_putMetadata hd ?_ ?_ fun _ => h
    · exact fun hsound => hsound.of_empty (files_eq hd) rfl rfl
    · exact ⟨rfl, List.mem_cons_self, h.unsettled.later rfl, hrecord, h.digests⟩
  refine shows_bind hput (fun _ u hu => ?_) fun e u hu => hu
  have hsync : ∀ t, Prepared digests m path t →
      Does sha256 id t (perform .fsync) fun _ => Prepared digests m path :=
    fun t ht => does_fsync fun _ => ht
  refine shows_bind (hsync u hu) (fun _ t ht => ?_) fun _ t ht => ht.vacant
  exact shows_bind (hsync t ht) (fun _ r hr => hr.rename hid hpath) fun _ r hr => hr.vacant

theorem does_quarantineNamed {m : Metadata} {path : Path} (hid : m.quarantineId = id)
    (hpath : objectKeyParts m.objectKey = .ok (path.dropLast ++ [m.originalName]))
    (hunused : v.quarantine = ⟨none, none, []⟩) :
    Does sha256 id v (quarantineNamed path m) (Ending (Moved v.digests m) fun _ _ => True) := by
  have hvacant : Vacant v.digests v := by
    rw [show v = ⟨⟨none, none, []⟩, v.digests⟩ from hunused ▸ rfl]
    exact ⟨rfl, ⟨fun _ _ => List.not_mem_nil, fun _ => List.not_mem_nil⟩, rfl⟩
  unfold quarantineNamed
  have henqueue : Does sha256 id v (perform (.enqueue m.quarantineId m.objectKey))
      (Ending (fun _ w => Vacant v.digests w ∧ w.quarantine.directory = none ∧
        w.quarantine.record = some m.objectKey) fun _ _ => True) := by
    rw [hid]
    refine does_enqueue hvacant.files ⟨hvacant.of_history hvacant.files rfl rfl, ?_, rfl⟩
      fun _ => ⟨trivial, trivial⟩
    show v.quarantine.directory = none
    rw [hunused]
  refine shows_bind henqueue ?_ fun _ _ _ => trivial
  rintro _ w ⟨hw, hdirectory, hrecord⟩
  have hmkdir : Does sha256 id w (perform (.mkdir m.quarantineId path.dropLast))
      (Ending (fun _ u => Vacant v.digests u ∧
        u.quarantine.directory = some ⟨path.dropLast, none, []⟩ ∧
        u.quarantine.record = some m.objectKey) fun _ => Vacant v.digests) := by
    rw [hid]
    exact does_mkdir hdirectory ⟨hw.of_history rfl rfl rfl, rfl, hrecord⟩ fun _ => hw
  refine shows_bind (does_onError (F := Vacant v.digests) hmkdir fun u hu => ?_) ?_
    fun _ _ _ => trivial
  · rw [hid]
    exact does_bestEffort hu.complete
  rintro _ u ⟨hu, hd, hrecord⟩
  -- an exception before the rename leaves an empty directory; behind it the file stays where it is
  refine shows_bind (does_onError (F := Vacant v.digests)
    (does_moveIntoQuarantine hid hpath hd hrecord hu) fun t ht => ?_) (fun moved t ht => ?_)
    fun _ _ _ => trivial
  · rw [hid]
    exact ht.cleanUp
  cases moved with
  | false => exact shows_pure ht
  | true =>
      have hsync : ∀ r, Moved v.digests m true r →
          Does sha256 id r (perform .fsync) fun _ => Moved v.digests m true :=
        fun r hr => does_fsync fun _ => hr
      refine shows_bind (hsync t ht) (fun _ r hr => ?_) fun _ _ _ => trivial
      exact shows_bind (hsync r hr) (fun _ q hq => shows_pure hq) fun _ _ _ => trivial

theorem find_singleton {d : QuarantineDirectory} {name other : Name} {i j : FileId}
    (hentries : d.entries = [(name, i)]) (h : d.find other = some j) : other = name ∧ j = i := by
  unfold QuarantineDirectory.find at h
  rw [hentries, List.lookup_cons, List.lookup_nil] at h
  by_cases hsame : other = name
  · subst hsame
    rw [beq_self_eq_true] at h
    exact ⟨rfl, (Option.some.inj h).symm⟩
  · rw [beq_eq_false_iff_ne.2 hsame] at h
    cases h

/-- The file gets the name of the candidate, if it does not have it. -/
theorem Holding.isolate {m : Metadata} {name : Name} (h : Holding digests m name v) :
    Does sha256 id v (isolateQuarantineCandidate id name)
      (Ending (fun _ => Holding digests m recoveryCandidate) fun _ _ => True) := by
  obtain ⟨⟨d, i, hd, hentries⟩, hdescribed, hunsettled, hdigests⟩ := h
  unfold isolateQuarantineCandidate
  refine does_onNotFound (P := Ending (fun _ => Holding digests m recoveryCandidate)
    fun e w => e = DeleteError.fileNotFound → w = v) ?_ (fun _ _ hw => hw)
    (fun _ _ _ _ => trivial) ?_
  · refine shows_bind (P := Ending (fun _ => Holding digests m recoveryCandidate)
      fun e w => e = DeleteError.fileNotFound → w = v) ?_ (fun _ _ hw => shows_pure hw)
      fun _ _ hw => hw
    refine does_lstatInside hd (fun j status hj _ => ?_) (fun _ _ => rfl)
      fun e he heq => absurd heq he
    obtain ⟨rfl, rfl⟩ := find_singleton hentries hj
    exact ⟨⟨d, j, hd, hentries⟩, List.mem_cons_of_mem _ hdescribed, hunsettled.later rfl, hdigests⟩
  · intro w hw
    obtain rfl : w = v := hw rfl
    refine does_renameInside hd (fun j hj => ?_) (fun _ => trivial) fun _ _ => trivial
    obtain ⟨-, rfl⟩ := find_singleton hentries hj
    refine ⟨⟨_, j, rfl, ?_⟩, hdescribed, hunsettled, hdigests⟩
    show (recoveryCandidate, j) :: d.entries.filter _ = _
    rw [hentries]
    simp

/-- A file with the expected digest was deleted, and nothing is left of its quarantine. -/
structure Deleted (expected : String) (w : Knowledge) : Prop where
  file : ∃ i, Event.unlinked i ∈ w.quarantine.history ∧ (i, expected) ∈ w.digests
  directory : w.quarantine.directory = none
  record : w.quarantine.record = none

/-- What the result of a delete tells: that a file was deleted, or that none was. -/
def Told (expected : String) (deleted : Bool) (w : Knowledge) : Prop :=
  if deleted then Deleted expected w else Unsettled w.quarantine.history

/-- After the file is gone: its directory and its record go too. -/
theorem does_settle {objectKey expected : String}
    (h : ∃ i, Event.unlinked i ∈ v.quarantine.history ∧ (i, expected) ∈ v.digests) :
    Does sha256 id v (do
      perform .fsync
      removeEmptyQuarantineDirectory id
      perform (.complete id)
      pruneArtifact objectKey
      return true) (Ending (Told expected) fun _ _ => True) := by
  refine shows_bind (P := fun _ r => r = v) (does_fsync fun _ => rfl) ?_ fun _ _ _ => trivial
  rintro _ r rfl
  have hremove : Does sha256 id r (removeEmptyQuarantineDirectory id)
      (Ending (fun _ q => (∃ i, Event.unlinked i ∈ q.quarantine.history ∧
        (i, expected) ∈ q.digests) ∧ q.quarantine.directory = none) fun _ _ => True) := by
    unfold removeEmptyQuarantineDirectory
    refine shows_bind (P := Ending (fun _ q => (∃ i, Event.unlinked i ∈ q.quarantine.history ∧
      (i, expected) ∈ q.digests) ∧ q.quarantine.directory = none) fun _ _ => True)
      (does_rmdir (fun _ => ⟨h, rfl⟩) fun _ => trivial) (fun _ q hq => does_fsync fun r => ?_)
      fun _ _ _ => trivial
    cases r with
    | ok _ => exact hq
    | error _ => trivial
  refine shows_bind hremove ?_ fun _ _ _ => trivial
  rintro _ q ⟨hq, hdirectory⟩
  have hcomplete : Does sha256 id q (perform (.complete id))
      (Ending (fun _ y => Deleted expected y) fun _ _ => True) :=
    does_complete (files_nil hdirectory) ⟨hq, hdirectory, rfl⟩ fun _ => ⟨trivial, trivial⟩
  refine shows_bind hcomplete (fun _ y hy => ?_) fun _ _ _ => trivial
  have hprune : Does sha256 id y (pruneArtifact objectKey) fun _ t => Deleted expected t := by
    unfold pruneArtifact
    split
    · exact does_prune fun _ => hy
    · exact shows_pure hy
  exact shows_bind hprune (fun _ t ht => shows_pure ht) fun _ _ _ => trivial

theorem Holding.delete {input : DeleteInput} (hid : input.quarantineId = id) {m : Metadata}
    {name : Name} {after : FileStatus} (h : Holding digests m name v)
    (hsource : m.source = some after)
    (hdigest : (after.identity, m.expectedSha256) ∈ digests) :
    Does sha256 id v (deleteQuarantined input name after)
      (Ending (Told m.expectedSha256) fun _ _ => True) := by
  unfold deleteQuarantined
  rw [hid]
  refine shows_bind h.isolate (fun _ w hw => ?_) fun _ _ _ => trivial
  obtain ⟨⟨d, i, hd, hentries⟩, hdescribed, hunsettled, hdigests⟩ := hw
  have hfind : d.find recoveryCandidate = some i := by
    unfold QuarantineDirectory.find
    rw [hentries, List.lookup_cons, beq_self_eq_true]
  have hstat : Does sha256 id w (perform (.lstatInside id recoveryCandidate))
      (Ending (fun status u => status.status.identity = i ∧
        u = ⟨w.quarantine.happened (.observed status), w.digests⟩) fun _ _ => True) := by
    refine does_lstatInside hd (fun j status hj hstatus => ⟨?_, rfl⟩) (fun _ => trivial)
      fun _ _ => trivial
    exact hstatus.trans (Option.some.inj (hj.symm.trans hfind))
  refine shows_bind hstat ?_ fun _ _ _ => trivial
  rintro status u ⟨hidentity, rfl⟩
  split
  · next hcheck =>
    rw [Bool.and_eq_true, decide_eq_true_eq] at hcheck
    obtain ⟨hregular, hafter⟩ := hcheck
    have hstatus : status = ⟨true, after⟩ := by
      rw [← hregular, ← hafter]
    -- the status is the one after the hashing, so the digest is that of the isolated file
    have hjustified : Justified w.digests (w.quarantine.happened (.observed status)).history i := by
      refine ⟨m, after, List.mem_cons_of_mem _ hdescribed, hsource, ?_, ?_, ?_⟩
      · rw [← hafter]
        exact hidentity
      · rw [hdigests, ← hidentity, hafter]
        exact hdigest
      · rw [hstatus]
        exact List.mem_cons_self
    have hunlink : Does sha256 id ⟨w.quarantine.happened (.observed status), w.digests⟩
        (perform (.unlinkInside id recoveryCandidate))
        (Ending (fun _ t => ∃ j, Event.unlinked j ∈ t.quarantine.history ∧
          (j, m.expectedSha256) ∈ t.digests) fun _ _ => True) := by
      refine does_unlinkInside hd hfind hjustified ⟨i, List.mem_cons_self, ?_⟩ fun _ => trivial
      rw [hdigests, ← hidentity, hafter]
      exact hdigest
    exact shows_bind hunlink (fun _ t ht => does_settle ht) fun _ _ _ => trivial
  · exact shows_pure (hunsettled.later rfl)

theorem does_openRegular {path : Path} {Q : Except DeleteError FileId → Knowledge → Prop}
    (h : ∀ r, Q r v) : Does sha256 id v (openRegular path) Q := by
  unfold openRegular
  refine shows_bind (P := fun _ w => w = v) (does_openFile fun _ => rfl) ?_
    fun e w hw => hw ▸ h (.error e)
  rintro opened w rfl
  split
  · exact shows_pure (h _)
  · exact shows_raise (h _)

theorem does_requireSameRegular {before after : EntryStatus}
    {Q : Except DeleteError Unit → Knowledge → Prop} (h : ∀ r, Q r v) :
    Does sha256 id v (requireSameRegular before after) Q := by
  unfold requireSameRegular
  split
  · exact shows_pure (h _)
  · exact shows_raise (h _)

theorem does_requireNamedIdentity {path : Path} {expected : FileId}
    {Q : Except DeleteError Unit → Knowledge → Prop} (h : ∀ r, Q r v) :
    Does sha256 id v (requireNamedIdentity path expected) Q := by
  unfold requireNamedIdentity
  refine shows_bind (P := fun _ w => w = v) (does_lstat fun _ => rfl) ?_
    fun e w hw => hw ▸ h (.error e)
  rintro named w rfl
  split
  · exact shows_pure (h _)
  · exact shows_raise (h _)

theorem unsettled_unused (hunused : v.quarantine = ⟨none, none, []⟩) :
    Unsettled v.quarantine.history := by
  rw [hunused]
  exact ⟨fun _ _ => List.not_mem_nil, fun _ => List.not_mem_nil⟩

theorem does_deleteOpened {input : DeleteInput} {path : Path} {descriptor : FileId}
    (hid : input.quarantineId = id) (hpath : objectKeyParts input.objectKey = .ok path)
    (hunused : v.quarantine = ⟨none, none, []⟩) :
    Does sha256 id v (deleteOpened input path descriptor)
      (Ending (Told input.expectedSha256) fun _ _ => True) := by
  have hlast : path.dropLast ++ [path.getLast?.getD []] = path := by
    have hne := (objectKeyParts_safe hpath).1
    rw [List.getLast?_eq_some_getLast hne, Option.getD_some, List.dropLast_append_getLast hne]
  unfold deleteOpened
  refine shows_bind (P := fun _ w => w = v) (does_fstat (fun _ _ => rfl) fun _ => rfl) ?_
    fun _ _ _ => trivial
  rintro before w rfl
  refine shows_bind (P := Ending (fun (digest : String) (u : Knowledge) =>
    u = ⟨w.quarantine, (descriptor, digest) :: w.digests⟩) fun _ _ => True)
    (does_hash (fun _ => rfl) fun _ => trivial) ?_ fun _ _ _ => trivial
  intro digest known hknown
  have hquarantine : known.quarantine = ⟨none, none, []⟩ := by
    rw [show known = _ from hknown]
    exact hunused
  have hdigests : (descriptor, digest) ∈ known.digests := by
    rw [show known = _ from hknown]
    exact List.mem_cons_self
  clear hknown
  refine shows_bind (P := Ending (fun (after : EntryStatus) u =>
    after.status.identity = descriptor ∧ u = known) fun _ _ => True)
    (does_fstat (fun _ hidentity => ⟨hidentity, rfl⟩) fun _ => trivial) ?_ fun _ _ _ => trivial
  rintro after u ⟨hidentity, rfl⟩
  refine shows_bind (P := fun _ t => t = u) (does_requireSameRegular fun _ => rfl) ?_
    fun _ _ _ => trivial
  rintro _ t rfl
  refine shows_bind (P := fun _ r => r = t) (does_requireNamedIdentity fun _ => rfl) ?_
    fun _ _ _ => trivial
  rintro _ r rfl
  split
  · exact shows_pure (unsettled_unused hquarantine)
  · next hdigest =>
    rw [ne_eq, Decidable.not_not] at hdigest
    refine shows_bind (P := fun _ q => q = r) (does_clock fun _ => rfl) ?_ fun _ _ _ => trivial
    rintro now q rfl
    refine shows_bind (does_quarantineNamed (m := deletionMetadata input (path.getLast?.getD []) now
      after.status) hid (hpath.trans (congrArg _ hlast.symm)) hquarantine) (fun moved y hy => ?_)
      fun _ _ _ => trivial
    cases moved with
    | false => exact shows_pure hy.unsettled
    | true =>
        refine Holding.delete hid hy rfl ?_
        rw [hidentity]
        show (descriptor, input.expectedSha256) ∈ q.digests
        rw [← hdigest]
        exact hdigests

/-- The triple of a delete whose UUID is new. -/
theorem does_deleteIfOwned {input : DeleteInput} (hid : input.quarantineId = id)
    (hunused : v.quarantine = ⟨none, none, []⟩) :
    Does sha256 id v (deleteIfOwned input)
      (Ending (Told input.expectedSha256) fun _ _ => True) := by
  unfold deleteIfOwned
  split
  · unfold deleteIfOwnedLocked
    split
    · exact shows_raise trivial
    · next path hpath =>
      refine shows_bind (P := Ending (fun _ w => w = v) fun _ _ => True)
        (does_onNotFound (P := fun _ w => w = v) ?_ (fun _ _ hw => hw) (fun _ _ _ _ => trivial)
          fun w hw => shows_pure hw) ?_ fun _ _ _ => trivial
      · refine shows_bind (P := fun _ w => w = v) (does_openParent fun _ => rfl) ?_
          fun _ _ hw => hw
        rintro _ w rfl
        refine shows_bind (P := fun _ u => u = w) (does_openRegular fun _ => rfl) ?_
          fun _ _ hw => hw
        rintro descriptor u rfl
        exact shows_pure rfl
      · rintro found w rfl
        cases found with
        | none => exact shows_pure (unsettled_unused hunused)
        | some descriptor => exact does_deleteOpened hid hpath hunused
  · exact shows_pure (unsettled_unused hunused)

end Delete

/-! ## `_recover_queued_quarantine` -/

section Recover

variable {sha256 : List UInt8 → String} {id : Uuid} {v : Knowledge} {m : Metadata}

/-- The directory has this metadata. -/
def Labelled (m : Metadata) (w : Knowledge) : Prop :=
  ∃ d, w.quarantine.directory = some d ∧ d.metadata = some m

/-- A quarantine that a sweep is done with has no file. -/
def Emptied (outcome : Outcome) (w : Knowledge) : Prop :=
  outcome = .done → w.quarantine.files = []

theorem Labelled.isolate (h : Labelled m v) (name : Name) :
    Does sha256 id v (isolateQuarantineCandidate id name) fun _ => Labelled m := by
  obtain ⟨d, hd, hm⟩ := h
  unfold isolateQuarantineCandidate
  refine does_onNotFound (P := Ending (fun _ => Labelled m) fun _ w => w = v) ?_
    (fun _ _ hw => hw) (fun _ w _ (hw : w = v) => hw ▸ ⟨d, hd, hm⟩) ?_
  · refine shows_bind (P := Ending (fun _ => Labelled m) fun _ w => w = v) ?_
      (fun _ _ hw => shows_pure hw) fun _ _ hw => hw
    exact does_lstatInside hd (fun _ _ _ _ => ⟨d, hd, hm⟩) (fun _ => rfl) fun _ _ => rfl
  · rintro w rfl
    exact does_renameInside hd (fun _ _ => ⟨_, rfl, hm⟩) (fun _ => ⟨d, hd, hm⟩)
      fun _ _ => ⟨d, hd, hm⟩

theorem Labelled.hold {outcome : QuarantineOutcome} (h : Labelled m v) :
    Does sha256 id v (holdQuarantine id m outcome) (Ending Emptied fun _ _ => True) := by
  obtain ⟨d, hd, hm⟩ := h
  unfold holdQuarantine
  have hput : Does sha256 id v (perform (.putMetadata id (m.withOutcome outcome)))
      fun _ _ => True :=
    does_putMetadata hd (fun hsound => hsound.redescribed hd hm rfl rfl rfl) trivial
      fun _ => trivial
  refine shows_bind hput (fun _ w _ => ?_) fun _ _ _ => trivial
  exact shows_bind (P := fun _ _ => True) (does_fsync fun _ => trivial)
    (fun _ _ _ => shows_pure nofun) fun _ _ _ => trivial

/-- The end of both branches that are done with a quarantine. -/
theorem does_dispose {objectKey : String} {path : Path} :
    Does sha256 id v (do
      perform (.rmdir id)
      perform .fsync
      pruneQuarantine objectKey path
      return Outcome.done) (Ending Emptied fun _ _ => True) := by
  have hrmdir : Does sha256 id v (perform (.rmdir id))
      (Ending (fun _ w => w.quarantine.files = []) fun _ _ => True) :=
    does_rmdir (fun _ => rfl) fun _ => trivial
  refine shows_bind hrmdir (fun _ w hw => ?_) fun _ _ _ => trivial
  refine shows_bind (P := fun _ u => u = w) (does_fsync fun _ => rfl) ?_ fun _ _ _ => trivial
  rintro _ u rfl
  have hprune : Does sha256 id u (pruneQuarantine objectKey path) fun _ t => t = u := by
    unfold pruneQuarantine
    split
    · exact does_prune fun _ => rfl
    · split
      · split
        · exact does_prune fun _ => rfl
        · exact shows_pure rfl
      · exact shows_pure rfl
  refine shows_bind hprune ?_ fun _ _ _ => trivial
  rintro _ t rfl
  exact shows_pure fun _ => hw

theorem Labelled.restore {path : Path} {candidate : EntryStatus} {i : FileId}
    (h : Labelled m v) (hfind : ∀ d, v.quarantine.directory = some d →
      d.find recoveryCandidate = some i) :
    Does sha256 id v (restoreCandidate id path m candidate) (Ending Emptied fun _ _ => True) := by
  unfold restoreCandidate
  split
  · exact h.hold
  · split
    · obtain ⟨d, hd, hm⟩ := h
      have hattempt : Does sha256 id v
          (Program.attempt (perform (.renameOut id recoveryCandidate path)))
          (Ending (fun x w => ∀ e, x = .error e → w = v) fun _ _ => True) :=
        shows_attempt (does_renameOut hd (hfind d hd) (fun _ _ => nofun) fun _ _ _ => rfl)
      refine shows_bind hattempt (fun x w hw => ?_) fun _ _ _ => trivial
      split
      · obtain rfl := hw _ rfl
        exact Labelled.hold ⟨d, hd, hm⟩
      · exact shows_raise trivial
      · refine shows_bind (P := fun _ _ => True) (does_fsync fun _ => trivial) (fun _ _ _ => ?_)
          fun _ _ _ => trivial
        exact shows_bind (P := fun _ _ => True) (does_fsync fun _ => trivial)
          (fun _ _ _ => does_dispose) fun _ _ _ => trivial
    · exact h.hold

theorem does_removeEmptyQuarantine {path : Path} :
    Does sha256 id v (removeEmptyQuarantine id path m) (Ending Emptied fun _ _ => True) := by
  unfold removeEmptyQuarantine
  refine shows_bind (P := fun _ _ => True) (does_isEmpty fun _ => trivial) (fun empty w _ => ?_)
    fun _ _ _ => trivial
  cases empty with
  | true => exact does_dispose
  | false => exact shows_pure nofun

/-- A candidate was seen in the directory of the metadata. -/
def Seen (m : Metadata) (candidate : Option EntryStatus) (w : Knowledge) : Prop :=
  candidate.isSome = true → Labelled m w ∧ ∃ i, ∀ d, w.quarantine.directory = some d →
    d.find recoveryCandidate = some i

theorem Labelled.recoverCandidate {path : Path} (h : Labelled m v) :
    Does sha256 id v (recoverCandidate id path m) (Ending Emptied fun _ _ => True) := by
  have hsee : Does sha256 id v (do
      isolateQuarantineCandidate id m.originalName
      let status : EntryStatus ← perform (.lstatInside id recoveryCandidate)
      return some status) (Ending (Seen m) fun _ _ => True) := by
    refine shows_bind (h.isolate m.originalName) (fun _ w hw => ?_) fun _ _ _ => trivial
    obtain ⟨d, hd, hm⟩ := hw
    refine shows_bind (P := Ending (fun (status : EntryStatus) => Seen m (some status))
      fun _ _ => True) ?_ (fun _ _ hu => shows_pure hu) fun _ _ _ => trivial
    refine does_lstatInside hd (fun i status hfind _ _ => ⟨⟨d, hd, hm⟩, i, fun d' hd' => ?_⟩)
      (fun _ => trivial) fun _ _ => trivial
    cases hd.symm.trans hd'
    exact hfind
  unfold OwnedDelete.recoverCandidate
  refine shows_bind (P := Ending (Seen m) fun _ _ => True) ?_ (fun candidate w hw => ?_)
    fun _ _ _ => trivial
  · exact does_onNotFound hsee (fun _ _ hw => hw) (fun _ _ _ _ => trivial)
      fun w _ => shows_pure nofun
  · cases candidate with
    | none => exact does_removeEmptyQuarantine
    | some status =>
        obtain ⟨hlabelled, i, hfind⟩ := hw rfl
        exact hlabelled.restore hfind

theorem does_recoverDescribed {sweep : RecoverInput} {objectKey : String} {path : Path}
    {metadata : Option Metadata} (h : ∀ m, metadata = some m → Labelled m v) :
    Does sha256 id v (recoverDescribed sweep id objectKey path metadata)
      (Ending Emptied fun _ _ => True) := by
  unfold recoverDescribed
  split
  · exact shows_pure nofun
  · next m =>
    split
    · exact shows_pure nofun
    · split
      · exact shows_pure nofun
      · split
        · exact shows_pure nofun
        · split
          · exact shows_pure nofun
          · exact (h m rfl).recoverCandidate

/-- A quarantine whose directory is not beside the name in its record holds no file. -/
theorem Sound.files_of_missing {z : Quarantine} {digests : List (FileId × String)}
    {objectKey : String} {path : Path} (h : Sound digests id z)
    (hrecord : z.record = some objectKey) (hpath : objectKeyParts objectKey = .ok path)
    (hmissing : ∀ d, z.directory = some d → d.parent ≠ path.dropLast) : z.files = [] := by
  rw [List.eq_nil_iff_forall_not_mem]
  intro file hfile
  obtain ⟨-, d, m, objectKey', hd, -, hdescribes, -, hrecord'⟩ := h.reached file hfile
  obtain rfl := Option.some.inj (hrecord.symm.trans hrecord')
  refine hmissing d hd ?_
  rw [Except.ok.inj (hpath.symm.trans hdescribes.path), List.dropLast_concat]

theorem does_of_sound {α : Type} {p : DeleteProgram α} {Q : Except DeleteError α → Knowledge → Prop}
    (h : Sound v.digests id v.quarantine → Does sha256 id v p Q) : Does sha256 id v p Q :=
  fun s hs => h hs.sound s hs

/-- What opening the directory comes to. -/
def Located (found : Bool) (w : Knowledge) : Prop :=
  if found then ∃ d, w.quarantine.directory = some d else w.quarantine.files = []

theorem does_locate {objectKey : String} {path : Path}
    (hrecord : v.quarantine.record = some objectKey) (hpath : objectKeyParts objectKey = .ok path) :
    Does sha256 id v (onNotFound
      (do
        perform (.openQuarantine id path.dropLast)
        return true)
      (return false)) (Ending (fun found w => w = v ∧ Located found v) fun _ _ => True) := by
  refine does_of_sound fun hsound => ?_
  have hopen : Does sha256 id v (perform (.openQuarantine id path.dropLast))
      (Ending (fun _ w => w = v ∧ Located true v)
        fun e w => e = DeleteError.fileNotFound → w = v ∧ Located false v) :=
    -- the directory of a quarantine with a file is beside the name of the record
    does_openQuarantine (fun d hd _ => ⟨rfl, d, hd⟩)
      (fun hmissing _ => ⟨rfl, hsound.files_of_missing hrecord hpath hmissing⟩)
      fun e he heq => absurd heq he
  refine does_onNotFound (P := Ending (fun found w => w = v ∧ Located found v)
    fun e w => e = DeleteError.fileNotFound → w = v ∧ Located false v) ?_ (fun _ _ hw => hw)
    (fun _ _ _ _ => trivial) fun w hw => shows_pure (hw rfl)
  exact shows_bind hopen (fun _ w hw => shows_pure hw) fun _ _ hw => hw

theorem does_recoverQueuedQuarantine {sweep : RecoverInput} {objectKey : String}
    (hrecord : v.quarantine.record = some objectKey) :
    Does sha256 id v (recoverQueuedQuarantine sweep id objectKey)
      (Ending Emptied fun _ _ => True) := by
  unfold recoverQueuedQuarantine
  split
  · exact shows_pure nofun
  · next path hpath =>
    refine shows_bind (P := Ending (fun (_ : Bool) w => w = v) fun _ _ => True) ?_ ?_
      fun _ _ _ => trivial
    · refine does_onNotFound (P := fun _ w => w = v) ?_ (fun _ _ hw => hw) (fun _ _ _ _ => trivial)
        fun w hw => shows_pure hw
      exact shows_bind (P := fun _ w => w = v) (does_openParent fun _ => rfl)
        (fun _ w hw => shows_pure hw) fun _ _ hw => hw
    rintro parent w rfl
    split
    · exact shows_pure nofun
    refine shows_bind (does_locate hrecord hpath) ?_ fun _ _ _ => trivial
    rintro found u ⟨rfl, hlocated⟩
    split
    · next hfound =>
      refine shows_pure fun _ => ?_
      rw [Bool.not_eq_true'] at hfound
      subst hfound
      exact hlocated
    · next hfound =>
      rw [Bool.not_eq_true', Bool.not_eq_false] at hfound
      subst hfound
      obtain ⟨d, hd⟩ := hlocated
      have hread : Does sha256 id u (Program.attempt (perform (.getMetadata id)))
          (Ending (fun x w => w = u ∧ ∀ metadata, x = .ok metadata → metadata = d.metadata)
            fun _ _ => True) :=
        shows_attempt (does_getMetadata hd ⟨rfl, fun _ hx => (Except.ok.inj hx).symm⟩
          fun _ => ⟨rfl, nofun⟩)
      refine shows_bind hread ?_ fun _ _ _ => trivial
      rintro read w ⟨rfl, hmetadata⟩
      split
      · exact shows_pure nofun
      · next metadata =>
        refine does_recoverDescribed fun m hm => ⟨d, hd, ?_⟩
        rw [← hmetadata metadata rfl, hm]

/-- The record goes only with the last file. -/
theorem does_processQuarantine {sweep : RecoverInput} {objectKey : String}
    (hrecord : v.quarantine.record = some objectKey) :
    Does sha256 id v (processQuarantine sweep id objectKey) fun _ _ => True := by
  unfold processQuarantine
  refine shows_bind (does_recoverQueuedQuarantine hrecord) (fun outcome w hw => ?_)
    fun _ _ _ => trivial
  cases outcome with
  | done => exact does_complete (hw rfl) trivial fun _ => ⟨trivial, trivial⟩
  | deferred => exact does_move fun _ => trivial
  | held => exact does_move fun _ => trivial

end Recover

/-! ## A sweep that nothing disturbs -/

section Execution

variable {sha256 : List UInt8 → String} {s t : Tree} {id : Uuid} {α : Type}

@[simp] theorem Tree.set_quarantines (s : Tree) (id : Uuid) (z : Quarantine) :
    (s.set id z).quarantines id = z := Function.update_self ..

@[simp] theorem Tree.set_set (s : Tree) (id : Uuid) (z z' : Quarantine) :
    (s.set id z).set id z' = s.set id z' := by
  unfold Tree.set
  rw [Function.update_idem]

@[simp] theorem Tree.set_files (s : Tree) (id : Uuid) (z : Quarantine) :
    (s.set id z).files = s.files := rfl

@[simp] theorem Tree.set_status (s : Tree) (id : Uuid) (z : Quarantine) (i : FileId) :
    (s.set id z).status i = s.status i := rfl

theorem exec_perform (call : DeleteCall) (s : Tree) :
    Program.exec (answer sha256) (perform call) s = answer sha256 s call := Program.exec_op ..

theorem exec_then {p : DeleteProgram α} {β : Type} {f : α → DeleteProgram β} {a : α}
    (h : Program.exec (answer sha256) p s = (.ok a, t)) :
    Program.exec (answer sha256) (p >>= f) s = Program.exec (answer sha256) (f a) t := by
  rw [Program.exec_bind, h]

theorem exec_onNotFound {p h : DeleteProgram α} {a : α}
    (hp : Program.exec (answer sha256) p s = (.ok a, t)) :
    Program.exec (answer sha256) (onNotFound p h) s = (.ok a, t) := by
  unfold onNotFound
  rw [Program.exec_handle, hp]

theorem exec_onNotFound_missing {p h : DeleteProgram α}
    (hp : Program.exec (answer sha256) p s = (.error .fileNotFound, t)) :
    Program.exec (answer sha256) (onNotFound p h) s = Program.exec (answer sha256) h t := by
  unfold onNotFound
  rw [Program.exec_handle, hp]
  rfl

variable {d : QuarantineDirectory} {m : Metadata} {i : FileId} {name : Name}

theorem find_self {d : QuarantineDirectory} (h : d.entries = [(name, i)]) :
    d.find name = some i := by
  unfold QuarantineDirectory.find
  rw [h, List.lookup_cons, beq_self_eq_true]

theorem find_other {d : QuarantineDirectory} {other : Name} (h : d.entries = [(name, i)])
    (hne : other ≠ name) : d.find other = none := by
  unfold QuarantineDirectory.find
  rw [h, List.lookup_cons, beq_eq_false_iff_ne.2 hne, List.lookup_nil]

variable (sha256) in
/-- The only file of the directory gets the name of the candidate. -/
theorem exec_isolate (hd : (s.quarantines id).directory = some d)
    (hentries : d.entries = [(name, i)])
    (hname : name = m.originalName ∨ name = recoveryCandidate) :
    ∃ z, Program.exec (answer sha256) (isolateQuarantineCandidate id m.originalName) s =
      (.ok (), s.set id z) ∧ z.record = (s.quarantines id).record ∧
      z.directory = some { d with entries := [(recoveryCandidate, i)] } := by
  unfold isolateQuarantineCandidate
  -- an earlier attempt may have renamed the file
  by_cases hcandidate : name = recoveryCandidate
  · subst hcandidate
    refine ⟨(s.quarantines id).happened (.observed (s.status i)), exec_onNotFound ?_, rfl, ?_⟩
    · rw [Program.exec_bind, exec_perform]
      simp only [answer, hd, Option.bind_some, find_self hentries]
      rfl
    · rw [← hentries]
      exact hd
  · obtain rfl := hname.resolve_right hcandidate
    refine ⟨(s.quarantines id).withDirectory
      (some ((d.erase m.originalName).insert recoveryCandidate i)), ?_, rfl, ?_⟩
    · rw [exec_onNotFound_missing (t := s), exec_perform]
      · simp only [answer, hd, find_self hentries, find_other hentries (Ne.symm hcandidate)]
      · rw [Program.exec_bind, exec_perform]
        simp only [answer, hd, Option.bind_some, find_other hentries (Ne.symm hcandidate)]
    · show some { d with entries := (recoveryCandidate, i) :: d.entries.filter _ } = _
      rw [hentries]
      simp

/-- A file goes back under its name. -/
def Tree.PutBack (s t : Tree) (id : Uuid) (path : Path) (i : FileId) : Prop :=
  t.files = s.files.setEntry path (some i) ∧ (t.quarantines id).directory = none ∧
    (t.quarantines id).record = none

/-- A file stays in its quarantine, which its metadata marks as a conflict. -/
def Tree.Conflicting (s t : Tree) (id : Uuid) (m : Metadata) (i : FileId) : Prop :=
  t.files = s.files ∧ (t.quarantines id).files = [(recoveryCandidate, i)] ∧
    (t.quarantines id).record = (s.quarantines id).record ∧
    ∃ d, (t.quarantines id).directory = some d ∧ d.metadata = some (m.withOutcome .conflict)

theorem exec_fsync (s : Tree) :
    Program.exec (answer sha256) (perform .fsync) s = (.ok (), s) := exec_perform ..

theorem exec_prune {artifact : Uuid × Option Uuid} (s : Tree) :
    Program.exec (answer sha256) (perform (.prune artifact)) s = (.ok (), s) := exec_perform ..

theorem exec_pruneQuarantine {objectKey : String} {path : Path} (s : Tree) :
    Program.exec (answer sha256) (pruneQuarantine objectKey path) s = (.ok (), s) := by
  unfold pruneQuarantine
  split
  · exact exec_prune s
  · split
    · split
      · exact exec_prune s
      · rfl
    · rfl

theorem exec_hold (hd : (s.quarantines id).directory = some d)
    (hentries : d.entries = [(recoveryCandidate, i)]) :
    ∃ t, Program.exec (answer sha256) (holdQuarantine id m .conflict) s = (.ok .held, t) ∧
      s.Conflicting t id m i := by
  have hput : Program.exec (answer sha256) (perform (.putMetadata id (m.withOutcome .conflict))) s =
      (.ok (), s.set id (((s.quarantines id).withDirectory
        (some { d with metadata := some (m.withOutcome .conflict) })).happened
          (.described (m.withOutcome .conflict)))) := by
    rw [exec_perform]
    simp only [answer, hd]
  unfold holdQuarantine
  refine ⟨_, (exec_then hput).trans (exec_then (exec_fsync _)), rfl, ?_, ?_, ?_⟩
  · rw [Tree.set_quarantines]
    exact hentries
  · rw [Tree.set_quarantines]
    rfl
  · rw [Tree.set_quarantines]
    exact ⟨_, rfl, rfl⟩

theorem exec_rmdir (hd : (s.quarantines id).directory = some d) (hentries : d.entries = []) :
    Program.exec (answer sha256) (perform (.rmdir id)) s =
      (.ok (), s.set id ((s.quarantines id).withDirectory none)) := by
  rw [exec_perform]
  simp only [answer, hd, hentries, List.isEmpty_nil, if_true]

theorem erase_self (hentries : d.entries = [(name, i)]) : (d.erase name).entries = [] := by
  show d.entries.filter _ = []
  rw [hentries]
  simp

/-- The rename out of the directory, and what it comes to under a free name. -/
theorem exec_renameOut_free {path : Path} (hd : (s.quarantines id).directory = some d)
    (hentries : d.entries = [(name, i)]) (hfree : s.files.entries path = none) :
    Program.exec (answer sha256) (Program.attempt (perform (.renameOut id name path))) s =
      (.ok (.ok ()), (s.setEntry path (some i)).set id
        (((s.quarantines id).withDirectory (some (d.erase name))).happened
          (.restored i path))) := by
  rw [Program.exec_attempt, exec_perform]
  simp only [answer, hd, find_self hentries, hfree]

theorem exec_renameOut_taken {path : Path} (hd : (s.quarantines id).directory = some d)
    (hentries : d.entries = [(name, i)]) (htaken : s.files.entries path ≠ none) :
    Program.exec (answer sha256) (Program.attempt (perform (.renameOut id name path))) s =
      (.ok (.error .fileExists), s) := by
  obtain ⟨j, hj⟩ := Option.ne_none_iff_exists'.1 htaken
  rw [Program.exec_attempt, exec_perform]
  simp only [answer, hd, find_self hentries, hj]

variable (sha256) in
/-- The file of the metadata goes back under a free name; any other file stays. -/
theorem exec_restore (path : Path) (candidate : EntryStatus) {source : FileStatus}
    (hd : (s.quarantines id).directory = some d) (hentries : d.entries = [(recoveryCandidate, i)])
    (hsource : m.source = some source) :
    if candidate = ⟨true, source⟩ ∧ s.files.entries path = none then
      ∃ t, Program.exec (answer sha256) (restoreCandidate id path m candidate) s = (.ok .done, t) ∧
        t.files = s.files.setEntry path (some i) ∧ (t.quarantines id).directory = none
    else ∃ t, Program.exec (answer sha256) (restoreCandidate id path m candidate) s =
      (.ok .held, t) ∧ s.Conflicting t id m i := by
  unfold restoreCandidate
  rw [hsource]
  dsimp only
  obtain ⟨regular, status⟩ := candidate
  by_cases hsame : (regular && decide (status = source)) = true
  · rw [if_pos hsame]
    rw [Bool.and_eq_true, decide_eq_true_eq] at hsame
    obtain ⟨rfl, rfl⟩ := hsame
    by_cases hfree : s.files.entries path = none
    · rw [if_pos ⟨rfl, hfree⟩, exec_then (exec_renameOut_free hd hentries hfree)]
      dsimp only
      rw [exec_then (exec_fsync _), exec_then (exec_fsync _), exec_then (exec_rmdir
        (d := d.erase recoveryCandidate) (by rw [Tree.set_quarantines]; rfl) (erase_self hentries)),
        exec_then (exec_fsync _), exec_then (exec_pruneQuarantine _)]
      refine ⟨_, rfl, rfl, ?_⟩
      rw [Tree.set_quarantines]
      rfl
    · rw [if_neg fun h => hfree h.2, exec_then (exec_renameOut_taken hd hentries hfree)]
      exact exec_hold hd hentries
  · rw [if_neg hsame, if_neg]
    · exact exec_hold hd hentries
    · rintro ⟨heq, -⟩
      cases heq
      exact hsame (by simp)

/-- The metadata lets a sweep touch the quarantine. -/
structure Due (sweep : RecoverInput) (m : Metadata) (source : FileStatus) : Prop where
  described : m.source = some source
  mtime : 0 ≤ source.mtime
  outcome : m.outcome = none ∨ m.outcome = some .deferred
  age : m.createdAt ≤ sweep.cutoff
  unprotected : sweep.protects m = false

variable (sha256) in
theorem exec_recoverCandidate (path : Path) {source : FileStatus}
    (hd : (s.quarantines id).directory = some d) (hentries : d.entries = [(name, i)])
    (hname : name = m.originalName ∨ name = recoveryCandidate) (hsource : m.source = some source) :
    if s.status i = ⟨true, source⟩ ∧ s.files.entries path = none then
      ∃ t, Program.exec (answer sha256) (recoverCandidate id path m) s = (.ok .done, t) ∧
        t.files = s.files.setEntry path (some i) ∧ (t.quarantines id).directory = none
    else ∃ t, Program.exec (answer sha256) (recoverCandidate id path m) s = (.ok .held, t) ∧
      s.Conflicting t id m i := by
  obtain ⟨z, hisolate, hrecord, hdirectory⟩ := exec_isolate sha256 hd hentries hname
  have hsee : Program.exec (answer sha256) (do
      isolateQuarantineCandidate id m.originalName
      let status : EntryStatus ← perform (.lstatInside id recoveryCandidate)
      return some status) s =
        (.ok (some (s.status i)), s.set id (z.happened (.observed (s.status i)))) := by
    rw [exec_then hisolate, Program.exec_bind, exec_perform]
    simp only [answer, Tree.set_quarantines, hdirectory, Option.bind_some, Tree.set_status,
      Tree.set_set, find_self (d := { d with entries := [(recoveryCandidate, i)] }) rfl]
    rfl
  unfold OwnedDelete.recoverCandidate
  rw [exec_then (exec_onNotFound hsee)]
  dsimp only
  have hnow : ((s.set id (z.happened (.observed (s.status i)))).quarantines id).directory =
      some { d with entries := [(recoveryCandidate, i)] } := by
    rw [Tree.set_quarantines]
    exact hdirectory
  have hrestore := exec_restore sha256 path (s.status i) hnow rfl hsource
  rw [Tree.set_files] at hrestore
  split at hrestore
  · next hback =>
    rw [if_pos hback]
    exact hrestore
  · next hback =>
    obtain ⟨t, hexec, hfiles, hheld, hkept, hconflict⟩ := hrestore
    rw [if_neg hback]
    refine ⟨t, hexec, hfiles, hheld, hkept.trans ?_, hconflict⟩
    rw [Tree.set_quarantines]
    exact hrecord

theorem recoverDescribed_due {sweep : RecoverInput} {path : Path} {source : FileStatus}
    (hdue : Due sweep m source) :
    recoverDescribed sweep id m.objectKey path (some m) = recoverCandidate id path m := by
  have houtcome : ¬(m.outcome = some .conflict ∨ m.outcome = some .invalid ∨
      m.outcome = some .held) := by
    rcases hdue.outcome with h | h <;> simp [h]
  have hage : ¬sweep.cutoff < m.createdAt := Int.not_lt.2 hdue.age
  unfold recoverDescribed
  dsimp only
  rw [if_neg (fun h => h rfl), if_neg houtcome, if_neg hage, hdue.unprotected]
  rfl

theorem exec_recoverQueuedQuarantine {sweep : RecoverInput} {path : Path} {source : FileStatus}
    (hd : (s.quarantines id).directory = some d) (hm : d.metadata = some m)
    (hdue : Due sweep m source) (hpath : objectKeyParts m.objectKey = .ok path)
    (hparent : d.parent = path.dropLast) :
    Program.exec (answer sha256) (recoverQueuedQuarantine sweep id m.objectKey) s =
      Program.exec (answer sha256) (recoverCandidate id path m) s := by
  have hparents : Program.exec (answer sha256) (onNotFound
      (do
        perform (.openParent path.dropLast)
        return true)
      (return false)) s = (.ok true, s) :=
    exec_onNotFound ((exec_then (exec_perform ..)).trans rfl)
  have hopen : Program.exec (answer sha256) (onNotFound
      (do
        perform (.openQuarantine id path.dropLast)
        return true)
      (return false)) s = (.ok true, s) := by
    refine exec_onNotFound ((exec_then (a := ()) (t := s) ?_).trans rfl)
    rw [exec_perform]
    simp only [answer, hd, hparent, if_true]
  have hread : Program.exec (answer sha256) (Program.attempt (perform (.getMetadata id))) s =
      (.ok (.ok (some m)), s) := by
    have hreadable : m.readable = true := by
      unfold Metadata.readable
      rw [hdue.described]
      exact decide_eq_true hdue.mtime
    rw [Program.exec_attempt, exec_perform]
    simp only [answer, hd, hm, Option.all_some, hreadable, if_true]
  unfold recoverQueuedQuarantine
  rw [hpath]
  dsimp only
  rw [exec_then hparents]
  rw [Bool.not_true, if_neg Bool.false_ne_true, exec_then hopen]
  rw [Bool.not_true, if_neg Bool.false_ne_true, exec_then hread]
  dsimp only
  rw [recoverDescribed_due hdue]

end Execution

/-! ## Runs -/

section Runs

variable {sha256 : List UInt8 → String} {s t : Tree} {a : QuarantineAction}

theorem looks_of_allSound (h : ∀ id, Sound s.digests id (s.quarantines id)) (id : Uuid) :
    Looks id ⟨s.quarantines id, s.digests⟩ s :=
  ⟨rfl, fun _ hx => hx, h id, fun other _ => h other⟩

theorem allSound_step (h : ∀ id, Sound s.digests id (s.quarantines id))
    (hstep : (quarantineSystem sha256).step s a t) :
    ∀ id, Sound t.digests id (t.quarantines id) := by
  cases a with
  | delete input =>
      obtain ⟨hunused, hstop⟩ := hstep
      exact (does_deleteIfOwned rfl hunused).stops (looks_of_allSound h input.quarantineId) hstop
        (fun _ _ hu => hu) fun _ _ hu => hu.allSound
  | recover sweep id =>
      obtain ⟨objectKey, hrecord, hstop⟩ := hstep
      exact (does_processQuarantine hrecord).stops (looks_of_allSound h id) hstop
        (fun _ _ hu => hu) fun _ _ hu => hu.allSound
  | others =>
      have hd : Disturbs s t := hstep
      rw [hd.quarantines, hd.digests]
      exact h

theorem allSound_init (h : (quarantineSystem sha256).init s) :
    ∀ id, Sound s.digests id (s.quarantines id) := by
  intro id
  rw [h.1 id]
  exact sound_unused

theorem allSound_reachable (h : (quarantineSystem sha256).Reachable System.Any s) :
    ∀ id, Sound s.digests id (s.quarantines id) :=
  h.invariant (fun _ => allSound_init) fun _ _ _ hs _ => allSound_step hs

/-- An undisturbed call. -/
theorem Answers.of_answered {call : DeleteCall} {r : Except DeleteError call.Answer}
    (h : Program.Answered (answer sha256) s call r t) : Answers sha256 s call r t := by
  obtain rfl : (answer sha256 s call).1 = r := congrArg Prod.fst h
  obtain rfl : (answer sha256 s call).2 = t := congrArg Prod.snd h
  exact .answered (.refl s)

/-! ### A delete of an empty file -/

/-- The digest of the empty file. -/
def emptyDigest : String := "e3b0c44298fc1c149afbf4c8996fb92427ae41e4649b934ca495991b7852b855"

def emptyFileOnly : List UInt8 → String := fun _ => emptyDigest

def samplePath : Path := ["logs".toList, "a".toList]

def sampleDelete : DeleteInput where
  objectKey := "logs/a"
  expectedSha256 := emptyDigest
  quarantineId := "00000000-0000-4000-8000-000000000001"

/-- One empty file, and no quarantine. -/
def sampleTree : Tree where
  files := ⟨fun path => if path = samplePath then some (1, 7) else none, fun _ => ⟨[], 5, none⟩⟩
  regular _ := true
  quarantines _ := ⟨none, none, []⟩
  clock := 100
  digests := []

/-- The metadata that the delete stores. -/
def sampleMetadata : Metadata := deletionMetadata sampleDelete "a".toList 100 ⟨(1, 7), 0, 5⟩

/-- The delete stops behind its rename. -/
def interruptedTree : Tree :=
  Program.stopAfter (answer emptyFileOnly) 14 (deleteIfOwned sampleDelete) sampleTree

theorem sampleTree_reachable : (quarantineSystem emptyFileOnly).Reachable System.Any sampleTree :=
  System.Reachable.of_init ⟨fun _ => rfl, rfl⟩

theorem interruptedTree_reachable :
    (quarantineSystem emptyFileOnly).Reachable System.Any interruptedTree :=
  sampleTree_reachable.step (a := .delete sampleDelete) trivial
    ⟨rfl, (Program.stopAfter_stops _ 14 _ _).mono fun _ _ _ _ => Answers.of_answered⟩

theorem interruptedTree_directory :
    (interruptedTree.quarantines sampleDelete.quarantineId).directory = some
      ⟨["logs".toList], some sampleMetadata, [("a".toList, (1, 7))]⟩ := by
  decide +kernel

/-- In every state of every run each quarantine is sound: a file in it is described and reached by a
live record, a file that was moved into it is there or was put back or deleted, and a file that was
deleted is the one that was hashed. -/
theorem quarantined_files_accounted (h : (quarantineSystem sha256).Reachable System.Any s)
    (id : Uuid) : Sound s.digests id (s.quarantines id) :=
  allSound_reachable h id

/-- The file of an interrupted delete is in its quarantine. -/
theorem quarantined_files_accounted_interrupted :
    (interruptedTree.quarantines sampleDelete.quarantineId).files = [("a".toList, (1, 7))] ∧
      Sound interruptedTree.digests sampleDelete.quarantineId
        (interruptedTree.quarantines sampleDelete.quarantineId) :=
  ⟨files_eq interruptedTree_directory, quarantined_files_accounted interruptedTree_reachable _⟩

/-- What `delete_if_owned` returns can be relied on, whatever calls failed on the way: after `True`
a file with the expected digest is deleted and nothing is left of its quarantine; after `False`
nothing is deleted, and a file that was moved is still in its quarantine, for a sweep to put
back. -/
theorem delete_result {input : DeleteInput} {deleted : Bool}
    (h : (quarantineSystem sha256).Reachable System.Any s)
    (hunused : s.quarantines input.quarantineId = ⟨none, none, []⟩)
    (hrun : Program.Run (Answers sha256) (deleteIfOwned input) s (.ok deleted) t) :
    let z := t.quarantines input.quarantineId
    if deleted then (∃ i, Event.unlinked i ∈ z.history ∧ (i, input.expectedSha256) ∈ t.digests) ∧
      z.directory = none ∧ z.record = none
    else ∀ i, Event.unlinked i ∉ z.history ∧ (Event.quarantined i ∈ z.history →
      ∃ name, (name, i) ∈ z.files ∧ Reached input.quarantineId z name) := by
  intro z
  obtain ⟨w, hw, htold⟩ := (does_deleteIfOwned rfl hunused).run
    (looks_of_allSound (allSound_reachable h) input.quarantineId) hrun
  have hz : z = w.quarantine := hw.own
  have hsound : Sound t.digests input.quarantineId z := hw.allSound _
  cases deleted with
  | true =>
      obtain ⟨i, hi, hdigest⟩ := Deleted.file htold
      rw [if_pos rfl, hz]
      exact ⟨⟨i, hi, hw.digests _ hdigest⟩, Deleted.directory htold, Deleted.record htold⟩
  | false =>
      have hunsettled : Unsettled z.history := hz ▸ htold
      rw [if_neg Bool.false_ne_true]
      refine fun i => ⟨hunsettled.2 i, fun hi => ?_⟩
      rcases hsound.accounted i hi with ⟨name, hname⟩ | ⟨path, hpath⟩ | hunlinked
      · exact ⟨name, hname, (hsound.reached _ hname).2⟩
      · exact absurd hpath (hunsettled.1 i path)
      · exact absurd hunlinked (hunsettled.2 i)

/-- What an undisturbed delete comes to. -/
def deletedTree : Tree :=
  (Program.exec (answer emptyFileOnly) (deleteIfOwned sampleDelete) sampleTree).2

theorem deletedTree_run :
    Program.Run (Answers emptyFileOnly) (deleteIfOwned sampleDelete) sampleTree (.ok true)
      deletedTree := by
  have hcheck : (Program.exec (answer emptyFileOnly) (deleteIfOwned sampleDelete)
      sampleTree).1.toOption = some true := by
    decide +kernel
  have hrun := (Program.exec_run (answer emptyFileOnly) (deleteIfOwned sampleDelete)
    sampleTree).mono fun _ _ _ _ => Answers.of_answered
  generalize (Program.exec (answer emptyFileOnly) (deleteIfOwned sampleDelete) sampleTree).1 =
    result at hcheck hrun
  cases result with
  | error e => cases hcheck
  | ok deleted =>
      obtain rfl := Option.some.inj hcheck
      exact hrun

theorem delete_result_deleted :
    (∃ i, Event.unlinked i ∈ (deletedTree.quarantines sampleDelete.quarantineId).history ∧
      (i, sampleDelete.expectedSha256) ∈ deletedTree.digests) ∧
    (deletedTree.quarantines sampleDelete.quarantineId).directory = none ∧
    (deletedTree.quarantines sampleDelete.quarantineId).record = none := by
  have h := delete_result sampleTree_reachable rfl deletedTree_run
  dsimp only at h
  rw [if_pos rfl] at h
  exact h

/-- A sweep that comes, undisturbed, to a quarantine with a file, and that may touch it, ends the
quarantine: the file that was moved goes back under its name, and the directory and the record go.
If the file has changed, or if there is another under its name, nothing is lost: the file stays in
its directory and keeps its record. -/
theorem recovery_puts_back {sweep : RecoverInput} {id : Uuid} {d : QuarantineDirectory}
    {m : Metadata} {source : FileStatus} {name : Name} {i : FileId} {path : Path}
    (h : (quarantineSystem sha256).Reachable System.Any s)
    (hd : (s.quarantines id).directory = some d) (hm : d.metadata = some m)
    (hfile : (name, i) ∈ d.entries) (hdue : Due sweep m source)
    (hpath : objectKeyParts m.objectKey = .ok path) :
    (s.quarantines id).record = some m.objectKey ∧
      let t := (Program.exec (answer sha256) (processQuarantine sweep id m.objectKey) s).2
      if s.status i = ⟨true, source⟩ ∧ s.files.entries path = none then s.PutBack t id path i
      else s.Conflicting t id m i := by
  have hsound := allSound_reachable h id
  have hfiles : (name, i) ∈ (s.quarantines id).files := (files_eq hd).symm ▸ hfile
  obtain ⟨-, d', m', objectKey, hd', hm', hdescribes, hname, hrecord⟩ := hsound.reached _ hfiles
  obtain rfl := Option.some.inj (hd.symm.trans hd')
  obtain rfl := Option.some.inj (hm.symm.trans hm')
  obtain rfl := hdescribes.key
  have hparent : d.parent = path.dropLast := by
    rw [Except.ok.inj (hpath.symm.trans hdescribes.path), List.dropLast_concat]
  -- the invariant knows the record, the parent and that there is no second file
  have hentries : d.entries = [(name, i)] := by
    obtain ⟨x, hx⟩ := List.length_eq_one_iff.1 (Nat.le_antisymm (files_eq hd ▸ hsound.single)
      (List.length_pos_of_mem hfile))
    rw [hx, List.mem_singleton] at hfile
    rw [hx, hfile]
  refine ⟨hrecord, ?_⟩
  unfold processQuarantine
  dsimp only
  have hexec := exec_recoverCandidate sha256 path hd hentries hname hdue.described
  rw [Program.exec_bind, exec_recoverQueuedQuarantine hd hm hdue hpath hparent]
  split at hexec
  · next hback =>
    obtain ⟨t, hexec, hfiles, hdirectory⟩ := hexec
    rw [if_pos hback, hexec]
    dsimp only
    rw [exec_perform]
    simp only [answer]
    refine ⟨hfiles, ?_, ?_⟩
    · rw [Tree.set_quarantines]
      exact hdirectory
    · rw [Tree.set_quarantines]
      rfl
  · next hback =>
    obtain ⟨t, hexec, hconflict⟩ := hexec
    rw [if_neg hback, hexec]
    exact hconflict

/-- A sweep after the cutoff of the sample. -/
def sampleRecovery : RecoverInput := ⟨200, [], [], []⟩

theorem samplePath_parts : objectKeyParts sampleMetadata.objectKey = .ok samplePath := by
  have hcheck : (objectKeyParts sampleMetadata.objectKey).toOption = some samplePath := by
    decide +kernel
  cases h : objectKeyParts sampleMetadata.objectKey with
  | error message =>
      rw [h] at hcheck
      cases hcheck
  | ok path =>
      rw [h] at hcheck
      exact congrArg _ (Option.some.inj hcheck)

/-- The sweep undoes the interrupted delete. -/
theorem recovery_puts_back_interrupted :
    interruptedTree.PutBack (Program.exec (answer emptyFileOnly)
      (processQuarantine sampleRecovery sampleDelete.quarantineId sampleMetadata.objectKey)
      interruptedTree).2 sampleDelete.quarantineId samplePath (1, 7) := by
  have hdue : Due sampleRecovery sampleMetadata ⟨(1, 7), 0, 5⟩ :=
    ⟨rfl, by decide, .inl rfl, by decide, by decide +kernel⟩
  have hintact : interruptedTree.status (1, 7) = ⟨true, ⟨(1, 7), 0, 5⟩⟩ ∧
      interruptedTree.files.entries samplePath = none := by
    decide +kernel
  have h := (recovery_puts_back interruptedTree_reachable interruptedTree_directory rfl
    (List.mem_singleton.2 rfl) hdue samplePath_parts).2
  dsimp only at h
  rw [if_pos hintact] at h
  exact h

end Runs

end WheelForge.Storage.OwnedDelete
