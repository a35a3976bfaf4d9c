import Mathlib.Algebra.GroupWithZero.Nat
import WheelForge.Download.Attempts

/-!
# Download transactions

`_download_packages` either commits a directory with one verified file for each package or leaves the
work directory to the entries of other processes. `publishWheel_ends` and `downloadFrom_ends` follow
the publication from file to file, and `download_commits_or_cleans_up` is the result for every run.
-/

set_option autoImplicit false

namespace WheelForge.Download

open WheelForge.Build (DownloadedWheel)
open WheelForge.Interaction WheelForge.Interaction.Program
open WheelForge.Resolver (PackageSource ResolvedPackage)
open WheelForge.Target (TargetProfile linuxTarget)

/-! ## The publication -/

section Publishing

variable {staging : Status} {base : Listing} {w : World} {publication binding : AttemptBinding}
  {files entries : List (String × Node)} {d : WheelDownloader}

/-- The publication directory is the only own entry. -/
def Publishing (staging : Status) (base : Listing) (publication : AttemptBinding)
    (files : List (String × Node)) (w : World) : Prop :=
  Holds staging base (withDirectory (fun _ => none) publication files) w

/-- Besides the publication directory there is the directory of an attempt. -/
structure Attempting (staging : Status) (base : Listing) (publication : AttemptBinding)
    (files : List (String × Node)) (binding : AttemptBinding) (entries : List (String × Node))
    (w : World) : Prop where
  ne : binding.name ≠ publication.name
  holds : Holds staging base
    (withDirectory (withDirectory (fun _ => none) publication files) binding entries) w

theorem withDirectory_of_ne {ours : Listing} {name : String} (h : name ≠ binding.name) :
    withDirectory ours binding entries name = ours name := Function.update_of_ne h ..

theorem Attempting.own_publication (h : Attempting staging base publication files binding entries w) :
    withDirectory (withDirectory (fun _ => none) publication files) binding entries
      publication.name = some (.directory publication.identity files) := by
  rw [withDirectory_of_ne h.ne.symm]
  exact withDirectory_own

/-- Another state with the same own entries. -/
theorem Attempting.of_holds {t : World}
    (h : Attempting staging base publication files binding entries w)
    (ht : Holds staging base
      (withDirectory (withDirectory (fun _ => none) publication files) binding entries) t) :
    Attempting staging base publication files binding entries t := ⟨h.ne, ht⟩

/-- A change in the publication directory. -/
theorem Attempting.fill (h : Attempting staging base publication files binding entries w)
    (change : List (String × Node) → List (String × Node)) :
    Attempting staging base publication (change files) binding entries
      (w.fill publication.name change) := by
  refine ⟨h.ne, ?_⟩
  have hfill := h.holds.fill h.own_publication change
  unfold withDirectory at hfill ⊢
  rw [Function.update_comm h.ne.symm, Function.update_idem, Function.update_comm h.ne] at hfill
  exact hfill

/-- A part that only looks. -/
theorem Attempting.looks {α : Type} {p : DownloadProgram α}
    (h : Attempting staging base publication files binding entries w)
    (hp : ∀ ours, Keeps staging base ours p) :
    Ensures p w (Ends (fun t _ => Attempting staging base publication files binding entries t)
      fun t => Attempting staging base publication files binding entries t) :=
  Ends.mono (hp _ w h.holds) (fun _ _ ht => h.of_holds ht) fun _ ht => h.of_holds ht

theorem Attempting.revalidate_binding (hdir : staging.kind = .directory)
    (h : Attempting staging base publication files binding entries w) (failed : World → Prop) :
    Ensures (binding.revalidate staging.identity) w
      (Ends (fun t _ => Attempting staging base publication files binding entries t) failed) :=
  Ends.mono (revalidate_ends hdir h.holds withDirectory_own failed)
    (fun _ _ ht => h.of_holds ht) fun _ => id

theorem Attempting.revalidate_publication (hdir : staging.kind = .directory)
    (h : Attempting staging base publication files binding entries w) (failed : World → Prop) :
    Ensures (publication.revalidate staging.identity) w
      (Ends (fun t _ => Attempting staging base publication files binding entries t) failed) :=
  Ends.mono (revalidate_ends hdir h.holds h.own_publication failed)
    (fun _ _ ht => h.of_holds ht) fun _ => id

/-- A wheel and its published file. -/
structure Published (d : WheelDownloader) (wheel : DownloadedWheel) (file : String × Node) :
    Prop where
  name : file.1 = wheel.filename
  content : ∃ identity content, file.2 = .file identity 1 content ∧
    content.length = wheel.byteSize ∧ d.sha256 content = wheel.sha256

theorem writeContent_last {name : String} {identity links : Nat} {old content : List UInt8}
    (hnew : name ∉ files.map Prod.fst) :
    writeContent name content (files ++ [(name, .file identity links old)]) =
      files ++ [(name, .file identity links content)] := by
  have hothers : writeContent name content files = files := by
    unfold writeContent
    conv_rhs => rw [← List.map_id files]
    refine List.map_congr_left fun file hfile => ?_
    have hne : file.1 ≠ name := fun heq => hnew (heq ▸ List.mem_map_of_mem hfile)
    obtain ⟨other, node⟩ := file
    cases node with
    | file identity links old => simp [show other ≠ name from hne]
    | directory identity entries => rfl
    | other identity => rfl
  have happend : ∀ a b : List (String × Node), writeContent name content (a ++ b) =
      writeContent name content a ++ writeContent name content b :=
    fun a b => List.map_append
  rw [happend, hothers]
  simp [writeContent]

/-- What is left of the publication by a failure. -/
def Attempted (staging : Status) (base : Listing) (publication binding : AttemptBinding)
    (w : World) : Prop :=
  ∃ files entries, Attempting staging base publication files binding entries w

theorem Attempting.attempted (h : Attempting staging base publication files binding entries w) :
    Attempted staging base publication binding w := ⟨files, entries, h⟩

theorem rejectPublicationCollision_ends (hdir : staging.kind = .directory)
    (h : Attempting staging base publication files binding entries w) (filename : String) :
    Ensures (d.rejectPublicationCollision publication staging.identity filename) w
      (Ends (fun t _ => Attempting staging base publication files binding entries t)
        fun t => Attempting staging base publication files binding entries t) := by
  unfold WheelDownloader.rejectPublicationCollision
  apply ends_then (h.revalidate_publication hdir _) _ fun _ => id
  intro t _ ht
  apply ends_then (ht.looks fun ours => (keeps_perform rfl).onOSError _) _ fun _ => id
  intro t names ht
  exact ht.looks fun ours => keeps_raiseWhen _ _

/-- A new file is created empty, beside the files that are there. -/
theorem createEntry_ends (h : Attempting staging base publication files binding entries w)
    (filename : String) :
    Ensures (perform (.createEntry publication.name filename)) w
      (Ends (fun t created => filename ∉ files.map Prod.fst ∧
          Attempting staging base publication
            (files ++ [(filename, .file created.identity 1 [])]) binding entries t)
        fun t => Attempting staging base publication files binding entries t) := by
  apply ensures_perform h.holds
  intro w₁ r w₂ h₁ hstep
  have h₁ := h.of_holds h₁
  obtain ⟨identity, hnone, rfl, rfl⟩ | ⟨rfl, error, rfl, -⟩ := hstep
  · refine ⟨?_, h₁.fill fun entries => entries ++ [(filename, .file identity 1 [])]⟩
    unfold World.entry at hnone
    rw [h₁.holds.entries_own h₁.own_publication] at hnone
    dsimp only at hnone
    intro hmem
    obtain ⟨⟨name, node⟩, hfile, rfl⟩ := List.mem_map.1 hmem
    rw [List.lookup_eq_none_iff] at hnone
    simpa using hnone _ hfile
  · exact h₁

theorem writeEntry_ends {filename : String} {identity : Nat} (hnew : filename ∉ files.map Prod.fst)
    (h : Attempting staging base publication (files ++ [(filename, .file identity 1 [])]) binding
      entries w) (content : List UInt8) :
    Ensures (perform (.writeEntry publication.name filename content)) w
      (Ends (fun t _ => Attempting staging base publication
          (files ++ [(filename, .file identity 1 content)]) binding entries t)
        fun t => Attempted staging base publication binding t) := by
  apply ensures_perform h.holds
  intro w₁ r w₂ h₁ hstep
  have h₁ := h.of_holds h₁
  obtain ⟨rfl, rfl⟩ | ⟨written, error, rfl, rfl, -⟩ := hstep
  · have hfill := h₁.fill (writeContent filename content)
    rw [writeContent_last hnew] at hfill
    exact hfill
  · exact (h₁.fill (writeContent filename written)).attempted

/-- The copy has the size and the digest that were observed. -/
theorem copyVerified_ends {observed : ObservedWheel} {identity : Nat}
    (hnew : observed.filename ∉ files.map Prod.fst)
    (h : Attempting staging base publication
      (files ++ [(observed.filename, .file identity 1 [])]) binding entries w) :
    Ensures (d.copyVerified observed publication) w
      (Ends (fun t _ => ∃ content : List UInt8, content.length = observed.byteSize ∧
          d.sha256 content = observed.sha256 ∧
          Attempting staging base publication
            (files ++ [(observed.filename, .file identity 1 content)]) binding entries t)
        fun t => Attempted staging base publication binding t) := by
  unfold WheelDownloader.copyVerified
  apply ends_then (h.looks fun ours => (keeps_perform rfl).onOSError _) _ fun _ ht => ht.attempted
  intro t source ht
  apply ends_then (ht.looks fun ours => keeps_raiseWhen _ _) _ fun _ ht => ht.attempted
  intro t _ ht
  apply ends_then (ht.looks fun ours => (keeps_perform rfl).onOSError _) _ fun _ ht => ht.attempted
  intro t content ht
  apply ends_then (ends_onOSError (writeEntry_ends hnew ht content)) _ fun _ ht => ht
  intro t _ ht
  apply ends_raiseWhen
  · intro hsame
    rw [not_or, not_not, not_not] at hsame
    exact ⟨content, hsame.1, hsame.2, ht⟩
  · exact fun _ => ht.attempted

/-- The next file of the publication, and its wheel. -/
structure Adds (d : WheelDownloader) (files : List (String × Node)) (wheel : DownloadedWheel)
    (file : String × Node) : Prop extends Published d wheel file where
  new : file.1 ∉ files.map Prod.fst

theorem publishWheel_ends (hdir : staging.kind = .directory) {observed : ObservedWheel}
    (hattempt : observed.attempt = binding) (source : PackageSource)
    (h : Attempting staging base publication files binding entries w) :
    Ensures (d.publishWheel observed staging.identity publication source) w
      (Ends (fun t wheel => wheel.package = observed.package ∧ wheel.byteSize = observed.byteSize ∧
          ∃ file, Adds d files wheel file ∧
            Attempting staging base publication (files ++ [file]) binding entries t)
        fun t => Attempted staging base publication binding t) := by
  subst hattempt
  unfold WheelDownloader.publishWheel
  apply ends_then (h.looks fun ours => keeps_raiseIfCancelled) _ fun _ ht => ht.attempted
  intro t _ ht
  apply ends_then (ht.revalidate_binding hdir _) _ fun _ ht => ht
  intro t _ ht
  apply ends_then (ht.revalidate_publication hdir _) _ fun _ ht => ht
  intro t _ ht
  apply ends_then (rejectPublicationCollision_ends hdir ht _) _ fun _ ht => ht.attempted
  intro t _ ht
  apply ends_through (fun t created => observed.filename ∉ files.map Prod.fst ∧
    Attempting staging base publication
      (files ++ [(observed.filename, .file created.identity 1 [])]) observed.attempt entries t)
    fun t => Attempted staging base publication observed.attempt t
  · apply ends_handle
    apply Ends.mono (createEntry_ends ht observed.filename) (fun _ _ hu => hu)
    intro t ht error
    split
    · exact ht.attempted
    · split <;> exact ht.attempted
  · rintro t created ⟨hnew, ht⟩
    apply ends_through (fun t _ => ∃ content : List UInt8,
      content.length = observed.byteSize ∧ d.sha256 content = observed.sha256 ∧
      Attempting staging base publication
        (files ++ [(observed.filename, .file created.identity 1 content)]) observed.attempt
          entries t) fun t => Attempted staging base publication observed.attempt t
    · apply ends_onOSError
      apply ends_then (copyVerified_ends hnew ht) _ fun _ ht => ht
      rintro t _ ⟨content, hsize, hdigest, ht⟩
      apply ends_then (ht.revalidate_publication hdir _) _ fun _ ht => ht
      intro t _ ht
      apply ends_then (ht.looks fun ours => keeps_perform rfl) _ fun _ ht => ht.attempted
      intro t status ht
      exact ends_raiseWhen (fun _ => ⟨content, hsize, hdigest, ht⟩) fun _ => ht.attempted
    · rintro t _ ⟨content, hsize, hdigest, ht⟩
      exact ⟨rfl, rfl, _, ⟨⟨rfl, _, content, rfl, hsize, hdigest⟩, hnew⟩, ht⟩
    · exact fun _ ht => ht
  · exact fun _ ht => ht

/-! ## One attempt -/

theorem yields_raiseWhen (condition : Prop) [Decidable condition] (error : DownloadError) :
    Yields (raiseWhen condition error) fun _ => ¬condition := by
  unfold raiseWhen
  split
  · exact yields_raise
  · next h => exact yields_pure.2 h

theorem hashRegularFile_yields (filename : String) (expected : Status) (maximumBytes : Nat) :
    Yields (d.hashRegularFile binding filename expected maximumBytes) fun found =>
      found.1 ≤ maximumBytes := by
  unfold WheelDownloader.hashRegularFile
  apply yields_after
  intro actual
  apply yields_after
  intro _
  apply yields_after
  intro content
  apply (yields_raiseWhen _ _).bind
  intro _ hsize
  exact yields_pure.2 (not_lt.1 hsize)

/-- What is observed is the package that was asked for, within the limit. -/
theorem inspectAttemptOutput_yields (identity : Nat) (package : ResolvedPackage)
    (profile : TargetProfile) (maximumBytes : Nat) :
    Yields (d.inspectAttemptOutput binding identity package profile maximumBytes) fun observed =>
      observed.package = package.name ∧ observed.byteSize ≤ maximumBytes ∧
        observed.attempt = binding := by
  unfold WheelDownloader.inspectAttemptOutput
  apply yields_after
  intro _
  apply yields_after
  intro names
  split
  · next filename =>
      apply yields_after
      intro _
      apply yields_after
      intro status
      apply yields_after
      intro _
      split
      · exact yields_raise
      · apply yields_after
        intro _
        apply yields_after
        intro _
        apply (hashRegularFile_yields filename status maximumBytes).bind
        rintro ⟨size, digest⟩ hsize
        apply yields_after
        intro _
        apply yields_after
        intro current
        apply yields_after
        intro _
        exact yields_pure.2 ⟨rfl, hsize, rfl⟩
  · exact yields_raise

theorem keeps_hashRegularFile {ours : Listing} (filename : String) (expected : Status)
    (maximumBytes : Nat) :
    Keeps staging base ours (d.hashRegularFile binding filename expected maximumBytes) := by
  unfold WheelDownloader.hashRegularFile
  apply ((keeps_perform rfl).onOSError _).bind
  intro actual
  apply (keeps_raiseWhen _ _).bind
  intro _
  apply ((keeps_perform rfl).onOSError _).bind
  intro content
  apply (keeps_raiseWhen _ _).bind
  intro _
  exact keeps_pure _

theorem keeps_inspectAttemptOutput {ours : Listing} (hdir : staging.kind = .directory)
    (hours : ours binding.name = some (.directory binding.identity entries))
    (package : ResolvedPackage) (profile : TargetProfile) (maximumBytes : Nat) :
    Keeps staging base ours
      (d.inspectAttemptOutput binding staging.identity package profile maximumBytes) := by
  have hrevalidate : Keeps staging base ours (binding.revalidate staging.identity) :=
    fun _ h => revalidate_ends hdir h hours _
  unfold WheelDownloader.inspectAttemptOutput
  apply hrevalidate.bind
  intro _
  apply ((keeps_perform rfl).onOSError _).bind
  intro names
  split
  · apply (keeps_raiseWhen _ _).bind
    intro _
    apply ((keeps_perform rfl).onOSError _).bind
    intro status
    apply (keeps_raiseWhen _ _).bind
    intro _
    split
    · exact keeps_raise _
    · apply (keeps_raiseWhen _ _).bind
      intro _
      apply (keeps_raiseWhen _ _).bind
      intro _
      apply (keeps_hashRegularFile _ _ _).bind
      intro found
      apply hrevalidate.bind
      intro _
      apply (keeps_perform rfl).bind
      intro current
      apply (keeps_raiseWhen _ _).bind
      intro _
      exact keeps_pure _
  · exact keeps_raise _

theorem inspectAttemptOutput_ends (hdir : staging.kind = .directory)
    (h : Attempting staging base publication files binding entries w) (package : ResolvedPackage)
    (profile : TargetProfile) (maximumBytes : Nat) :
    Ensures (d.inspectAttemptOutput binding staging.identity package profile maximumBytes) w
      (Ends (fun t observed => Attempting staging base publication files binding entries t ∧
          observed.package = package.name ∧ observed.byteSize ≤ maximumBytes ∧
          observed.attempt = binding)
        fun t => Attempting staging base publication files binding entries t) := by
  apply ends_yields _ (inspectAttemptOutput_yields _ package profile maximumBytes)
  exact Ends.mono (keeps_inspectAttemptOutput hdir withDirectory_own package profile maximumBytes w
    h.holds) (fun _ _ ht => h.of_holds ht) fun _ ht => h.of_holds ht

theorem keeps_validatePackage {ours : Listing} (package : ResolvedPackage) :
    Keeps staging base ours (d.validatePackage package) := by
  unfold WheelDownloader.validatePackage
  split
  · exact keeps_raise _
  · exact keeps_raiseWhen _ _

theorem keeps_buildDownloadArgv {ours : Listing} (package : ResolvedPackage)
    (profile : TargetProfile) (source : PackageSource) :
    Keeps staging base ours (d.buildDownloadArgv package profile source binding) := by
  unfold WheelDownloader.buildDownloadArgv
  apply (keeps_validatePackage package).bind
  intro _
  apply (keeps_raiseWhen _ _).bind
  intro _
  exact keeps_pure _

/-- A source changes the directory of its attempt only. -/
theorem run_ends (h : Attempting staging base publication files binding entries w)
    (argv : List String) :
    Ensures (perform (.run argv binding.name)) w
      (Ends (fun t _ => ∃ entries, Attempting staging base publication files binding entries t)
        fun t => ∃ entries, Attempting staging base publication files binding entries t) := by
  apply ensures_perform h.holds
  rintro w₁ r w₂ h₁ ⟨entries', rfl⟩
  have hfill := h₁.fill withDirectory_own fun _ => entries'
  unfold withDirectory at hfill
  rw [Function.update_idem] at hfill
  cases r <;> exact ⟨entries', h.ne, hfill⟩

/-- The end of an attempt that succeeded: the wheel of the package is the publication's next
file. -/
def Acquired (d : WheelDownloader) (package : ResolvedPackage) (remainingTotal : Nat)
    (files : List (String × Node)) (wheel : DownloadedWheel) (file : String × Node) : Prop :=
  wheel.package = package.name ∧ wheel.byteSize ≤ remainingTotal ∧ Adds d files wheel file

theorem tryAttempt_ends (hdir : staging.kind = .directory) (package : ResolvedPackage)
    (profile : TargetProfile) (remainingTotal : Nat) (source : PackageSource)
    (h : Attempting staging base publication files binding entries w) :
    Ensures (d.tryAttempt package profile staging.identity publication remainingTotal source
        binding) w
      (Ends (fun t found =>
          match found with
          | .inl _ => ∃ entries, Attempting staging base publication files binding entries t
          | .inr wheel => ∃ file entries, Acquired d package remainingTotal files wheel file ∧
              Attempting staging base publication (files ++ [file]) binding entries t)
        fun t => Attempted staging base publication binding t) := by
  have hboth : ∀ {α : Type} {t : World} {es : List (String × Node)} {f : DownloadProgram α}
      {ok : World → α → Prop}, Attempting staging base publication files binding es t →
      (∀ u, Attempting staging base publication files binding es u →
        Ensures f u (Ends ok fun u => Attempted staging base publication binding u)) →
      Ensures (do
          binding.revalidate staging.identity
          publication.revalidate staging.identity
          f) t (Ends ok fun u => Attempted staging base publication binding u) := by
    intro α t es f ok ht hf
    apply ends_then (ht.revalidate_binding hdir _) _ fun _ hu => hu
    intro t _ ht
    exact ends_then (ht.revalidate_publication hdir _) (fun u _ hu => hf u hu) fun _ hu => hu
  unfold WheelDownloader.tryAttempt
  apply hboth h
  intro t ht
  apply ends_then (ht.looks fun ours => keeps_buildDownloadArgv _ _ _) _ fun _ ht => ht.attempted
  intro t argv ht
  apply ends_through
    (fun t _ => ∃ entries, Attempting staging base publication files binding entries t)
    fun _ => False
  · apply ends_attempt
    exact Ends.mono (run_ends ht argv) (fun _ _ hu => hu) fun _ hu _ => hu
  · rintro t result ⟨es, ht⟩
    split
    · exact hboth ht fun u hu => ⟨es, hu⟩
    · exact ht.attempted
    · apply hboth ht
      intro t ht
      split
      · exact ⟨es, ht⟩
      · apply ends_then (ht.looks fun ours => keeps_raiseIfCancelled) _ fun _ ht => ht.attempted
        intro t _ ht
        apply ends_then (inspectAttemptOutput_ends hdir ht package profile _) _
          fun _ ht => ht.attempted
        rintro t observed ⟨ht, hpackage, hsize, hattempt⟩
        apply ends_then (ht.looks fun ours => keeps_raiseIfCancelled) _ fun _ ht => ht.attempted
        intro t _ ht
        apply hboth ht
        intro t ht
        apply ends_then (publishWheel_ends hdir hattempt source ht) _ fun _ ht => ht
        rintro t wheel ⟨hname, hbytes, file, hadds, ht⟩
        refine ⟨file, es, ⟨hname.trans hpackage, ?_, hadds⟩, ht⟩
        rw [hbytes]
        exact hsize.trans (min_le_right _ _)
  · exact nofun

/-! ## One package -/

/-- The directory of an attempt is removed, whatever is in it. -/
theorem Attempting.removed (hdir : staging.kind = .directory)
    (h : Attempting staging base publication files binding entries w) (failed : World → Prop) :
    Ensures (removeAttempt staging.identity binding) w
      (Ends (fun t _ => Publishing staging base publication files t) failed) :=
  removeAttempt_ends hdir (withDirectory_of_ne h.ne) h.holds failed

/-- An attempt has another name than the publication. -/
theorem attempting_of_created
    (hname : withDirectory (fun _ => none) publication files binding.name = none)
    (h : Holds staging base
      (withDirectory (withDirectory (fun _ => none) publication files) binding []) w) :
    Attempting staging base publication files binding [] w := by
  refine ⟨?_, h⟩
  intro heq
  rw [heq, withDirectory_own] at hname
  cases hname

/-- The publication grows by one file, or what it has got is all that is left. -/
theorem downloadFrom_ends (hdir : staging.kind = .directory) (package : ResolvedPackage)
    (profile : TargetProfile) (remainingTotal : Nat) (sources : List PackageSource)
    (errors : List String) (h : Publishing staging base publication files w) :
    Ensures (d.downloadFrom package profile staging.identity publication remainingTotal sources
        errors) w
      (Ends (fun t wheel => ∃ file, Acquired d package remainingTotal files wheel file ∧
          Publishing staging base publication (files ++ [file]) t)
        fun t => ∃ files, Publishing staging base publication files t) := by
  induction sources generalizing w errors with
  | nil => exact ⟨files, h⟩
  | cons source sources ih =>
      unfold WheelDownloader.downloadFrom
      apply ends_then (keeps_raiseIfCancelled w h) _ fun t ht => ⟨files, ht⟩
      intro t _ ht
      apply ends_then (revalidateStaging_ends hdir ht fun _ => False) _ nofun
      intro t _ ht
      apply ends_then (revalidate_ends hdir ht withDirectory_own fun _ => False) _ nofun
      intro t _ ht
      apply ends_then (createAttempt_ends _ ht) _ fun t ht => ⟨files, ht⟩
      rintro t binding ⟨hname, ht⟩
      -- however the attempt ends, its directory is removed
      apply ends_through (fun t found =>
          match found with
          | .inl _ => Publishing staging base publication files t
          | .inr wheel => ∃ file, Acquired d package remainingTotal files wheel file ∧
              Publishing staging base publication (files ++ [file]) t)
        fun t => ∃ files, Publishing staging base publication files t
      · apply ends_ensuring
        apply Ends.mono (tryAttempt_ends hdir package profile remainingTotal source
          (attempting_of_created hname ht))
        · rintro t (error | wheel) ht
          · obtain ⟨es, ht⟩ := ht
            exact ht.removed hdir _
          · obtain ⟨file, es, hacquired, ht⟩ := ht
            exact Ends.mono (ht.removed hdir _) (fun _ _ hu => ⟨file, hacquired, hu⟩) fun _ => id
        · rintro t ⟨files', es, ht⟩
          exact Ends.mono (ht.removed hdir _) (fun _ _ hu => ⟨files', hu⟩) fun _ => id
      · rintro t (error | wheel) ht
        · exact ih _ ht
        · exact ht
      · exact fun _ ht => ht

theorem downloadOne_ends (hdir : staging.kind = .directory) (package : ResolvedPackage)
    (profile : TargetProfile) (remainingTotal : Nat)
    (h : Publishing staging base publication files w) :
    Ensures (d.downloadOne package profile staging.identity publication remainingTotal) w
      (Ends (fun t wheel => ∃ file, Acquired d package remainingTotal files wheel file ∧
          Publishing staging base publication (files ++ [file]) t)
        fun t => ∃ files, Publishing staging base publication files t) := by
  unfold WheelDownloader.downloadOne
  apply ends_then (keeps_validatePackage package w h) _ fun t ht => ⟨files, ht⟩
  intro t _ ht
  apply ends_then (keeps_raiseWhen _ _ t ht) _ fun t ht => ⟨files, ht⟩
  intro t _ ht
  exact downloadFrom_ends hdir package profile remainingTotal _ _ ht

/-! ## All packages -/

/-- The wheels so far with their files, and the packages that remain. -/
structure Progress (d : WheelDownloader) (packages remaining : List ResolvedPackage)
    (sofar : Nat × List DownloadedWheel) (files : List (String × Node)) : Prop where
  published : List.Forall₂ (Published d) sofar.2 files
  names : (files.map Prod.fst).Nodup
  total : (sofar.2.map DownloadedWheel.byteSize).sum = sofar.1
  within : sofar.1 ≤ d.limits.maxTotalBytes
  order : sofar.2.map DownloadedWheel.package ++ remaining.map ResolvedPackage.name =
    packages.map ResolvedPackage.name

variable {packages remaining : List ResolvedPackage} {package : ResolvedPackage}
  {sofar : Nat × List DownloadedWheel}

theorem progress_nil : Progress d packages packages (0, []) [] where
  published := .nil
  names := List.nodup_nil
  total := rfl
  within := Nat.zero_le _
  order := List.nil_append _

theorem Progress.next {wheel : DownloadedWheel} {file : String × Node}
    (h : Progress d packages (package :: remaining) sofar files)
    (hacquired : Acquired d package (d.limits.maxTotalBytes - sofar.1) files wheel file) :
    Progress d packages remaining (sofar.1 + wheel.byteSize, sofar.2 ++ [wheel])
      (files ++ [file]) := by
  obtain ⟨hpackage, hsize, hadds⟩ := hacquired
  have hwithin := h.within
  refine ⟨?_, ?_, ?_, ?_, ?_⟩
  · exact List.rel_append h.published (.cons hadds.toPublished .nil)
  · rw [List.map_append, List.nodup_append]
    refine ⟨h.names, List.nodup_singleton _, ?_⟩
    rintro name hname other hother rfl
    rw [List.mem_singleton.1 hother] at hname
    exact hadds.new hname
  · simp [h.total]
  · dsimp only
    omega
  · rw [← h.order]
    simp [hpackage]

theorem downloadNext_ends (hdir : staging.kind = .directory) (profile : TargetProfile)
    (hprogress : Progress d packages (package :: remaining) sofar files)
    (h : Publishing staging base publication files w) :
    Ensures (d.downloadNext profile staging.identity publication sofar package) w
      (Ends (fun t sofar => ∃ files, Progress d packages remaining sofar files ∧
          Publishing staging base publication files t)
        fun t => ∃ files, Publishing staging base publication files t) := by
  unfold WheelDownloader.downloadNext
  apply ends_then (keeps_raiseIfCancelled w h) _ fun t ht => ⟨files, ht⟩
  intro t _ ht
  apply ends_then (downloadOne_ends hdir package profile _ ht) _ fun _ ht => ht
  rintro t wheel ⟨file, hacquired, ht⟩
  exact ⟨_, hprogress.next hacquired, ht⟩

theorem downloadLoop_ends (hdir : staging.kind = .directory) (profile : TargetProfile)
    (h : Publishing staging base publication [] w) :
    Ensures (loop (d.downloadNext profile staging.identity publication) packages (0, [])) w
      (Ends (fun t sofar => ∃ files, Progress d packages [] sofar files ∧
          Publishing staging base publication files t)
        fun t => ∃ files, Publishing staging base publication files t) := by
  apply ends_loop (I := fun remaining sofar t => ∃ files,
    Progress d packages remaining sofar files ∧ Publishing staging base publication files t)
  · rintro package remaining sofar t ⟨files, hprogress, ht⟩
    exact downloadNext_ends hdir profile hprogress ht
  · exact ⟨[], progress_nil, h⟩

/-! ## The commit -/

/-- The rename gives the publication the destination's name, which nobody had. -/
theorem rename_ends (h : Publishing staging base publication files w) (target : String) :
    Ensures (perform (.renameNoReplace publication.name target)) w
      (Ends (fun t _ => base target = none ∧
          Publishing staging base ⟨target, publication.identity⟩ files t)
        fun t => Publishing staging base publication files t) := by
  apply ensures_perform h
  intro w₁ r w₂ h₁ hstep
  obtain ⟨node, hsource, htarget, rfl, rfl⟩ | ⟨rfl, error, rfl, -⟩ := hstep
  · have hown := h₁.entries_own withDirectory_own
    obtain rfl := Option.some.inj (hown.symm.trans hsource)
    obtain ⟨-, hothers⟩ := h₁.of_entries_none htarget
    constructor
    · by_contra hne
      obtain ⟨node, hnode⟩ := Option.ne_none_iff_exists'.1 hne
      exact absurd (h₁.keeps target node hnode) (by rw [hothers]; exact nofun)
    · have hremoved := h₁.put none (h₁.free publication.name (by rw [withDirectory_own]; exact nofun))
      rw [withDirectory_removed rfl] at hremoved
      exact hremoved.put _ hothers
  · exact h₁

theorem commitPublication_ends (hdir : staging.kind = .directory) (destination : Destination)
    (h : Publishing staging base publication files w) :
    Ensures (commitPublication staging.identity publication destination) w
      (Ends (fun t _ => base destination.name = none ∧
          Publishing staging base ⟨destination.name, publication.identity⟩ files t)
        fun t => Publishing staging base publication files t) := by
  unfold commitPublication
  apply ends_then (revalidateStaging_ends hdir h _) _ fun _ ht => ht
  intro t _ ht
  apply ends_then (revalidate_ends hdir ht withDirectory_own _) _ fun _ ht => ht
  intro t _ ht
  apply ends_then (Keeps.attempt (keeps_perform rfl) t ht) _ fun _ ht => ht
  intro t found ht
  have hrename : ∀ u, Publishing staging base publication files u →
      Ensures (do
        perform (.closeHandle (some publication.name))
        atomicRenameNoReplace publication destination) u
          (Ends (fun t _ => base destination.name = none ∧
              Publishing staging base ⟨destination.name, publication.identity⟩ files t)
            fun t => Publishing staging base publication files t) := by
    intro u hu
    apply (shows_closeHandle _).next hu
    intro u _ hu _
    unfold atomicRenameNoReplace
    apply ends_handle
    apply Ends.mono (rename_ends hu destination.name) (fun _ _ hv => hv)
    intro v hv error
    split
    · exact hv
    · split <;> exact hv
  split
  · exact hrename t ht
  · split <;> exact ht
  · exact ht

/-- The publication is committed with all packages, or not. -/
theorem downloadInto_ends (hdir : staging.kind = .directory) (profile : TargetProfile)
    (destination : Destination) (h : Publishing staging base publication [] w) :
    Ensures (d.downloadInto packages profile staging.identity publication destination) w
      (Ends (fun t wheels => base destination.name = none ∧ ∃ total files,
          Progress d packages [] (total, wheels) files ∧
          Publishing staging base ⟨destination.name, publication.identity⟩ files t)
        fun t => ∃ files, Publishing staging base publication files t) := by
  unfold WheelDownloader.downloadInto
  apply ends_then (downloadLoop_ends hdir profile h) _ fun _ ht => ht
  rintro t ⟨total, wheels⟩ ⟨files, hprogress, ht⟩
  apply ends_then (keeps_raiseIfCancelled t ht) _ fun _ ht => ⟨files, ht⟩
  intro t _ ht
  apply ends_then (commitPublication_ends hdir destination ht) _ fun _ ht => ⟨files, ht⟩
  rintro t _ ⟨hnone, ht⟩
  exact ⟨hnone, total, files, hprogress, ht⟩

theorem closeTransaction_ends {ours : Listing} (h : Holds staging base ours w)
    (failed : World → Prop) :
    Ensures WheelDownloader.closeTransaction w (Ends (fun t _ => Holds staging base ours t) failed) := by
  unfold WheelDownloader.closeTransaction
  apply shows_closeLock.next h
  intro t _ ht _
  exact Ends.mono ((shows_closeHandle none).ends ht _) (fun _ _ hu => hu.1) fun _ => id

theorem downloadPackages_ends (profile : TargetProfile) (destination : Destination)
    (h : Holds staging base (fun _ => none) w) :
    Ensures (d.downloadPackages packages profile destination) w
      (Ends (fun t wheels => base destination.name = none ∧ ∃ total identity files,
          Progress d packages [] (total, wheels) files ∧
          Publishing staging base ⟨destination.name, identity⟩ files t)
        fun t => Holds staging base (fun _ => none) t) := by
  unfold WheelDownloader.downloadPackages
  apply ends_then (prepareStagingRoot_ends h) _ fun _ ht => ht
  rintro t identity ⟨rfl, hdir, ht⟩
  apply ends_through (fun t found =>
      match found with
      | .ok publication => Publishing staging base publication [] t
      | .error _ => Holds staging base (fun _ => none) t) fun _ => False
  · apply ends_attempt
    apply ends_then (keeps_acquireLock hdir t ht) _ fun _ hu error => hu
    intro t _ ht
    apply ends_then (keeps_prepareDestination hdir destination t ht) _ fun _ hu error => hu
    intro t _ ht
    exact Ends.mono (createAttempt_ends _ ht) (fun _ _ hu => hu.2) fun _ hu error => hu
  · rintro t (error | publication) ht
    · exact ends_then (closeTransaction_ends ht fun _ => False) (fun _ _ hu => hu) nofun
    · apply ends_through (fun t found =>
          match found with
          | .ok wheels => base destination.name = none ∧ ∃ total files,
              Progress d packages [] (total, wheels) files ∧
              Publishing staging base ⟨destination.name, publication.identity⟩ files t
          | .error _ => ∃ files, Publishing staging base publication files t) fun _ => False
      · apply ends_attempt
        exact Ends.mono (downloadInto_ends hdir profile destination ht) (fun _ _ hu => hu)
          fun _ hu error => hu
      · rintro t (error | wheels) ht
        · obtain ⟨files, ht⟩ := ht
          apply ends_then (removeAttempt_ends hdir rfl ht fun _ => False) _ nofun
          intro t _ ht
          exact ends_then (closeTransaction_ends ht fun _ => False) (fun _ _ hu => hu) nofun
        · obtain ⟨hnone, total, files, hprogress, ht⟩ := ht
          apply (shows_closeHandle _).next ht
          intro t _ ht _
          apply ends_then (closeTransaction_ends ht fun _ => False) _ nofun
          intro t _ ht
          exact ⟨hnone, total, _, files, hprogress, ht⟩
      · exact nofun
  · exact nofun

end Publishing

/-! ## Every run -/

/-- The files of a committed destination: one for each package, in their order. -/
structure CommittedFiles (d : WheelDownloader) (packages : List ResolvedPackage)
    (wheels : List DownloadedWheel) (files : List (String × Node)) : Prop where
  published : List.Forall₂ (Published d) wheels files
  names : (files.map Prod.fst).Nodup
  order : wheels.map DownloadedWheel.package = packages.map ResolvedPackage.name
  total : (wheels.map DownloadedWheel.byteSize).sum ≤ d.limits.maxTotalBytes

section Runs

variable {d : WheelDownloader} {packages : List ResolvedPackage} {profile : TargetProfile}
  {destination : Destination} {w t : World}

theorem fill_others (w : World) (name : String)
    (change : List (String × Node) → List (String × Node)) :
    (w.fill name change).others = w.others := by
  unfold World.fill
  split <;> rfl

/-- The only entry that the downloader leaves to the others is the lock file. -/
theorem step_others {w w' : World} {call : DownloadCall} {r : Except DownloadError call.Answer}
    (h : Step w call r w') {name : String} (hname : name ≠ transactionLockFilename) :
    w'.others name = w.others name := by
  by_cases hquiet : call.isQuiet = true
  · obtain ⟨handles, rfl⟩ := quiet_step hquiet h
    rfl
  · cases call with
    | run argv attempt =>
        obtain ⟨entries, rfl⟩ := h
        rw [fill_others]
    | mkdir directory =>
        obtain ⟨-, -, -, rfl⟩ | ⟨-, -, rfl⟩ | ⟨rfl, -⟩ := h <;> rfl
    | rmdir directory =>
        simp only [Step] at h
        split at h
        · rw [h.1]
          rfl
        · rw [h.1]
    | clear directory =>
        rw [h.1, fill_others]
    | rmtree directory =>
        obtain ⟨-, h⟩ := h
        split at h <;> rw [h]
        rfl
    | createEntry directory entry =>
        obtain ⟨-, -, rfl, -⟩ | ⟨rfl, -⟩ := h
        · rw [fill_others]
        · rfl
    | writeEntry directory entry content =>
        obtain ⟨rfl, -⟩ | ⟨-, -, rfl, -⟩ := h <;> rw [fill_others]
    | renameNoReplace source target =>
        obtain ⟨-, -, -, -, rfl⟩ | ⟨rfl, -⟩ := h <;> rfl
    | openLock =>
        obtain ⟨-, -, -, rfl, -⟩ | ⟨-, -, -, rfl, -⟩ | ⟨rfl, -⟩ := h
        · rfl
        · exact Function.update_of_ne hname ..
        · rfl
    | _ => exact absurd rfl hquiet

theorem run_others {α : Type} {p : DownloadProgram α} {w t : World} {x : Except DownloadError α}
    (hrun : Run Step p w x t) {name : String} (hname : name ≠ transactionLockFilename) :
    t.others name = w.others name := by
  induction hrun with
  | ret a w => rfl
  | raise error w => rfl
  | call hstep _ ih => exact ih.trans (step_others hstep hname)

/-- Nobody does anything. -/
theorem others_refl (w : World) : Others w w :=
  ⟨fun _ => none, fun _ hne => absurd rfl hne, by simp⟩

theorem run_answers {α : Type} {p : DownloadProgram α} {w t : World} {x : Except DownloadError α}
    (hrun : Run Step p w x t) : Run Answers p w x t := by
  induction hrun with
  | ret a w => exact .ret a w
  | raise error w => exact .raise error w
  | call hstep _ ih => exact .call ⟨_, others_refl _, hstep⟩ ih

theorem holds_start (hstart : w.others = w.entries) :
    Holds w.staging w.entries (fun _ => none) w := by
  refine ⟨rfl, ?_, ?_, ?_⟩
  · simp [hstart]
  · exact fun _ hne => absurd rfl hne
  · exact fun name node hnode => hstart ▸ hnode

/-- Where nobody else uses the work directory, a download that fails leaves it as it was, but for
the lock file. -/
theorem failed_download_restores {error : DownloadError} (hstart : w.others = w.entries)
    (hrun : Run Step (d.downloadPackages packages profile destination) w (.error error) t)
    {name : String} (hname : name ≠ transactionLockFilename) : t.entries name = w.entries name := by
  have hholds : Holds w.staging w.entries (fun _ => none) t :=
    (run_answers hrun).meets (downloadPackages_ends profile destination (holds_start hstart))
  rw [hholds.entries, Option.none_or, run_others hrun hname, hstart]

/-- Every run commits the destination with one file for each package, or leaves nothing that the
downloader made; and what was there stays. -/
theorem download_commits_or_cleans_up {x : Except DownloadError (List DownloadedWheel)}
    (hstart : w.others = w.entries)
    (hrun : Run Answers (d.downloadPackages packages profile destination) w x t) :
    (∀ name node, w.entries name = some node → t.entries name = some node) ∧
      match x with
      | .ok wheels => w.entries destination.name = none ∧ t.others destination.name = none ∧
          ∃ identity files, CommittedFiles d packages wheels files ∧
            t.entries =
              Function.update t.others destination.name (some (.directory identity files))
      | .error _ => t.entries = t.others := by
  have hend := hrun.meets (downloadPackages_ends profile destination (holds_start hstart))
  cases x with
  | error error =>
      have hholds : Holds w.staging w.entries (fun _ => none) t := hend
      have heq : t.entries = t.others := by
        funext name
        rw [hholds.entries, Option.none_or]
      refine ⟨?_, heq⟩
      intro name node hnode
      rw [heq]
      exact hholds.keeps name node hnode
  | ok wheels =>
      obtain ⟨hnone, total, identity, files, hprogress, hholds⟩ := hend
      have hfree : t.others destination.name = none :=
        hholds.free destination.name (by rw [withDirectory_own]; exact nofun)
      have heq : t.entries =
          Function.update t.others destination.name (some (.directory identity files)) := by
        funext name
        rw [hholds.entries]
        unfold withDirectory
        by_cases hname : name = destination.name
        · subst hname
          simp
        · simp [Function.update_of_ne hname]
      refine ⟨?_, hnone, hfree, identity, files, ?_, heq⟩
      · intro name node hnode
        rw [heq, Function.update_of_ne]
        · exact hholds.keeps name node hnode
        · rintro rfl
          rw [hnone] at hnode
          cases hnode
      · refine ⟨hprogress.published, hprogress.names, ?_, ?_⟩
        · have horder := hprogress.order
          rwa [List.map_nil, List.append_nil] at horder
        · rw [hprogress.total]
          exact hprogress.within

/-! ### One package -/

/-- A work directory that nobody else uses: every call succeeds if it can, `pip` writes the given
files and exits with the given code, and new directories have the inode 1. -/
def calmAnswer (exitCode : Int) (produced : List (String × Node)) (w : World) :
    (call : DownloadCall) → Option (Except DownloadError call.Answer × World)
  | .cancel => some (.ok false, w)
  | .tokenHex => some (.ok "5eb63bbbe01eeed0", w)
  | .run _ attempt => some (.ok exitCode, w.fill attempt fun _ => produced)
  | .stagingStatus => some (.ok (w.staging, true), w)
  | .openStaging => some (.ok (), w.setHandle none true)
  | .hasHandle directory => some (.ok (w.handles directory), w)
  | .handleStatus none => some (.ok w.staging, w)
  | .handleStatus (some name) => some (statusOf (w.entries name), w)
  | .closeHandle directory => some (.ok (), w.setHandle directory false)
  | .status name => some (statusOf (w.entries name), w)
  | .mkdir name =>
      match w.entries name with
      | none => some (.ok (), w.put name (some (.directory 1 [])))
      | some _ => some (.error .fileExists, w)
  | .openDirectory name =>
      match w.entries name with
      | some (.directory _ _) => some (.ok (), w.setHandle (some name) true)
      | _ => none
  | .rmdir name =>
      match w.entries name with
      | some (.directory _ []) => some (.ok (), w.put name none)
      | _ => none
  | .clear name => some (.ok (), w.fill name clearEntries)
  | .listdir name =>
      match w.entries name with
      | some (.directory _ entries) => some (.ok (entries.map Prod.fst), w)
      | _ => none
  | .entryStatus directory name => some (statusOf (w.entry directory name), w)
  | .openEntry directory name =>
      match w.entry directory name with
      | some node => some (.ok node.status, w)
      | none => none
  | .readEntry directory name =>
      match w.entry directory name with
      | some (.file _ _ content) => some (.ok content, w)
      | _ => none
  | .createEntry directory name =>
      match w.entry directory name with
      | none => some (.ok ⟨.regular, 2, 1⟩,
          w.fill directory fun entries => entries ++ [(name, .file 2 1 [])])
      | some _ => none
  | .writeEntry directory name content =>
      some (.ok (), w.fill directory (writeContent name content))
  | .renameNoReplace source target =>
      match w.entries source, w.entries target with
      | some node, none => some (.ok (), (w.put source none).put target (some node))
      | _, _ => none
  | .acquireThread => some (.ok true, w)
  | .openLock =>
      match w.entries transactionLockFilename with
      | none => some (.ok (⟨.regular, 3, 1⟩, true), w.addLock (.file 3 1 []))
      | some node => some (.ok (node.status, true), w)
  | .waitLock => some (.ok true, w)
  | .closeLock => some (.ok (), w)
  | _ => none

theorem calmAnswer_step {exitCode : Int} {produced : List (String × Node)} {w w' : World}
    {call : DownloadCall} {r : Except DownloadError call.Answer}
    (h : calmAnswer exitCode produced w call = some (r, w')) :
    Step w call r w' := by
  cases call with
  | handleStatus directory =>
      cases directory <;> cases h <;> exact ⟨rfl, rfl⟩
  | mkdir name =>
      simp only [calmAnswer] at h
      split at h
      · next hnone =>
          cases h
          exact .inl ⟨hnone, rfl, 1, rfl⟩
      · next node hnode =>
          cases h
          exact .inr (.inl ⟨by rw [hnode]; exact nofun, rfl, rfl⟩)
  | openDirectory name =>
      simp only [calmAnswer] at h
      split at h
      · next identity entries hname =>
          cases h
          exact .inl ⟨identity, entries, hname, rfl, rfl⟩
      · cases h
  | rmdir name =>
      simp only [calmAnswer] at h
      split at h
      · next identity hname =>
          cases h
          simp [Step, hname]
      · cases h
  | listdir name =>
      simp only [calmAnswer] at h
      split at h
      · next identity entries hname =>
          cases h
          exact .inl ⟨identity, entries, hname, rfl, rfl⟩
      · cases h
  | openEntry directory name =>
      simp only [calmAnswer] at h
      split at h
      · next node hnode =>
          cases h
          exact .inl ⟨node, hnode, rfl, rfl⟩
      · cases h
  | readEntry directory name =>
      simp only [calmAnswer] at h
      split at h
      · next identity links content hnode =>
          cases h
          exact .inl ⟨identity, links, content, hnode, rfl, rfl⟩
      · cases h
  | createEntry directory name =>
      simp only [calmAnswer] at h
      split at h
      · next hnone =>
          cases h
          exact .inl ⟨2, hnone, rfl, rfl⟩
      · cases h
  | renameNoReplace source target =>
      simp only [calmAnswer] at h
      split at h
      · next node hsource htarget =>
          cases h
          exact .inl ⟨node, hsource, htarget, rfl, rfl⟩
      · cases h
  | openLock =>
      simp only [calmAnswer] at h
      split at h
      · next hnone =>
          cases h
          exact .inr (.inl ⟨3, true, hnone, rfl, rfl⟩)
      · next node hnode =>
          cases h
          exact .inl ⟨node, true, hnode, rfl, rfl⟩
  | cancel | waitLock => cases h; rfl
  | run argv attempt =>
      cases h
      exact ⟨produced, rfl⟩
  | tokenHex | stagingStatus | acquireThread =>
      cases h
      exact ⟨rfl, _, rfl⟩
  | openStaging | writeEntry directory name content =>
      cases h
      exact .inl ⟨rfl, rfl⟩
  | rmtree name => cases h
  | hasHandle | closeHandle | status | clear | entryStatus | closeLock =>
      cases h
      exact ⟨rfl, rfl⟩

/-- The version `1`. -/
def versionOne : WheelForge.Pep440.Version :=
  ⟨0, [1], none, none, none, none, List.cons_ne_nil _ _⟩

/-- A downloader with the answers of the libraries on the package `demo`; the digest is the one of
the bytes `PK`. -/
def demoDownloader : WheelDownloader where
  limits := ⟨1, 10, 10, by decide, by decide, by decide⟩
  workDirectory := "/work"
  executable := "/usr/bin/python3"
  packaging := {
    version := fun text => if text = "1" then some versionOne else none
    requirement := fun _ => .error .invalidRequirement
    marker := fun _ => .error .invalidRequirement
    specifier := fun _ => none
    specifierSet := fun _ => none
    contains := fun _ _ => false
    canonicalizeName := fun name => name
    parseWheelFilename := fun filename =>
      if filename = "demo-1-py3-none-any.whl" then
        some ("demo", versionOne, [⟨"py3", "none", "any"⟩])
      else none
    repr := fun text => "'" ++ text ++ "'" }
  validateName name := some name
  sha256 content :=
    if content = [80, 75] then "fcab7fcc2b4cffd9bb45003bfc2e468a04ef6f77ca8200a7341f027631584d25"
    else "e3b0c44298fc1c149afbf4c8996fb92427ae41e4649b934ca495991b7852b855"
  lower text := text
  casefold text := text
  tagText tag := tag.interpreter ++ "-" ++ tag.abi ++ "-" ++ tag.platform

def demoPackage : ResolvedPackage where
  name := "demo"
  version := versionOne
  requested := true
  artifactUrl := "https://pypi.org/demo-1-py3-none-any.whl"
  wheelFilename := "demo-1-py3-none-any.whl"
  requiresDist := []
  requiresPython := none
  archiveHashes := []

def demoDestination : Destination := ⟨false, true, true, "wheels"⟩

/-- An empty work directory. -/
def emptyWork : World := ⟨⟨.directory, 0, 2⟩, fun _ => none, fun _ => none, fun _ => false⟩

/-- The download of the package where `pip` writes some files and exits with a code. -/
def demoRun (exitCode : Int) (produced : List (String × Node)) :
    Option (Except DownloadError (List DownloadedWheel) × World) :=
  replay (calmAnswer exitCode produced)
    (demoDownloader.downloadPackages [demoPackage] linuxTarget demoDestination) emptyWork

theorem demoRun_run {exitCode : Int} {produced : List (String × Node)}
    {x : Except DownloadError (List DownloadedWheel)} {t : World}
    (h : demoRun exitCode produced = some (x, t)) :
    Run Step (demoDownloader.downloadPackages [demoPackage] linuxTarget demoDestination)
      emptyWork x t := by
  apply replay_run _ h
  intro w call r w' hanswer
  exact calmAnswer_step hanswer

/-- Where `pip` writes the wheel at the first source it is committed, and where `pip` fails at every
source the lock file alone is left. -/
theorem demo_committed :
    (∃ wheels t,
      Run Answers (demoDownloader.downloadPackages [demoPackage] linuxTarget demoDestination)
        emptyWork (.ok wheels) t ∧
      wheels.map DownloadedWheel.filename = ["demo-1-py3-none-any.whl"] ∧
      ∃ identity files, CommittedFiles demoDownloader [demoPackage] wheels files ∧
        t.entries = Function.update t.others "wheels" (some (.directory identity files))) ∧
    ∃ message t,
      Run Answers (demoDownloader.downloadPackages [demoPackage] linuxTarget demoDestination)
        emptyWork (.error (.download message)) t ∧
      t.entries = t.others ∧ ∀ name, name ≠ transactionLockFilename → t.entries name = none := by
  constructor
  · have hreturned : (returned (demoRun 0 [("demo-1-py3-none-any.whl", .file 7 1 [80, 75])])).map
        (·.map DownloadedWheel.filename) = some ["demo-1-py3-none-any.whl"] := by decide +kernel
    obtain ⟨wheels, hwheels, hfilenames⟩ := Option.map_eq_some_iff.1 hreturned
    obtain ⟨t, hreplay⟩ := exists_of_returned hwheels
    have hrun := run_answers (demoRun_run hreplay)
    obtain ⟨-, -, -, identity, files, hfiles, hentries⟩ := download_commits_or_cleans_up rfl hrun
    exact ⟨wheels, t, hrun, hfilenames, identity, files, hfiles, hentries⟩
  · -- every source is tried, and its attempt removed
    have hraised : raised (demoRun 1 [("demo-1-py3-none-any.whl", .file 7 1 [80])]) =
        some (.download ("could not download demo==1 from configured sources: " ++
          "TSINGHUA: pip exited with 1; ALIYUN: pip exited with 1; PYPI: pip exited with 1")) := by
      decide +kernel
    obtain ⟨t, hreplay⟩ := exists_of_raised hraised
    have hrun := demoRun_run hreplay
    obtain ⟨-, hentries⟩ := download_commits_or_cleans_up rfl (run_answers hrun)
    exact ⟨_, t, run_answers hrun, hentries, fun name hname =>
      failed_download_restores rfl hrun hname⟩

end Runs

end WheelForge.Download
