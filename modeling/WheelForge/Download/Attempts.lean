import WheelForge.Download.Wheels

/-!
# Attempts

The directories that the downloader makes in the work directory and removes again. `Ends` is the form
of every postcondition, `Keeps` is about the parts that only look, and `createAttempt_ends` and
`removeAttempt_ends` say what a new attempt adds and that its removal leaves nothing of it.
-/

set_option autoImplicit false

namespace WheelForge.Download

open WheelForge.Build (DownloadedWheel)
open WheelForge.Interaction WheelForge.Interaction.Program
open WheelForge.Resolver (PackageSource ResolvedPackage)
open WheelForge.Target (TargetProfile)

/-! ## Ends -/

/-- How a program ends: with a value, or with whatever exception. -/
def Ends {α : Type} (ok : World → α → Prop) (failed : World → Prop) :
    World → Except DownloadError α → Prop
  | t, .ok a => ok t a
  | t, .error _ => failed t

section Rules

variable {α β : Type} {w : World} {failed : World → Prop}

theorem Ends.mono {ok ok' : World → α → Prop} {failed' : World → Prop} {p : DownloadProgram α}
    (h : Ensures p w (Ends ok failed)) (hok : ∀ t a, ok t a → ok' t a)
    (hfailed : ∀ t, failed t → failed' t) : Ensures p w (Ends ok' failed') := by
  apply Meets.mono h
  rintro t (error | a) ht
  · exact hfailed t ht
  · exact hok t a ht

theorem ends_bind {ok : World → β → Prop} {p : DownloadProgram α} {f : α → DownloadProgram β}
    (h : Ensures p w (Ends (fun t a => Ensures (f a) t (Ends ok failed)) failed)) :
    Ensures (p >>= f) w (Ends ok failed) := by
  apply meets_bind.2
  apply h.mono
  rintro t (error | a) ht <;> exact ht

/-- A first part that keeps what the rest needs. -/
theorem ends_then {ok : World → β → Prop} {between : World → α → Prop} {failed' : World → Prop}
    {p : DownloadProgram α} {f : α → DownloadProgram β}
    (h : Ensures p w (Ends between failed'))
    (hf : ∀ t a, between t a → Ensures (f a) t (Ends ok failed))
    (hfailed : ∀ t, failed' t → failed t) : Ensures (p >>= f) w (Ends ok failed) :=
  ends_bind (Ends.mono h hf hfailed)

/-- `ends_then` with the conditions in between written out. -/
theorem ends_through {ok : World → β → Prop} {p : DownloadProgram α} {f : α → DownloadProgram β}
    (between : World → α → Prop) (failed' : World → Prop) (h : Ensures p w (Ends between failed'))
    (hf : ∀ t a, between t a → Ensures (f a) t (Ends ok failed))
    (hfailed : ∀ t, failed' t → failed t) : Ensures (p >>= f) w (Ends ok failed) :=
  ends_then h hf hfailed

theorem ends_handle {ok : World → α → Prop} {p : DownloadProgram α}
    {h : DownloadError → DownloadProgram α}
    (hp : Ensures p w (Ends ok fun t => ∀ error, Ensures (h error) t (Ends ok failed))) :
    Ensures (handle p h) w (Ends ok failed) := by
  apply meets_handle.2
  apply hp.mono
  rintro t (error | a) ht
  · exact ht error
  · exact ht

theorem ends_onOSError {ok : World → α → Prop} {p : DownloadProgram α} {message : String}
    (h : Ensures p w (Ends ok failed)) : Ensures (onOSError p message) w (Ends ok failed) := by
  apply ends_handle
  apply h.mono
  rintro t (error | a) ht
  · intro other
    split <;> exact ht
  · exact ht

theorem ends_raiseWhen {ok : World → Unit → Prop} {condition : Prop} [Decidable condition]
    {error : DownloadError} (hok : ¬condition → ok w ()) (hfailed : condition → failed w) :
    Ensures (raiseWhen condition error) w (Ends ok failed) := by
  unfold raiseWhen
  split
  · next h => exact hfailed h
  · next h => exact hok h

theorem ends_attempt {ok : World → Except DownloadError α → Prop} {p : DownloadProgram α}
    (h : Ensures p w (Ends (fun t a => ok t (.ok a)) fun t => ∀ error, ok t (.error error))) :
    Ensures (attempt p) w (Ends ok failed) := by
  apply meets_attempt.2
  apply h.mono
  rintro t (error | a) ht
  · exact ht error
  · exact ht

/-- A clean-up that does not fail by itself. -/
theorem ends_ensuring {ok : World → α → Prop} {p : DownloadProgram α}
    {cleanup : DownloadProgram Unit}
    (h : Ensures p w (Ends (fun t a => Ensures cleanup t (Ends (fun u _ => ok u a) fun _ => False))
      fun t => Ensures cleanup t (Ends (fun u _ => failed u) fun _ => False))) :
    Ensures (ensuring p cleanup) w (Ends ok failed) := by
  apply meets_ensuring.2
  apply h.mono
  rintro t (error | a) ht
  · apply Meets.mono ht
    rintro u (other | _) hu
    · cases hu
    · exact hu
  · apply Meets.mono ht
    rintro u (other | _) hu
    · cases hu
    · exact hu

/-- The loop rule for one kind of failure. -/
theorem ends_loop {γ : Type} {body : β → γ → DownloadProgram β} {I : List γ → β → World → Prop}
    (hbody : ∀ c cs b t, I (c :: cs) b t →
      Ensures (body b c) t (Ends (fun u b' => I cs b' u) failed))
    {cs : List γ} {b : β} (h : I cs b w) :
    Ensures (loop body cs b) w (Ends (fun t b' => I [] b' t) failed) := by
  refine Meets.mono (meets_loop (I := I) (E := fun t _ => failed t) ?_ h) ?_
  · intro c cs b t ht
    apply (hbody c cs b t ht).mono
    rintro u (error | b') hu <;> exact hu
  · rintro t (error | b') ht <;> exact ht

/-- What a program yields however its calls are answered holds besides. -/
theorem ends_yields {ok : World → α → Prop} {fact : α → Prop} {p : DownloadProgram α}
    (h : Ensures p w (Ends ok failed)) (hp : Yields p fact) :
    Ensures p w (Ends (fun t a => ok t a ∧ fact a) failed) := by
  apply (h.and hp.meets).mono
  rintro t (error | a) ⟨ht, hfact⟩
  · exact ht
  · exact ⟨ht, hfact a rfl⟩

end Rules

/-! ## Parts that only look -/

/-- The calls that change no entry. -/
def DownloadCall.isQuiet : DownloadCall → Bool
  | .run _ _ | .mkdir _ | .rmdir _ | .clear _ | .rmtree _ | .createEntry _ _ | .writeEntry _ _ _
  | .renameNoReplace _ _ | .openLock => false
  | _ => true

theorem quiet_step {w w' : World} {call : DownloadCall} {r : Except DownloadError call.Answer}
    (hquiet : call.isQuiet = true) (h : Step w call r w') :
    ∃ handles, w' = { w with handles } := by
  cases call with
  | cancel => exact ⟨w.handles, h⟩
  | tokenHex => exact ⟨w.handles, h.1⟩
  | stagingStatus => exact ⟨w.handles, h.1⟩
  | openStaging =>
      obtain ⟨rfl, -⟩ | ⟨rfl, -⟩ := h
      · exact ⟨_, rfl⟩
      · exact ⟨_, rfl⟩
  | hasHandle directory => exact ⟨w.handles, h.1⟩
  | handleStatus directory => cases directory <;> exact ⟨w.handles, h.1⟩
  | closeHandle directory => exact ⟨_, h.1⟩
  | status name => exact ⟨w.handles, h.1⟩
  | openDirectory name =>
      obtain ⟨-, -, -, rfl, -⟩ | ⟨rfl, -⟩ := h
      · exact ⟨_, rfl⟩
      · exact ⟨_, rfl⟩
  | listdir name =>
      obtain ⟨-, -, -, rfl, -⟩ | ⟨rfl, -⟩ := h <;> exact ⟨_, rfl⟩
  | entryStatus directory name => exact ⟨w.handles, h.1⟩
  | openEntry directory name =>
      obtain ⟨-, -, rfl, -⟩ | ⟨rfl, -⟩ := h <;> exact ⟨_, rfl⟩
  | readEntry directory name =>
      obtain ⟨-, -, -, -, rfl, -⟩ | ⟨rfl, -⟩ := h <;> exact ⟨_, rfl⟩
  | acquireThread => exact ⟨w.handles, h.1⟩
  | waitLock => exact ⟨w.handles, h⟩
  | closeLock => exact ⟨w.handles, h.1⟩
  | run | mkdir | rmdir | clear | rmtree | createEntry | writeEntry | renameNoReplace | openLock =>
      cases hquiet

section Keeping

variable {staging : Status} {base ours : Listing} {w : World} {α β : Type}

/-- The program keeps which entries are whose. -/
def Keeps (staging : Status) (base ours : Listing) (p : DownloadProgram α) : Prop :=
  ∀ w, Holds staging base ours w →
    Ensures p w (Ends (fun t _ => Holds staging base ours t) fun t => Holds staging base ours t)

theorem keeps_pure (a : α) : Keeps staging base ours (pure a) := fun _ h => h

theorem keeps_raise (error : DownloadError) :
    Keeps staging base ours (.raise error : DownloadProgram α) :=
  fun _ h => h

theorem Keeps.bind {p : DownloadProgram α} {f : α → DownloadProgram β}
    (hp : Keeps staging base ours p) (hf : ∀ a, Keeps staging base ours (f a)) :
    Keeps staging base ours (p >>= f) :=
  fun w h => ends_then (hp w h) (fun t a ht => hf a t ht) fun _ ht => ht

theorem Keeps.handle {p : DownloadProgram α} {f : DownloadError → DownloadProgram α}
    (hp : Keeps staging base ours p) (hf : ∀ error, Keeps staging base ours (f error)) :
    Keeps staging base ours (Program.handle p f) :=
  fun w h => ends_handle (Ends.mono (hp w h) (fun _ _ ht => ht) fun t ht error => hf error t ht)

theorem Keeps.onOSError {p : DownloadProgram α} (hp : Keeps staging base ours p)
    (message : String) : Keeps staging base ours (onOSError p message) :=
  fun w h => ends_onOSError (hp w h)

theorem keeps_raiseWhen (condition : Prop) [Decidable condition] (error : DownloadError) :
    Keeps staging base ours (raiseWhen condition error) :=
  fun _ h => ends_raiseWhen (fun _ => h) fun _ => h

theorem Keeps.attempt {p : DownloadProgram α} (hp : Keeps staging base ours p) :
    Keeps staging base ours (Program.attempt p) :=
  fun w h => ends_attempt (Ends.mono (hp w h) (fun _ _ ht => ht) fun _ ht _ => ht)

theorem keeps_perform {call : DownloadCall} (hquiet : call.isQuiet = true) :
    Keeps staging base ours (perform call) := by
  intro w h
  apply ensures_perform h
  intro w₁ r w₂ h₁ hstep
  obtain ⟨handles, rfl⟩ := quiet_step hquiet hstep
  have hkept : Holds staging base ours { w₁ with handles } :=
    ⟨h₁.staging_eq, h₁.entries, h₁.free, h₁.keeps⟩
  cases r <;> exact hkept

theorem keeps_raiseIfCancelled : Keeps staging base ours raiseIfCancelled :=
  (keeps_perform rfl).bind fun _ => keeps_raiseWhen _ _

/-- A call that looks, succeeds and is answered by `answer`. -/
def Shows (staging : Status) (base ours : Listing) (call : DownloadCall)
    (fact : call.Answer → Prop) : Prop :=
  call.isQuiet = true ∧
    ∀ w r w', Holds staging base ours w → Step w call r w' → ∃ a, r = .ok a ∧ fact a

theorem Shows.ends {call : DownloadCall} {fact : call.Answer → Prop}
    (hcall : Shows staging base ours call fact) (h : Holds staging base ours w)
    (failed : World → Prop) :
    Ensures (perform call) w
      (Ends (fun t a => Holds staging base ours t ∧ fact a) failed) := by
  apply ensures_perform h
  intro w₁ r w₂ h₁ hstep
  obtain ⟨a, rfl, ha⟩ := hcall.2 w₁ r w₂ h₁ hstep
  obtain ⟨handles, rfl⟩ := quiet_step hcall.1 hstep
  exact ⟨⟨h₁.staging_eq, h₁.entries, h₁.free, h₁.keeps⟩, ha⟩

/-- A call that looks, and what follows it. -/
theorem Shows.next {call : DownloadCall} {fact : call.Answer → Prop}
    (hcall : Shows staging base ours call fact) (h : Holds staging base ours w)
    {f : call.Answer → DownloadProgram β} {ok : World → β → Prop} {failed : World → Prop}
    (hf : ∀ t a, Holds staging base ours t → fact a → Ensures (f a) t (Ends ok failed)) :
    Ensures (perform call >>= f) w (Ends ok failed) :=
  ends_then (hcall.ends h failed) (fun t a ht => hf t a ht.1 ht.2) fun _ ht => ht

theorem Shows.nextOnOSError {call : DownloadCall} {fact : call.Answer → Prop}
    (hcall : Shows staging base ours call fact) (h : Holds staging base ours w) {message : String}
    {f : call.Answer → DownloadProgram β} {ok : World → β → Prop} {failed : World → Prop}
    (hf : ∀ t a, Holds staging base ours t → fact a → Ensures (f a) t (Ends ok failed)) :
    Ensures (onOSError (perform call) message >>= f) w (Ends ok failed) :=
  ends_then (ends_onOSError (hcall.ends h failed)) (fun t a ht => hf t a ht.1 ht.2) fun _ ht => ht

theorem raiseWhen_of_not {condition : Prop} [Decidable condition] (h : ¬condition)
    (error : DownloadError) : raiseWhen condition error = pure () := if_neg h

theorem shows_stagingStatus :
    Shows staging base ours .stagingStatus fun answer => answer.1 = staging := by
  refine ⟨rfl, ?_⟩
  rintro w r w' h ⟨-, isPrivate, rfl⟩
  exact ⟨_, rfl, h.staging_eq⟩

theorem shows_hasHandle (directory : Handle) :
    Shows staging base ours (.hasHandle directory) fun _ => True := by
  refine ⟨rfl, ?_⟩
  rintro w r w' h ⟨-, rfl⟩
  exact ⟨_, rfl, trivial⟩

theorem shows_closeHandle (directory : Handle) :
    Shows staging base ours (.closeHandle directory) fun _ => True := by
  refine ⟨rfl, ?_⟩
  rintro w r w' h ⟨-, rfl⟩
  exact ⟨_, rfl, trivial⟩

theorem shows_closeLock : Shows staging base ours .closeLock fun _ => True := by
  refine ⟨rfl, ?_⟩
  rintro w r w' h ⟨-, rfl⟩
  exact ⟨_, rfl, trivial⟩

theorem shows_stagingHandle :
    Shows staging base ours (.handleStatus none) fun answer => answer = staging := by
  refine ⟨rfl, ?_⟩
  rintro w r w' h ⟨-, rfl⟩
  exact ⟨_, rfl, h.staging_eq⟩

/-- An own entry is what it was. -/
theorem shows_status {name : String} {node : Node} (hname : ours name = some node) :
    Shows staging base ours (.status name) fun answer => answer = node.status := by
  refine ⟨rfl, ?_⟩
  rintro w r w' h ⟨-, rfl⟩
  rw [h.entries_own hname]
  exact ⟨_, rfl, rfl⟩

theorem shows_handleStatus {name : String} {node : Node} (hname : ours name = some node) :
    Shows staging base ours (.handleStatus (some name)) fun answer => answer = node.status := by
  refine ⟨rfl, ?_⟩
  rintro w r w' h ⟨-, rfl⟩
  rw [h.entries_own hname]
  exact ⟨_, rfl, rfl⟩

/-- The work directory is what it was when it was bound. -/
theorem revalidateStaging_ends (hdir : staging.kind = .directory) (h : Holds staging base ours w)
    (failed : World → Prop) : Ensures (revalidateStaging staging.identity) w
      (Ends (fun t _ => Holds staging base ours t) failed) := by
  have hsame : ¬(staging.kind ≠ .directory ∨ staging.identity ≠ staging.identity) := by
    simp [hdir]
  unfold revalidateStaging
  apply shows_stagingStatus.nextOnOSError h
  rintro t ⟨status, isPrivate⟩ ht hstatus
  dsimp only at hstatus ⊢
  rw [hstatus, raiseWhen_of_not hsame]
  apply (shows_hasHandle none).next ht
  intro t isOpen ht _
  cases isOpen with
  | false => exact ht
  | true =>
      apply shows_stagingHandle.nextOnOSError ht
      rintro t handle ht rfl
      rw [raiseWhen_of_not hsame]
      exact ht

/-- An own directory is what it was when it was bound. -/
theorem revalidate_ends (hdir : staging.kind = .directory) (h : Holds staging base ours w)
    {binding : AttemptBinding} {entries : List (String × Node)}
    (hours : ours binding.name = some (.directory binding.identity entries))
    (failed : World → Prop) : Ensures (binding.revalidate staging.identity) w
      (Ends (fun t _ => Holds staging base ours t) failed) := by
  have hsame : ¬((Node.directory binding.identity entries).status.kind ≠ .directory ∨
      (Node.directory binding.identity entries).status.identity ≠ binding.identity) := by
    simp [Node.status]
  unfold AttemptBinding.revalidate
  apply ends_then (revalidateStaging_ends hdir h failed) _ fun _ ht => ht
  intro t _ ht
  apply (shows_status hours).nextOnOSError ht
  rintro t status ht rfl
  rw [raiseWhen_of_not hsame]
  apply (shows_hasHandle _).next ht
  intro t isOpen ht _
  cases isOpen with
  | false => exact ht
  | true =>
      apply (shows_handleStatus hours).nextOnOSError ht
      rintro t handle ht rfl
      rw [raiseWhen_of_not hsame]
      exact ht

theorem closeIfOpen_ends (directory : Handle) (h : Holds staging base ours w)
    (failed : World → Prop) :
    Ensures (closeIfOpen directory) w (Ends (fun t _ => Holds staging base ours t) failed) := by
  unfold closeIfOpen
  apply (shows_hasHandle _).next h
  intro t isOpen ht _
  cases isOpen with
  | false => exact ht
  | true => exact Ends.mono ((shows_closeHandle _).ends ht failed) (fun _ _ hu => hu.1) fun _ => id

/-! ## Making and removing attempts -/

/-- The listing with a directory of the binding's name and identity. -/
def withDirectory (ours : Listing) (binding : AttemptBinding) (entries : List (String × Node)) :
    Listing :=
  Function.update ours binding.name (some (.directory binding.identity entries))

variable {binding : AttemptBinding} {entries : List (String × Node)}

theorem withDirectory_own : withDirectory ours binding entries binding.name =
    some (.directory binding.identity entries) := Function.update_self ..

theorem withDirectory_removed (hname : ours binding.name = none) :
    Function.update (withDirectory ours binding entries) binding.name none = ours := by
  unfold withDirectory
  rw [Function.update_idem, ← hname, Function.update_eq_self]

/-- An own empty directory is removed. -/
theorem rmdir_ends (hname : ours binding.name = none)
    (h : Holds staging base (withDirectory ours binding []) w) (failed : World → Prop) :
    Ensures (perform (.rmdir binding.name)) w
      (Ends (fun t _ => Holds staging base ours t) failed) := by
  apply ensures_perform h
  intro w₁ r w₂ h₁ hstep
  simp only [Step, h₁.entries_own withDirectory_own] at hstep
  obtain ⟨rfl, rfl⟩ := hstep
  have hput := h₁.put none (h₁.free binding.name (by rw [withDirectory_own]; exact nofun))
  rw [withDirectory_removed hname] at hput
  exact hput

theorem discardAttempt_ends (hname : ours binding.name = none)
    (h : Holds staging base (withDirectory ours binding []) w) (failed : World → Prop) :
    Ensures (discardAttempt binding.name) w
      (Ends (fun t _ => Holds staging base ours t) failed) := by
  unfold discardAttempt
  apply ends_then (closeIfOpen_ends _ h failed) _ fun _ ht => ht
  intro t _ ht
  apply ends_through (fun t r => Holds staging base ours t ∧ r = .ok ()) fun _ => False
  · apply ends_attempt
    exact Ends.mono (rmdir_ends hname ht fun _ => False) (fun _ _ hu => ⟨hu, rfl⟩) nofun
  · rintro t r ⟨ht, rfl⟩
    exact ht
  · exact nofun

/-- A new directory is bound, or it is discarded. -/
theorem bindAttempt_ends (hname : ours binding.name = none)
    (h : Holds staging base (withDirectory ours binding []) w) :
    Ensures (bindAttempt binding.name) w
      (Ends (fun t found => found = binding ∧ Holds staging base (withDirectory ours binding []) t)
        fun t => Holds staging base ours t) := by
  have hown : withDirectory ours binding [] binding.name = some (.directory binding.identity []) :=
    withDirectory_own
  have hdiscard : ∀ t, Holds staging base (withDirectory ours binding []) t → ∀ error,
      Ensures (do discardAttempt binding.name; .raise error : DownloadProgram AttemptBinding) t
        (Ends (fun t found => found = binding ∧
            Holds staging base (withDirectory ours binding []) t)
          fun t => Holds staging base ours t) := by
    intro t ht error
    exact ends_then (discardAttempt_ends hname ht fun _ => False) (fun _ _ hu => hu) nofun
  unfold bindAttempt
  apply ends_handle
  apply (shows_status hown).next h
  rintro t status ht rfl
  apply ends_through (fun t _ => Holds staging base (withDirectory ours binding []) t)
    fun t => Holds staging base (withDirectory ours binding []) t
  · exact keeps_perform rfl t ht
  · intro t _ ht
    apply (shows_handleStatus hown).next ht
    rintro t handle ht rfl
    rw [raiseWhen_of_not (by simp [Node.status])]
    exact ⟨rfl, ht⟩
  · exact hdiscard

/-- An attempt is made under a free name. -/
theorem createAttempt_ends (stem : String) (h : Holds staging base ours w) :
    Ensures (createAttempt stem) w
      (Ends (fun t found => ours found.name = none ∧
          Holds staging base (withDirectory ours found []) t)
        fun t => Holds staging base ours t) := by
  have hloop : ∀ tries w, Holds staging base ours w → Ensures (createAttemptLoop stem tries) w
      (Ends (fun t found => ours found.name = none ∧
          Holds staging base (withDirectory ours found []) t)
        fun t => Holds staging base ours t) := by
    intro tries
    induction tries with
    | zero => exact fun _ h => h
    | succ tries ih =>
        intro w h
        unfold createAttemptLoop
        apply ends_then (keeps_perform rfl w h) _ fun _ ht => ht
        intro t token ht
        -- the directory is made, or nothing is
        apply ends_through (fun t r =>
          match r with
          | .ok _ => ∃ binding : AttemptBinding, binding.name = stem ++ token ∧
              ours binding.name = none ∧ Holds staging base (withDirectory ours binding []) t
          | .error _ => Holds staging base ours t) fun _ => False
        · apply ends_attempt
          apply ensures_perform ht
          intro w₁ r w₂ h₁ hstep
          obtain ⟨hnone, rfl, identity, rfl⟩ | ⟨-, rfl, rfl⟩ | ⟨rfl, error, rfl, -⟩ := hstep
          · obtain ⟨hours, hothers⟩ := h₁.of_entries_none hnone
            exact ⟨⟨stem ++ token, identity⟩, rfl, hours, h₁.put _ hothers⟩
          · exact fun _ => h₁
          · exact fun _ => h₁
        · rintro t (error | _) ht
          · dsimp only at ht ⊢
            split
            · exact ih t ht
            · split <;> exact ht
            · contradiction
          · obtain ⟨binding, hstem, hname, ht⟩ := ht
            rw [← hstem]
            apply Ends.mono (bindAttempt_ends hname ht)
            · rintro u found ⟨rfl, hu⟩
              exact ⟨hname, hu⟩
            · exact fun _ hu => hu
        · exact nofun
  exact hloop 100 w h

theorem clear_ends (h : Holds staging base (withDirectory ours binding entries) w)
    (failed : World → Prop) : Ensures (perform (.clear binding.name)) w
      (Ends (fun t _ => Holds staging base (withDirectory ours binding []) t) failed) := by
  apply ensures_perform h
  rintro w₁ r w₂ h₁ ⟨rfl, rfl⟩
  have hfill := h₁.fill withDirectory_own clearEntries
  rw [clearEntries_eq_nil] at hfill
  unfold withDirectory at hfill
  rw [Function.update_idem] at hfill
  exact hfill

theorem rmtree_ends (hname : ours binding.name = none)
    (h : Holds staging base (withDirectory ours binding entries) w) (failed : World → Prop) :
    Ensures (perform (.rmtree binding.name)) w
      (Ends (fun t _ => Holds staging base ours t) failed) := by
  apply ensures_perform h
  intro w₁ r w₂ h₁ hstep
  simp only [Step, h₁.entries_own withDirectory_own, clearEntries_eq_nil] at hstep
  obtain ⟨rfl, rfl⟩ := hstep
  have hput := h₁.put none (h₁.free binding.name (by rw [withDirectory_own]; exact nofun))
  rw [withDirectory_removed hname] at hput
  exact hput

/-- An attempt is removed with all that is in it, whether its handle is open or not. -/
theorem removeAttempt_ends (hdir : staging.kind = .directory) (hname : ours binding.name = none)
    (h : Holds staging base (withDirectory ours binding entries) w) (failed : World → Prop) :
    Ensures (removeAttempt staging.identity binding) w
      (Ends (fun t _ => Holds staging base ours t) failed) := by
  have hown : ∀ {entries}, withDirectory ours binding entries binding.name =
      some (.directory binding.identity entries) := withDirectory_own
  have hgone : ∀ t, Holds staging base ours t →
      Ensures (perform (.closeHandle (some binding.name))) t
        (Ends (fun t _ => Holds staging base ours t) failed) :=
    fun t ht => Ends.mono ((shows_closeHandle _).ends ht failed) (fun _ _ hu => hu.1) fun _ => id
  unfold removeAttempt
  apply meets_ensuring.2
  apply Meets.mono (Q := Ends (fun t _ => Holds staging base ours t) fun _ => False)
  · apply (shows_hasHandle none).next h
    intro t root ht _
    apply (shows_hasHandle _).next ht
    intro t own ht _
    split
    · -- through the handle
      apply ends_handle
      apply (shows_status hown).next ht
      rintro t status ht rfl
      rw [if_pos ⟨rfl, rfl⟩]
      apply ends_then (clear_ends ht fun _ => False) _ nofun
      intro t _ ht
      apply (shows_status hown).next ht
      rintro t status ht rfl
      rw [if_pos (show (Node.directory binding.identity []).status.identity = binding.identity
        from rfl)]
      exact Ends.mono (rmdir_ends hname ht fun _ => False) (fun _ _ hu => hu) nofun
    · -- through the path
      apply ends_through (fun t r =>
        Holds staging base (withDirectory ours binding entries) t ∧ r = .ok ()) fun _ => False
      · apply ends_attempt
        exact Ends.mono (revalidate_ends hdir ht hown fun _ => False) (fun _ _ hu => ⟨hu, rfl⟩)
          nofun
      · rintro t r ⟨ht, rfl⟩
        exact rmtree_ends hname ht _
      · exact nofun
  · rintro t (error | _) ht
    · cases ht
    · apply (hgone t ht).mono
      rintro u (error | _) hu <;> exact hu

/-! ## The parts around the packages -/

theorem keeps_revalidateStaging (hdir : staging.kind = .directory) :
    Keeps staging base ours (revalidateStaging staging.identity) :=
  fun _ h => revalidateStaging_ends hdir h _

theorem keeps_openTransactionLock (hdir : staging.kind = .directory) :
    Keeps staging base ours (openTransactionLock staging.identity) := by
  unfold openTransactionLock
  apply (keeps_revalidateStaging hdir).bind
  intro _
  apply Keeps.bind (Keeps.onOSError ?_ _)
  · rintro ⟨status, isPrivate⟩
    exact keeps_raiseWhen _ _
  · intro w h
    apply ensures_perform h
    intro w₁ r w₂ h₁ hstep
    obtain ⟨node, isPrivate, -, rfl, rfl⟩ | ⟨identity, isPrivate, hnone, rfl, rfl⟩ |
      ⟨rfl, error, rfl, -⟩ := hstep
    · exact h₁
    · exact h₁.addLock hnone
    · exact h₁

theorem keeps_acquireLock (hdir : staging.kind = .directory) :
    Keeps staging base ours (acquireLock staging.identity) := by
  unfold acquireLock
  apply (keeps_perform rfl).bind
  intro acquired
  apply (keeps_raiseWhen _ _).bind
  intro _
  apply Keeps.handle
  · apply (keeps_openTransactionLock hdir).bind
    intro _
    apply (keeps_perform rfl).bind
    intro locked
    exact keeps_raiseWhen _ _
  · intro error
    exact (keeps_perform rfl).bind fun _ => keeps_raise error

theorem keeps_prepareDestination (hdir : staging.kind = .directory) (destination : Destination) :
    Keeps staging base ours (prepareDestination destination staging.identity) := by
  unfold prepareDestination
  apply (keeps_raiseWhen _ _).bind
  intro _
  apply (keeps_raiseWhen _ _).bind
  intro _
  apply (keeps_raiseWhen _ _).bind
  intro _
  apply (keeps_revalidateStaging hdir).bind
  intro _
  apply (Keeps.attempt (keeps_perform rfl)).bind
  intro found
  split
  · exact keeps_pure _
  · split <;> exact keeps_raise _
  · exact keeps_raise _

/-- The work directory is bound only if it is a directory. -/
theorem prepareStagingRoot_ends (h : Holds staging base ours w) :
    Ensures prepareStagingRoot w
      (Ends (fun t found => found = staging.identity ∧ staging.kind = .directory ∧
          Holds staging base ours t)
        fun t => Holds staging base ours t) := by
  unfold prepareStagingRoot
  apply shows_stagingStatus.nextOnOSError h
  rintro t ⟨status, isPrivate⟩ ht hstatus
  dsimp only at hstatus ⊢
  subst hstatus
  apply ends_through (fun t _ => status.kind = .directory ∧ Holds status base ours t)
    fun t => Holds status base ours t
  · exact ends_raiseWhen (fun hnot => ⟨by tauto, ht⟩) fun _ => ht
  · rintro t _ ⟨hdir, ht⟩
    apply ends_through (fun t handle => handle = status ∧ Holds status base ours t)
      fun t => Holds status base ours t
    · apply ends_handle
      apply ends_then (keeps_perform rfl t ht)
      · intro t _ ht
        exact Ends.mono (shows_stagingHandle.ends ht _) (fun _ _ hu => ⟨hu.2, hu.1⟩) fun _ hu => hu
      · intro t ht error
        split
        · exact ends_then (closeIfOpen_ends _ ht _) (fun _ _ hu => hu) fun _ hu => hu
        · exact ht
    · rintro t handle ⟨rfl, ht⟩
      rw [if_neg (by simp [hdir])]
      apply ends_through (fun t _ => Holds handle base ours t) fun t => Holds handle base ours t
      · apply ends_handle
        exact Ends.mono (revalidateStaging_ends hdir ht fun _ => False) (fun _ _ hu => hu) nofun
      · exact fun _ _ ht => ⟨rfl, hdir, ht⟩
      · exact fun _ hu => hu
    · exact fun _ hu => hu
  · exact fun _ hu => hu

end Keeping

end WheelForge.Download
