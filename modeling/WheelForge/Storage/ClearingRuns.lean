import WheelForge.Storage.ClearWorkspace

/-!
# Runs of interrupted passes

A pass over a workspace leaves a stack behind that names existing directories, unless it crashes
between the removal of a directory and the write of the shortened stack. From such a workspace no
pass raises, and every pass with a budget for one iteration removes an entry, enters a directory or
finds the workspace empty.
-/

set_option autoImplicit false

namespace WheelForge.Storage

open WheelForge.Interaction WheelForge.Posix WheelForge.Transition
open Interaction.Program (Meets Answered meets_bind meets_pure meets_op_answered)

/-! ## The condition -/

/-- The progress state can hold a stack and give it back. -/
def Recordable (stack : Stack) : Prop :=
  stack.length ≤ 256 ∧ allReadable stack = .ok true ∧ encodedLength stack ≤ 32768

instance : DecidablePred Recordable := fun _ => inferInstanceAs (Decidable (_ ∧ _))

/-- The latest removal of a directory, if any, was followed by a write of the stack; the calls are
listed latest first. -/
def recorded : List ClearCall → Bool
  | [] => true
  | .putProgress _ :: _ => true
  | .rmdir _ _ :: _ => false
  | _ :: calls => recorded calls

/-- The progress state can hold the path of every directory of the workspace. -/
def FitsProgress (w : WorkspaceDirectory) : Prop := ∀ path ∈ w.entries.paths, Recordable path

instance : DecidablePred FitsProgress := fun w =>
  inferInstanceAs (Decidable (∀ path ∈ w.entries.paths, Recordable path))

/-- The workspace fits its progress state, and a crash does not fall between the removal of a
directory and the write of the shortened stack. -/
def Pass.Clean (w : WorkspaceDirectory) (pass : Pass) : Prop :=
  FitsProgress w ∧ (pass.crashAfter ≠ none → recorded (pass.stopped w).calls = true)

/-- The stack names a chain of existing directories. -/
def Resumable (w : WorkspaceDirectory) : Prop := ∃ c, w.entries.opened w.stack = some c

theorem recordable_nil : Recordable [] := by decide

theorem recordable_opened {t c : Entries EntryName} {path : Stack}
    (h : ∀ p ∈ t.paths, Recordable p) (hopen : t.opened path = some c) : Recordable path := by
  by_cases hpath : path = []
  · rw [hpath]
    exact recordable_nil
  · exact h path (Entries.opened_mem_paths hopen hpath)

/-! ## Calls -/

section Calls

variable {env : Surroundings} {s : ClearState}

/-- Demanded at every call: unless a removal is not recorded yet, the workspace is resumable. -/
def CrashSafe (s : ClearState) : Prop := recorded s.calls = true → Resumable s.workspace

abbrev Throughout (s : ClearState) (_ : ClearCall) : Prop := CrashSafe s

/-- Calls that change nothing. -/
structure OnlyReads (s t : ClearState) : Prop where
  workspace : t.workspace = s.workspace
  readings : t.readings = s.readings
  recorded : recorded t.calls = recorded s.calls

theorem OnlyReads.refl (s : ClearState) : OnlyReads s s := ⟨rfl, rfl, rfl⟩

theorem OnlyReads.trans {s t u : ClearState} (h : OnlyReads s t) (h' : OnlyReads t u) :
    OnlyReads s u :=
  ⟨h'.workspace.trans h.workspace, h'.readings.trans h.readings, h'.recorded.trans h.recorded⟩

theorem OnlyReads.safe {t : ClearState} (h : OnlyReads s t) (hs : CrashSafe s) : CrashSafe t := by
  intro ht
  rw [h.workspace]
  exact hs (h.recorded ▸ ht)

/-- Opening a directory that exists. -/
theorem meets_openFrom {directory rest : Stack} {c : Entries EntryName}
    {Q : ClearState → Except ClearError Unit → Prop} (hs : CrashSafe s)
    (hopen : s.workspace.entries.opened (directory ++ rest) = some c)
    (hQ : ∀ t, OnlyReads s t → Q t (.ok ())) :
    Meets Throughout (Answered env.answer) (openFrom directory rest) s Q := by
  induction rest generalizing directory s with
  | nil => exact hQ s (OnlyReads.refl s)
  | cons part rest ih =>
      rw [List.append_cons] at hopen
      obtain ⟨d, hd⟩ := Entries.opened_prefix hopen
      obtain ⟨e, he, hfind⟩ := Entries.opened_of_append hd
      have hanswer : env.answer s (.openAt directory part)
          = (.ok (), s.logged (.openAt directory part)) := by
        simp [Surroundings.answer, ClearState.entry, he, hfind]
      have hreads : OnlyReads s (s.logged (.openAt directory part)) := ⟨rfl, rfl, rfl⟩
      apply meets_op_answered hs hanswer
      exact ih (hreads.safe hs) hopen fun t ht => hQ t (hreads.trans ht)

theorem meets_openWorkspaceStack {stack : Stack} {c : Entries EntryName}
    {Q : ClearState → Except ClearError Unit → Prop} (hs : CrashSafe s)
    (hopen : s.workspace.entries.opened stack = some c) (hQ : ∀ t, OnlyReads s t → Q t (.ok ())) :
    Meets Throughout (Answered env.answer) (openWorkspaceStack stack) s Q :=
  meets_openFrom hs hopen hQ

/-- Writing a recordable stack that names existing directories. -/
theorem meets_writeWorkspaceProgress {stack : Stack} {c : Entries EntryName}
    {Q : ClearState → Except ClearError Unit → Prop} (hs : CrashSafe s)
    (hrecordable : Recordable stack) (hopen : s.workspace.entries.opened stack = some c)
    (hQ : ∀ t, t.workspace = { s.workspace with progress := some stack } →
      recorded t.calls = true → Q t (.ok ())) :
    Meets Throughout (Answered env.answer) (writeWorkspaceProgress stack) s Q := by
  unfold writeWorkspaceProgress
  split
  · next h => exact absurd hrecordable.2.2 (Nat.not_le.2 h)
  apply meets_op_answered hs rfl
  apply Program.meets_op.2
  constructor
  · intro _
    exact ⟨c, hopen⟩
  · rintro r t hr
    obtain ⟨rfl, rfl⟩ := Prod.mk.inj hr
    exact hQ _ rfl rfl

theorem meets_mutationAvailable {stats : ClearStats} {budget : ClearBudget} {deadline : Int}
    {needed : Nat} {Q : ClearState → Except ClearError Bool → Prop} (hs : CrashSafe s)
    (hQ : ∀ t, t.workspace = s.workspace → recorded t.calls = recorded s.calls →
      Q t (.ok (env.clock s.readings < deadline &&
        stats.mutations + needed ≤ budget.maxMutations))) :
    Meets Throughout (Answered env.answer) (mutationAvailable stats budget deadline needed) s Q := by
  unfold mutationAvailable
  apply meets_op_answered hs rfl
  exact hQ _ rfl rfl

end Calls

/-! ## One iteration -/

section Iterations

variable {env : Surroundings} {s : ClearState} {stack : Stack} {stats : ClearStats}
  {budget : ClearBudget} {deadline : Int}

/-- The state at the head of the loop. -/
structure AtHead (s : ClearState) (stack : Stack) : Prop where
  persisted : s.workspace.stack = stack
  chain : ∃ c, s.workspace.entries.opened stack = some c
  recorded : recorded s.calls = true
  recordable : FitsProgress s.workspace

/-- The iterations that are left: one for each file, two for each directory, of which the stack has
begun some. -/
def remaining (w : WorkspaceDirectory) : Nat := w.entries.weight - w.stack.length

/-- The clock and the budget allow an iteration. -/
def Allowed (env : Surroundings) (budget : ClearBudget) (deadline : Int) (s : ClearState)
    (stats : ClearStats) : Prop :=
  env.clock s.readings < deadline ∧ env.clock (s.readings + 1) < deadline ∧
    stats.entriesScanned < budget.maxEntries ∧
    stats.directoriesScanned < budget.maxDirectories ∧
    stats.mutations + 4 ≤ budget.maxMutations

/-- What an iteration from `s` leaves. -/
def IterationPost (env : Surroundings) (budget : ClearBudget) (deadline : Int) (s : ClearState)
    (stats : ClearStats) (t : ClearState) : Except ClearError Iteration → Prop
  | .error _ => False
  | .ok (.finished complete _) =>
      AtHead t t.workspace.stack ∧ remaining t.workspace = remaining s.workspace ∧
        if complete then t.workspace.entries = .nil else ¬ Allowed env budget deadline s stats
  | .ok (.next stack' stats') =>
      AtHead t stack' ∧ remaining t.workspace + 1 = remaining s.workspace ∧
        stats'.directoriesScanned = stats.directoriesScanned + 1 ∧
        stats.directoriesScanned < budget.maxDirectories

theorem AtHead.safe (h : AtHead s stack) : CrashSafe s := by
  intro _
  unfold Resumable
  rw [h.persisted]
  exact h.chain

theorem AtHead.of_eq {t : ClearState} (h : AtHead s stack) (hw : t.workspace = s.workspace)
    (hr : WheelForge.Storage.recorded t.calls = WheelForge.Storage.recorded s.calls) :
    AtHead t stack := by
  refine ⟨?_, ?_, hr.trans h.recorded, ?_⟩
  · rw [hw]
    exact h.persisted
  · rw [hw]
    exact h.chain
  · rw [hw]
    exact h.recordable

theorem meets_spent {Q : ClearState → Except ClearError Bool → Prop} (hs : CrashSafe s)
    (hQ : ∀ t, t.workspace = s.workspace → recorded t.calls = recorded s.calls →
      t.readings = s.readings + 1 →
      Q t (.ok (deadline ≤ env.clock s.readings || budget.maxEntries ≤ stats.entriesScanned ||
        budget.maxDirectories ≤ stats.directoriesScanned))) :
    Meets Throughout (Answered env.answer) (spent stats budget deadline) s Q := by
  unfold spent
  apply meets_op_answered hs rfl
  exact hQ _ rfl rfl rfl

/-- Leaving an empty directory: the directory is removed, then the shortened stack is written. -/
theorem meets_leaveDirectory (h : AtHead s stack)
    (hempty : s.workspace.entries.opened stack = some .nil)
    {Q : ClearState → Except ClearError Iteration → Prop}
    (hend : stack = [] → Q s (.ok (.finished true stats)))
    (hrefused : ∀ t, AtHead t stack → t.workspace = s.workspace →
      ¬ (env.clock s.readings < deadline ∧ stats.mutations + 4 ≤ budget.maxMutations) →
      Q t (.ok (.finished false stats)))
    (hleft : ∀ t, AtHead t stack.dropLast → remaining t.workspace + 1 = remaining s.workspace →
      Q t (.ok (.next stack.dropLast (stats.mutated 4)))) :
    Meets Throughout (Answered env.answer) (leaveDirectory budget deadline stack stats) s Q := by
  rcases List.eq_nil_or_concat stack with rfl | ⟨parents, childName, rfl⟩
  · exact hend rfl
  · rw [List.concat_eq_append] at h hempty hrefused hleft ⊢
    unfold leaveDirectory
    rw [List.getLast?_concat]
    generalize hparents : (parents ++ [childName]).dropLast = above at hleft ⊢
    obtain rfl : parents = above := List.dropLast_concat.symm.trans hparents
    apply meets_bind.2
    apply meets_mutationAvailable h.safe
    intro t ht hrec
    dsimp only
    split
    · obtain ⟨c, hc, hfind⟩ := Entries.opened_of_append hempty
      have hat := h.of_eq ht hrec
      have hc' : t.workspace.entries.opened parents = some c := by rw [ht]; exact hc
      apply meets_bind.2
      apply meets_openWorkspaceStack hat.safe hc'
      intro u hu
      have hcu : u.workspace.entries.opened parents = some c := by rw [hu.workspace]; exact hc'
      have hanswer : env.answer u (.rmdir parents childName) = (.ok (),
          (u.logged (.rmdir parents childName)).updated parents childName) := by
        simp [Surroundings.answer, ClearState.entry, hcu, hfind]
      apply meets_op_answered (hu.safe hat.safe) hanswer
      -- until the stack is written, a crash would leave it naming the removed directory
      apply meets_op_answered (fun hr => by cases hr) rfl
      have hopen : (u.workspace.entries.update (Entries.remove childName) parents).opened parents
          = some (c.remove childName) := Entries.opened_update hcu
      have hpaths : ∀ path ∈
          (u.workspace.entries.update (Entries.remove childName) parents).paths,
          Recordable path := by
        intro path hpath
        apply hat.recordable
        rw [← hu.workspace]
        exact Entries.paths_update hcu (Entries.paths_remove _ _) hpath
      apply meets_bind.2
      apply meets_writeWorkspaceProgress (fun hr => by cases hr)
        (recordable_opened hpaths hopen) hopen
      intro v hv hvrec
      apply hleft
      · refine ⟨?_, ?_, hvrec, ?_⟩
        · rw [hv]
          rfl
        · rw [hv]
          exact ⟨_, hopen⟩
        · rw [hv]
          exact hpaths
      · have hweight := Entries.weight_update (f := Entries.remove childName) hcu
        have hremoved := Entries.weight_remove_directory hfind
        have hdepth := Entries.weight_opened hempty
        rw [hu.workspace, ht] at hweight
        have hbefore : s.workspace.stack.length = parents.length + 1 := by
          simp [show s.workspace.stack = parents ++ [childName] from h.persisted]
        have hafter : v.workspace.stack = parents := by
          rw [hv]
          rfl
        have hentries : v.workspace.entries
            = s.workspace.entries.update (Entries.remove childName) parents := by
          rw [hv, ← ht, ← hu.workspace]
          rfl
        simp only [Entries.weight, List.length_append, List.length_singleton] at hdepth
        unfold remaining
        rw [hafter, hentries]
        omega
    · next hno =>
      apply hrefused t (h.of_eq ht hrec) ht
      simpa using hno

/-- Entering a directory: the tree keeps its entries, the stack grows. -/
theorem meets_enterDirectory {name : EntryName} {c d : Entries EntryName} (h : AtHead s stack)
    (hopen : s.workspace.entries.opened stack = some c)
    (hfind : c.find name = some (.directory d))
    {Q : ClearState → Except ClearError Iteration → Prop}
    (hrefused : ∀ t, AtHead t stack → t.workspace = s.workspace →
      ¬ (env.clock s.readings < deadline ∧ stats.mutations + 2 ≤ budget.maxMutations) →
      Q t (.ok (.finished false stats)))
    (hentered : ∀ t, AtHead t (stack ++ [name]) →
      remaining t.workspace + 1 = remaining s.workspace →
      Q t (.ok (.next (stack ++ [name]) (stats.mutated 2)))) :
    Meets Throughout (Answered env.answer) (enterDirectory budget deadline stack stats name) s Q := by
  unfold enterDirectory
  apply meets_bind.2
  apply meets_mutationAvailable h.safe
  intro t ht hrec
  dsimp only
  split
  · have hat := h.of_eq ht hrec
    have hinner : t.workspace.entries.opened (stack ++ [name]) = some d := by
      rw [ht]
      exact Entries.opened_append hopen hfind
    apply meets_bind.2
    apply meets_writeWorkspaceProgress hat.safe (recordable_opened hat.recordable hinner) hinner
    intro u hu hurec
    apply hentered
    · refine ⟨?_, ?_, hurec, ?_⟩
      · rw [hu]
        rfl
      · rw [hu]
        exact ⟨d, hinner⟩
      · rw [hu]
        exact hat.recordable
    · have hdepth := Entries.weight_opened hinner
      rw [ht, List.length_append, List.length_singleton] at hdepth
      have hafter : u.workspace.stack.length = stack.length + 1 := by
        rw [hu]
        exact List.length_append
      have hentries : u.workspace.entries = s.workspace.entries := by rw [hu, ← ht]
      unfold remaining
      rw [hafter, hentries, h.persisted]
      omega
  · next hno =>
    apply hrefused t (h.of_eq ht hrec) ht
    simpa using hno

/-- Removing a file of the current directory. -/
theorem meets_removeFile {name : EntryName} {c : Entries EntryName} (h : AtHead s stack)
    (hopen : s.workspace.entries.opened stack = some c) (hfind : c.find name = some .file)
    {Q : ClearState → Except ClearError Iteration → Prop}
    (hrefused : ∀ t, AtHead t stack → t.workspace = s.workspace →
      ¬ (env.clock s.readings < deadline ∧ stats.mutations + 2 ≤ budget.maxMutations) →
      Q t (.ok (.finished false stats)))
    (hremoved : ∀ t, AtHead t stack → remaining t.workspace + 1 = remaining s.workspace →
      Q t (.ok (.next stack (stats.mutated 2)))) :
    Meets Throughout (Answered env.answer) (removeFile budget deadline stack stats name) s Q := by
  unfold removeFile
  apply meets_bind.2
  apply meets_mutationAvailable h.safe
  intro t ht hrec
  dsimp only
  split
  · have hat := h.of_eq ht hrec
    have hct : t.workspace.entries.opened stack = some c := by rw [ht]; exact hopen
    have hanswer : env.answer t (.unlink stack name) = (.ok (),
        (t.logged (.unlink stack name)).updated stack name) := by
      simp [Surroundings.answer, ClearState.entry, hct, hfind]
    apply meets_op_answered hat.safe hanswer
    have hstill : (t.workspace.entries.update (Entries.remove name) stack).opened stack
        = some (c.remove name) := Entries.opened_update hct
    have hafter : AtHead ((t.logged (.unlink stack name)).updated stack name) stack := by
      refine ⟨hat.persisted, ⟨_, hstill⟩, hat.recorded, ?_⟩
      intro path hpath
      exact hat.recordable path (Entries.paths_update hct (Entries.paths_remove _ _) hpath)
    apply meets_op_answered hafter.safe rfl
    apply hremoved
    · exact hafter.of_eq rfl rfl
    · have hweight := Entries.weight_update (f := Entries.remove name) hopen
      have hfile := Entries.weight_remove_file hfind
      have hdepth := Entries.weight_opened hopen
      have hbefore := h.persisted
      simp only [remaining, ClearState.updated, ClearState.logged, WorkspaceDirectory.stack, ht]
        at hbefore ⊢
      rw [hbefore]
      omega
  · next hno =>
    apply hrefused t (h.of_eq ht hrec) ht
    simpa using hno

/-- An iteration from the head of the loop makes a step, or ends the pass: with an empty tree, or
for want of time or budget. -/
theorem meets_clearIteration (h : AtHead s stack) :
    Meets Throughout (Answered env.answer) (clearIteration budget deadline stack stats) s
      (IterationPost env budget deadline s stats) := by
  unfold clearIteration
  apply meets_bind.2
  apply meets_spent h.safe
  intro t ht hrec hreadings
  have hat := h.of_eq ht hrec
  dsimp only
  split
  · next hspent =>
    refine ⟨?_, congrArg remaining ht, ?_⟩
    · rw [hat.persisted]
      exact hat
    · simp only [Bool.false_eq_true, if_false, Allowed]
      simp only [Bool.or_eq_true, decide_eq_true_eq] at hspent
      omega
  · next hspent =>
    simp only [Bool.or_eq_true, decide_eq_true_eq, not_or] at hspent
    obtain ⟨c, hc⟩ := hat.chain
    apply meets_bind.2
    apply meets_openWorkspaceStack hat.safe hc
    intro u hu
    have hau := hat.of_eq hu.workspace hu.recorded
    have hcu : u.workspace.entries.opened stack = some c := by rw [hu.workspace]; exact hc
    have hscan : env.answer u (.scan stack) = (.ok c.names[env.listed u.scans % c.names.length]?,
        { u.logged (.scan stack) with scans := u.scans + 1 }) := by
      simp [Surroundings.answer, hcu]
    apply meets_op_answered hau.safe hscan
    generalize hv : ({ u.logged (.scan stack) with scans := u.scans + 1 } : ClearState) = v
    have hworkspace : v.workspace = s.workspace := by
      rw [← hv]
      exact hu.workspace.trans ht
    have hav : AtHead v stack := by
      rw [← hv]
      exact hau.of_eq rfl rfl
    have hvreadings : v.readings = s.readings + 1 := by
      rw [← hv]
      exact hu.readings.trans hreadings
    -- what the branches have in common: a refusal needs the second reading or the mutations
    have hrefuse : ∀ w stats' needed, AtHead w stack → w.workspace = v.workspace →
        stats'.mutations = stats.mutations → needed ≤ 4 →
        ¬ (env.clock v.readings < deadline ∧ stats'.mutations + needed ≤ budget.maxMutations) →
        IterationPost env budget deadline s stats w (.ok (.finished false stats')) := by
      intro w stats' needed hw hww hstats hneeded hno
      refine ⟨?_, congrArg remaining (hww.trans hworkspace), ?_⟩
      · rw [hw.persisted]
        exact hw
      · simp only [Bool.false_eq_true, if_false, Allowed]
        rw [hvreadings] at hno
        omega
    have hcv : v.workspace.entries.opened stack = some c := by
      rw [hworkspace, ← ht]
      exact hc
    split
    · next hnone =>
      have hnames : c.names = [] := by
        by_contra hne
        have hpos : 0 < c.names.length := List.length_pos_iff.2 hne
        rw [List.getElem?_eq_none_iff] at hnone
        exact absurd (Nat.mod_lt (env.listed u.scans) hpos) (Nat.not_lt.2 hnone)
      obtain rfl := Entries.eq_nil_of_names hnames
      apply meets_leaveDirectory hav hcv
      · rintro rfl
        refine ⟨?_, congrArg remaining hworkspace, ?_⟩
        · rw [hav.persisted]
          exact hav
        · exact Option.some.inj hcv
      · intro w hw hww hno
        exact hrefuse w _ 4 hw hww rfl (Nat.le_refl _) hno
      · intro w hw hremaining
        rw [hworkspace] at hremaining
        exact ⟨hw, hremaining, rfl, by omega⟩
    · next name hsome =>
      have hmem : name ∈ c.names := List.mem_of_getElem? hsome
      have hlookup := Entries.find_isSome.2 hmem
      rcases hfind : c.find name with _ | (_ | d)
      · simp [hfind] at hlookup
      · have hanswer : env.answer v (.isDirectory stack name)
            = (.ok false, v.logged (.isDirectory stack name)) := by
          simp [Surroundings.answer, ClearState.entry, hcv, hfind]
        apply meets_op_answered hav.safe hanswer
        have hal : AtHead (v.logged (.isDirectory stack name)) stack := hav.of_eq rfl rfl
        simp only [Bool.false_eq_true, if_false]
        apply meets_removeFile hal hcv hfind
        · intro w hw hww hno
          exact hrefuse w _ 2 hw hww rfl (by decide) hno
        · intro w hw hremaining
          refine ⟨hw, ?_, rfl, by omega⟩
          exact hremaining.trans (congrArg remaining hworkspace)
      · have hanswer : env.answer v (.isDirectory stack name)
            = (.ok true, v.logged (.isDirectory stack name)) := by
          simp [Surroundings.answer, ClearState.entry, hcv, hfind]
        apply meets_op_answered hav.safe hanswer
        have hal : AtHead (v.logged (.isDirectory stack name)) stack := hav.of_eq rfl rfl
        simp only [if_true]
        apply meets_enterDirectory hal hcv hfind
        · intro w hw hww hno
          exact hrefuse w _ 2 hw hww rfl (by decide) hno
        · intro w hw hremaining
          refine ⟨hw, ?_, rfl, by omega⟩
          exact hremaining.trans (congrArg remaining hworkspace)

/-- What the loop from `s` leaves. -/
def LoopPost (env : Surroundings) (budget : ClearBudget) (deadline : Int) (s : ClearState)
    (stats : ClearStats) (t : ClearState) (x : Except ClearError (Bool × ClearStats)) : Prop :=
  ∃ complete stats', x = .ok (complete, stats') ∧ AtHead t t.workspace.stack ∧
    remaining t.workspace ≤ remaining s.workspace ∧
    if complete then t.workspace.entries = .nil
    else Allowed env budget deadline s stats → remaining t.workspace < remaining s.workspace

/-- The loop, by induction on the iterations that the budget of directories leaves. -/
theorem meets_clearLoop {n : Nat} (hn : budget.maxDirectories - stats.directoriesScanned < n)
    (h : AtHead s stack) :
    Meets Throughout (Answered env.answer) (clearLoop budget deadline n stack stats) s
      (LoopPost env budget deadline s stats) := by
  induction n generalizing s stack stats with
  | zero => exact absurd hn (Nat.not_lt_zero _)
  | succ n ih =>
      unfold clearLoop
      apply meets_bind.2
      apply (meets_clearIteration h).mono
      rintro t (e | (⟨complete, stats'⟩ | ⟨stack', stats'⟩)) hpost
      · exact hpost.elim
      · obtain ⟨hat, hremaining, hend⟩ := hpost
        refine ⟨complete, stats', rfl, hat, Nat.le_of_eq hremaining, ?_⟩
        cases complete with
        | true => exact hend
        | false => exact fun hallowed => absurd hallowed hend
      · obtain ⟨hat, hremaining, hscanned, hbudget⟩ := hpost
        apply (ih (by omega) hat).mono
        rintro u x ⟨complete, last, rfl, hau, hle, hend⟩
        refine ⟨complete, last, rfl, hau, by omega, ?_⟩
        cases complete with
        | true => exact hend
        | false => exact fun _ => by omega

end Iterations

/-! ## Passes -/

section Passes

variable {w : WorkspaceDirectory} {pass : Pass}

/-- A pass over a workspace that can be resumed. -/
theorem meets_pass (hw : Resumable w) (hfits : FitsProgress w) :
    Meets Throughout (Answered pass.env.answer) pass.program (.start w)
      (LoopPost pass.env pass.budget pass.deadline (.start w) pass.stats) := by
  have hsafe : CrashSafe (.start w) := fun _ => hw
  have hread : (pass.env.answer (.start w) .getProgress)
      = (.ok w.progress, (ClearState.start w).logged .getProgress) := rfl
  have hhead : AtHead ((ClearState.start w).logged .getProgress) w.stack := ⟨rfl, hw, rfl, hfits⟩
  have hloop : ∀ n, pass.budget.maxDirectories - pass.stats.directoriesScanned < n →
      Meets Throughout (Answered pass.env.answer)
        (clearLoop pass.budget pass.deadline n w.stack pass.stats)
        ((ClearState.start w).logged .getProgress)
        (LoopPost pass.env pass.budget pass.deadline (.start w) pass.stats) :=
    fun n hn => meets_clearLoop hn hhead
  unfold Pass.program boundedClearWorkspace readWorkspaceProgress
  apply meets_bind.2
  apply meets_op_answered hsafe hread
  cases hprogress : w.progress with
  | none =>
      have hstack : w.stack = [] := by simp [WorkspaceDirectory.stack, hprogress]
      rw [hstack] at hloop
      exact hloop _ (Nat.lt_succ_self _)
  | some stack =>
      have hstack : w.stack = stack := by simp [WorkspaceDirectory.stack, hprogress]
      obtain ⟨c, hc⟩ := hw
      rw [hstack] at hloop hc
      obtain ⟨hlength, hreadable, -⟩ := recordable_opened hfits hc
      simp only [Nat.not_lt.2 hlength, if_false, hreadable]
      exact hloop _ (Nat.lt_succ_self _)

/-- The end of a pass that does not crash. -/
theorem result_of_resumable (pass : Pass) (hw : Resumable w) (hfits : FitsProgress w) :
    LoopPost pass.env pass.budget pass.deadline (.start w) pass.stats
      (pass.program.exec pass.env.answer (.start w)).2 (pass.result w) :=
  (Program.exec_run pass.env.answer pass.program (.start w)).meets (meets_pass hw hfits)

/-- A pass under the condition leaves a workspace that can be resumed. -/
theorem Resumable.after (hw : Resumable w) (hclean : pass.Clean w) : Resumable (pass.after w) := by
  obtain ⟨hfits, hcrash⟩ := hclean
  unfold Pass.after
  cases hpass : pass.crashAfter with
  | none =>
      obtain ⟨complete, stats, -, hat, -⟩ := result_of_resumable pass hw hfits
      simp only [Pass.stopped, hpass]
      exact hat.chain
  | some n =>
      have hrecorded := hcrash (by simp [hpass])
      have hstops := Program.stopAfter_stops pass.env.answer n pass.program (.start w)
      simp only [Pass.stopped, hpass] at hrecorded ⊢
      have hsafe : CrashSafe (Program.stopAfter pass.env.answer n pass.program (.start w)) := by
        apply hstops.meets (meets_pass hw hfits)
        · exact fun _ _ h => h
        · rintro u x ⟨complete, stats, -, hat, -⟩
          exact hat.safe
      exact hsafe hrecorded

theorem resumable_of_reachable (h : clearingSystem.Reachable Pass.Clean w) : Resumable w := by
  refine h.invariant (P := Resumable) ?_ ?_
  · intro w hinit
    refine ⟨w.entries, ?_⟩
    simp [WorkspaceDirectory.stack, show w.progress = none from hinit]
  · rintro w pass w' hw hclean rfl
    exact hw.after hclean

/-- One of the passes, taken one after the other, returns `True`. -/
def clearedBy : WorkspaceDirectory → List Pass → Bool
  | _, [] => false
  | w, pass :: passes =>
      match pass.result w with
      | .ok (true, _) => true
      | _ => clearedBy (pass.after w) passes

/-- More passes than there are iterations left: every pass makes one. -/
theorem cleared_of_remaining {passes : List Pass} (hw : Resumable w) (hfits : FitsProgress w)
    (hpasses : ∀ pass ∈ passes, pass.crashAfter = none ∧ pass.Admits)
    (hmany : remaining w < passes.length) : clearedBy w passes = true := by
  induction passes generalizing w with
  | nil => exact absurd hmany (Nat.not_lt_zero _)
  | cons pass passes ih =>
      obtain ⟨hcrash, hadmits⟩ := hpasses pass List.mem_cons_self
      obtain ⟨complete, stats, hresult, hat, -, hend⟩ :=
        result_of_resumable pass hw hfits
      have hstopped : pass.stopped w = (pass.program.exec pass.env.answer (.start w)).2 := by
        simp only [Pass.stopped, hcrash]
      rw [← hstopped] at hat hend
      unfold clearedBy
      rw [hresult]
      cases complete with
      | true => rfl
      | false =>
          have hless : remaining (pass.after w) < remaining w := hend hadmits
          rw [List.length_cons] at hmany
          apply ih hat.chain hat.recordable
          · exact fun p hp => hpasses p (List.mem_cons_of_mem _ hp)
          · exact Nat.lt_of_lt_of_le hless (Nat.le_of_lt_succ hmany)

end Passes

/-- In every run whose passes fit the progress state and do not crash between the removal of a
directory and the write of the shortened stack: the stack names a chain of existing directories, the
next pass does not raise, and when it returns `True` the tree is empty; and passes whose budget
allows an iteration, more of them than iterations are left, empty the tree. -/
theorem clearing_resumes {w : WorkspaceDirectory} (h : clearingSystem.Reachable Pass.Clean w)
    (hfits : FitsProgress w) :
    Resumable w ∧
      (∀ pass : Pass, ∃ complete stats, pass.result w = .ok (complete, stats) ∧
        (pass.crashAfter = none → complete = true → (pass.after w).entries = .nil)) ∧
      ∀ passes : List Pass, (∀ pass ∈ passes, pass.crashAfter = none ∧ pass.Admits) →
        remaining w < passes.length → clearedBy w passes = true := by
  have hw := resumable_of_reachable h
  refine ⟨hw, ?_, ?_⟩
  · intro pass
    obtain ⟨complete, stats, hresult, -, -, hend⟩ := result_of_resumable pass hw hfits
    refine ⟨complete, stats, hresult, ?_⟩
    rintro hcrash rfl
    simpa [Pass.after, Pass.stopped, hcrash] using hend
  · intro passes hpasses hmany
    exact cleared_of_remaining hw hfits hpasses hmany

/-- A workspace that holds the directory `a`, with a file `b` in it. -/
def nestedWorkspace : WorkspaceDirectory where
  entries := .directory [.char 'a'] (.file [.char 'b'] .nil) .nil
  progress := none

/-- A pass with a budget for everything. -/
def amplePass (crashAfter : Option Nat) : Pass where
  stats := ⟨0, 0, 0, false⟩
  budget := ⟨16, 16, 64⟩
  deadline := 10
  env := ⟨fun _ => 0, fun _ => 0⟩
  crashAfter := crashAfter

/-- The process dies once the stack with `a` is written; the passes after it empty the workspace. -/
theorem clearing_resumes_nested :
    Resumable ((amplePass (some 6)).after nestedWorkspace) ∧
      clearedBy ((amplePass (some 6)).after nestedWorkspace)
        (List.replicate 3 (amplePass none)) = true := by
  have hfits : FitsProgress nestedWorkspace := by decide
  have hclean : (amplePass (some 6)).Clean nestedWorkspace := ⟨hfits, fun _ => by decide⟩
  have hreach : clearingSystem.Reachable Pass.Clean ((amplePass (some 6)).after nestedWorkspace) :=
    (System.Reachable.of_init rfl).step hclean rfl
  have hclaim := clearing_resumes hreach (by decide)
  refine ⟨hclaim.1, ?_⟩
  apply hclaim.2.2
  · intro pass hpass
    rw [List.eq_of_mem_replicate hpass]
    exact ⟨rfl, by unfold Pass.Admits; decide⟩
  · decide

/-- The same workspace when the process dies after it removed `a` and before it wrote the shortened
stack: the stack names a directory that is gone, and the next pass raises. -/
theorem crashedRemoval_not_resumable :
    clearingSystem.Reachable System.Any ((amplePass (some 19)).after nestedWorkspace) ∧
      FitsProgress nestedWorkspace ∧
      ¬ Resumable ((amplePass (some 19)).after nestedWorkspace) ∧
      (amplePass none).result ((amplePass (some 19)).after nestedWorkspace)
        = .error .fileNotFound := by
  refine ⟨(System.Reachable.of_init rfl).step trivial rfl, by decide, ?_, rfl⟩
  rintro ⟨c, hc⟩
  cases hc

end WheelForge.Storage
