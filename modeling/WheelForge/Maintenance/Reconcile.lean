import Mathlib.Data.List.Induction
import Mathlib.Data.List.MinMax
import Mathlib.Data.List.Perm.Subperm
import WheelForge.Maintenance.SegmentedQueue

/-!
# What reconciliation does

`Placed` is what holds of a queue directory wherever a process may stop: the slot files lie in
existing segments, within the limits and with distinct sequence numbers. From such a directory
`reconcile` never fails; it keeps of each record id the file of the highest rank (`Winner`), removes
everything else and writes counters that are exact (`Counted`). While it works the winners stay
(`Tidying`), so that stopping it anywhere loses nothing.
-/

set_option autoImplicit false

namespace WheelForge.Maintenance

open WheelForge.Interaction
open WheelForge.Interaction.Program (Meets meets_bind meets_loop meets_op Answered)
open WheelForge.Relational

section Definitions

variable {β : Type} (limits : QueueLimits)

/-- The slot files of a lane. -/
def laneFiles (d : QueueDir β) (lane : Lane) : List (SlotFile β) :=
  d.slots.rows.filter fun f => decide (f.location.lane = lane)

/-- The segment directories of a lane. -/
def laneSegments (d : QueueDir β) (lane : Lane) : List (Lane × Nat) :=
  d.segments.filter fun s => decide (s.1 = lane)

/-- A place inside an existing segment. -/
def Location.Within (d : QueueDir β) (location : Location) : Prop :=
  (location.lane, location.segment) ∈ d.segments ∧ location.slot < limits.segmentSize

/-- What holds of a queue directory between any two steps. -/
structure Placed (d : QueueDir β) : Prop where
  segments_nodup : d.segments.Nodup
  segment_lt : ∀ s ∈ d.segments, s.2 < limits.maxSegments
  file_within : ∀ f ∈ d.slots, f.location.Within limits d
  temp_within : ∀ l ∈ d.temps, l.Within limits d
  temps_le : d.temps.length ≤ 1
  records_le : d.slots.rows.length ≤ limits.maxRecords
  bytes_le : (d.slots.rows.map SlotFile.size).sum ≤ limits.maxRecordBytes
  sequences : (d.slots.rows.map fun f => f.record.sequence).Nodup
  valid : validState limits d.state = true

/-- The persisted state is exact, and no temporary file is left. -/
structure Counted (d : QueueDir β) : Prop extends Placed limits d where
  temps : d.temps = []
  count : ∀ lane, (d.state.lanes lane).count = (laneFiles d lane).length
  bytes : ∀ lane, (d.state.lanes lane).bytes = ((laneFiles d lane).map SlotFile.size).sum
  segments : ∀ lane, (d.state.lanes lane).segments = (laneSegments d lane).length
  sequence_lt : ∀ f ∈ d.slots, f.record.sequence < d.state.nextSequence

/-- Record ids are unique over all lanes. -/
def UniqueIds (d : QueueDir β) : Prop :=
  (d.slots.rows.map fun f => f.record.recordId).Nodup

/-- The slot file that reconciliation keeps among those of its record id. -/
def Winner (d : QueueDir β) (f : SlotFile β) : Prop :=
  f ∈ d.slots ∧ ∀ g ∈ d.slots, g.record.recordId = f.record.recordId → g.rank ≤ f.rank

/-- A directory during the reconciliation of `d`. -/
structure Tidying (d s : QueueDir β) : Prop where
  slots : s.slots.rows.Sublist d.slots.rows
  winners : ∀ f, Winner d f → f ∈ s.slots
  segments : s.segments.Sublist d.segments
  file_segment : ∀ f ∈ s.slots, (f.location.lane, f.location.segment) ∈ s.segments
  temp_segment : ∀ l ∈ s.temps, (l.lane, l.segment) ∈ s.segments
  temps : s.temps.Sublist d.temps
  state : s.state = d.state

/-- The directory after the reconciliation of `d`. -/
structure Reconciled (d s : QueueDir β) : Prop extends Counted limits s where
  slots : s.slots.rows.Sublist d.slots.rows
  mem_slots : ∀ f, f ∈ s.slots ↔ Winner d f
  capacityEvents : s.state.capacityEvents = d.state.capacityEvents
  lanes : ∀ lane, s.state.lanes lane =
    rebuiltLane limits (laneItems s.slots.rows lane) (laneSegments s lane).length
  nextSequence : s.state.nextSequence = nextSequenceOf s.slots.rows

end Definitions

/-! ## Rules for the steps -/

section Rules

variable {β α γ : Type} {limits : QueueLimits} {C : QueueDir β → Prop} {d : QueueDir β}

/-- A program of the queue stops only where `C` holds, and ends as `Q` says. -/
abbrev Ensures (C : QueueDir β → Prop) (p : QueueProgram β α) (d : QueueDir β)
    (Q : QueueDir β → Except QueueError α → Prop) : Prop :=
  Meets (fun s _ => C s) (Answered QueueDir.perform) p d Q

theorem ensures_step {o : QueueCall β} {f : o.Answer → QueueProgram β γ}
    {Q : QueueDir β → Except QueueError γ → Prop} (hC : C d)
    (h : Ensures C (f (d.answer o)) (d.after o) Q) : Ensures C (step o >>= f) d Q := by
  apply meets_bind.2
  refine meets_op.2 ⟨hC, ?_⟩
  intro r s' hr
  cases hr
  exact h

theorem ensures_last {o : QueueCall β} {Q : QueueDir β → Except QueueError o.Answer → Prop}
    (hC : C d) (h : Q (d.after o) (.ok (d.answer o))) : Ensures C (step o) d Q := by
  refine meets_op.2 ⟨hC, ?_⟩
  intro r s' hr
  cases hr
  exact h

theorem ensures_then {c : Prop} {_ : Decidable c} (hc : c) {p q : QueueProgram β γ}
    {Q : QueueDir β → Except QueueError γ → Prop} (h : Ensures C p d Q) :
    Ensures C (if c then p else q) d Q := by
  rwa [if_pos hc]

theorem ensures_else {c : Prop} {_ : Decidable c} (hc : ¬ c) {p q : QueueProgram β γ}
    {Q : QueueDir β → Except QueueError γ → Prop} (h : Ensures C q d Q) :
    Ensures C (if c then p else q) d Q := by
  rwa [if_neg hc]

theorem ensures_readState {f : QueueState → QueueProgram β γ}
    {Q : QueueDir β → Except QueueError γ → Prop} (hC : C d)
    (hv : validState limits d.state = true) (h : Ensures C (f d.state) d Q) :
    Ensures C (readState limits >>= f) d Q := by
  apply meets_bind.2
  unfold readState
  apply ensures_step hC
  dsimp only [QueueDir.answer, QueueDir.after]
  rw [if_pos hv]
  exact h

/-- The segment numbers of a lane. -/
def laneNumbers (d : QueueDir β) (lane : Lane) : List Nat := (laneSegments d lane).map Prod.snd

theorem mem_laneNumbers {lane : Lane} {n : Nat} :
    n ∈ laneNumbers d lane ↔ (lane, n) ∈ d.segments := by
  unfold laneNumbers laneSegments
  rw [List.mem_map]
  constructor
  · rintro ⟨⟨l, m⟩, hm, rfl⟩
    obtain ⟨hmem, hl⟩ := List.mem_filter.1 hm
    obtain rfl : l = lane := of_decide_eq_true hl
    exact hmem
  · intro h
    exact ⟨(lane, n), List.mem_filter.2 ⟨h, decide_eq_true rfl⟩, rfl⟩

theorem laneNumbers_nodup (h : d.segments.Nodup) (lane : Lane) : (laneNumbers d lane).Nodup := by
  unfold laneNumbers laneSegments
  refine List.Nodup.map_on ?_ (h.filter _)
  rintro ⟨l, m⟩ hl ⟨l', m'⟩ hl' hm
  cases of_decide_eq_true (List.mem_filter.1 hl).2
  cases of_decide_eq_true (List.mem_filter.1 hl').2
  cases hm
  rfl

theorem laneNumbers_length_le (h : d.segments.Nodup)
    (hlt : ∀ s ∈ d.segments, s.2 < limits.maxSegments) (lane : Lane) :
    (laneNumbers d lane).length ≤ limits.maxSegments := by
  have hsub : laneNumbers d lane ⊆ List.range limits.maxSegments := by
    intro n hn
    exact List.mem_range.2 (hlt _ (mem_laneNumbers.1 hn))
  have hle := (List.subperm_of_subset (laneNumbers_nodup h lane) hsub).length_le
  rwa [List.length_range] at hle

theorem ensures_segmentNames {lane : Lane} {f : List Nat → QueueProgram β γ}
    {Q : QueueDir β → Except QueueError γ → Prop} (hC : C d) (hn : d.segments.Nodup)
    (hlt : ∀ s ∈ d.segments, s.2 < limits.maxSegments)
    (h : Ensures C (f (laneNumbers d lane)) d Q) :
    Ensures C (segmentNames limits lane >>= f) d Q := by
  apply meets_bind.2
  unfold segmentNames
  apply ensures_step hC
  have hall : ((laneNumbers d lane).take limits.maxSegments).all
      (fun number => decide (number < limits.maxSegments)) = true := by
    rw [List.all_eq_true]
    intro n hmem
    exact decide_eq_true (hlt _ (mem_laneNumbers.1 (List.mem_of_mem_take hmem)))
  have hlen : (laneNumbers d lane).length ≤ limits.maxSegments := laneNumbers_length_le hn hlt lane
  unfold laneNumbers laneSegments at hall hlen
  dsimp only [QueueDir.answer, QueueDir.after]
  rw [if_pos hall, if_pos hlen]
  exact h

end Rules

/-! ## The scan -/

section Scanning

variable {β : Type} {limits : QueueLimits} {d s : QueueDir β}

theorem Tidying.refl (h : Placed limits d) : Tidying d d where
  slots := List.Sublist.refl _
  winners _ hf := hf.1
  segments := List.Sublist.refl _
  file_segment f hf := (h.file_within f hf).1
  temp_segment l hl := (h.temp_within l hl).1
  temps := List.Sublist.refl _
  state := rfl

/-- The state of the scan of `d`: the files whose location meets `P` are observed, and the temporary
files there are gone. -/
structure ScanInv (d : QueueDir β) (P : Location → Prop) (scan : Scan β) (s : QueueDir β) :
    Prop where
  slots : s.slots = d.slots
  segments : s.segments = d.segments
  state : s.state = d.state
  temps : s.temps.Sublist d.temps
  removed : ∀ l ∈ s.temps, ¬ P l
  mem : ∀ f, f ∈ scan.observed ↔ f ∈ d.slots ∧ P f.location
  nodup : scan.observed.Nodup
  budget : scan.mutations + 2 * s.temps.length + (if scan.removedTemp then 1 else 0) ≤
    2 * d.temps.length

theorem ScanInv.tidying {P : Location → Prop} {scan : Scan β} (hd : Placed limits d)
    (h : ScanInv d P scan s) : Tidying d s where
  slots := by rw [h.slots]
  winners f hf := by
    rw [h.slots]
    exact hf.1
  segments := by rw [h.segments]
  file_segment f hf := by
    rw [h.slots] at hf
    rw [h.segments]
    exact (hd.file_within f hf).1
  temp_segment l hl := by
    rw [h.segments]
    exact (hd.temp_within l (h.temps.subset hl)).1
  temps := h.temps
  state := h.state

/-- Only the places inside the directory matter. -/
theorem ScanInv.congr {P P' : Location → Prop} {scan : Scan β} (hd : Placed limits d)
    (h : ScanInv d P scan s) (hP : ∀ l, l.Within limits d → (P l ↔ P' l)) :
    ScanInv d P' scan s :=
  { h with
    removed := fun l hl hp =>
      h.removed l hl ((hP l (hd.temp_within l (h.temps.subset hl))).2 hp)
    mem := fun f => by
      rw [h.mem]
      constructor
      · rintro ⟨hf, hp⟩
        exact ⟨hf, (hP _ (hd.file_within f hf)).1 hp⟩
      · rintro ⟨hf, hp⟩
        exact ⟨hf, (hP _ (hd.file_within f hf)).2 hp⟩ }

/-- Observed files are as many as there are slot files at most. -/
theorem ScanInv.length_le {P : Location → Prop} {scan : Scan β} (hd : Placed limits d)
    (h : ScanInv d P scan s) : scan.observed.length ≤ limits.maxRecords := by
  have hsub : scan.observed ⊆ d.slots.rows := fun f hf => ((h.mem f).1 hf).1
  exact (List.subperm_of_subset h.nodup hsub).length_le.trans hd.records_le

/-- The removal of a temporary file that may exist. -/
theorem ScanInv.unlinkTemp {P : Location → Prop} {scan : Scan β} (h : ScanInv d P scan s)
    (l : Location) : ScanInv d P (scan.noteTemp (decide (l ∈ s.temps))) (s.unlinkTemp l) := by
  unfold Scan.noteTemp
  have hsub : (s.unlinkTemp l).temps.Sublist s.temps := List.filter_sublist
  have hlen : (s.unlinkTemp l).temps.length ≤ s.temps.length := hsub.length_le
  have hbudget := h.budget
  by_cases hl : l ∈ s.temps
  · rw [if_pos (decide_eq_true hl)]
    have hlt : (s.unlinkTemp l).temps.length < s.temps.length := by
      apply List.length_filter_lt_length_iff_exists.2
      exact ⟨l, hl, by simp⟩
    refine { h with temps := hsub.trans h.temps, removed := ?_, budget := ?_ }
    · intro x hx
      exact h.removed x (hsub.subset hx)
    · show scan.mutations + 1 + 2 * (s.unlinkTemp l).temps.length + 1 ≤ _
      split at hbudget <;> omega
  · rw [if_neg (by simpa using hl)]
    refine { h with temps := hsub.trans h.temps, removed := ?_, budget := ?_ }
    · intro x hx
      exact h.removed x (hsub.subset hx)
    · omega

/-- The postcondition of a program that does not fail. -/
def Yields {α : Type} (Q : α → QueueDir β → Prop) (t : QueueDir β) :
    Except QueueError α → Prop
  | .ok a => Q a t
  | .error _ => False

theorem ensures_bind {α γ : Type} {C : QueueDir β → Prop} {p : QueueProgram β α}
    {f : α → QueueProgram β γ} {Q : α → QueueDir β → Prop}
    {R : QueueDir β → Except QueueError γ → Prop} (hp : Ensures C p s (Yields Q))
    (hf : ∀ a t, Q a t → Ensures C (f a) t R) : Ensures C (p >>= f) s R := by
  apply meets_bind.2
  apply hp.mono
  rintro t (e | a) ht
  · exact ht.elim
  · exact hf a t ht

theorem ensures_loop {γ δ : Type} {C : QueueDir β → Prop} {body : δ → γ → QueueProgram β δ}
    {I : List γ → δ → QueueDir β → Prop}
    (hbody : ∀ c cs b t, I (c :: cs) b t → Ensures C (body b c) t (Yields (I cs))) {cs : List γ}
    {b : δ} (h : I cs b s) : Ensures C (Program.loop body cs b) s (Yields (I [])) := by
  refine (meets_loop (I := I) (E := fun _ _ => False) ?_ h).mono ?_
  · intro c cs b t ht
    apply (hbody c cs b t ht).mono
    rintro u (e | b') hu <;> exact hu
  · rintro t (e | b') ht <;> exact ht

theorem ensures_budget {C : QueueDir β → Prop} {mutations : Nat}
    (h : mutations ≤ limits.reconcileMaxMutations) {Q : QueueDir β → Prop} (hs : Q s) :
    Ensures C (checkReconcileBudget limits mutations) s (Yields fun _ => Q) := by
  unfold checkReconcileBudget
  rw [if_neg (not_lt.2 h)]
  exact hs

theorem ensures_scanSlot {P : Location → Prop} {scan : Scan β} (hd : Placed limits d)
    (h : ScanInv d P scan s) {lane : Lane} {segment slot : Nat}
    (hnew : ¬ P ⟨lane, segment, slot⟩) :
    Ensures (Tidying d) (scanSlot limits lane segment scan slot) s
      (Yields (ScanInv d fun l => P l ∨ l = ⟨lane, segment, slot⟩)) := by
  unfold scanSlot
  apply ensures_step (h.tidying hd)
  have h' : ScanInv d P (scan.noteTemp (s.answer (.unlinkTemp ⟨lane, segment, slot⟩)))
      (s.after (.unlinkTemp ⟨lane, segment, slot⟩)) := h.unlinkTemp ⟨lane, segment, slot⟩
  have hgone : ∀ l ∈ (s.after (.unlinkTemp ⟨lane, segment, slot⟩)).temps,
      l ≠ ⟨lane, segment, slot⟩ := fun l hl => of_decide_eq_true (List.mem_filter.1 hl).2
  generalize scan.noteTemp (s.answer (.unlinkTemp ⟨lane, segment, slot⟩)) = scan' at h' ⊢
  generalize s.after (.unlinkTemp ⟨lane, segment, slot⟩) = s' at h' hgone ⊢
  apply ensures_step (h'.tidying hd)
  dsimp only [QueueDir.answer, QueueDir.after]
  have hremoved : ∀ l ∈ s'.temps, ¬ (P l ∨ l = ⟨lane, segment, slot⟩) := by
    rintro l hl (hp | heq)
    · exact h'.removed l hl hp
    · exact hgone l hl heq
  rw [h'.slots]
  cases hf : d.slots.find? ⟨lane, segment, slot⟩ with
  | none =>
      refine { h' with removed := hremoved, mem := fun f => ?_ }
      rw [h'.mem]
      constructor
      · rintro ⟨hmem, hp⟩
        exact ⟨hmem, Or.inl hp⟩
      · rintro ⟨hmem, hp | hloc⟩
        · exact ⟨hmem, hp⟩
        · exact absurd hloc (Table.find?_eq_none_iff.1 hf f hmem)
  | some file =>
      have hmem : file ∈ d.slots := Table.mem_of_find? hf
      have hloc : file.location = ⟨lane, segment, slot⟩ := Table.key_of_find? hf
      have hnot : file ∉ scan'.observed := by
        intro ho
        have hp := ((h'.mem file).1 ho).2
        rw [hloc] at hp
        exact hnew hp
      have hinv : ScanInv d (fun l => P l ∨ l = ⟨lane, segment, slot⟩)
          { scan' with observed := scan'.observed ++ [file] } s' := by
        refine { h' with removed := hremoved, mem := fun f => ?_, nodup := ?_ }
        · rw [List.mem_append, h'.mem, List.mem_singleton]
          constructor
          · rintro (⟨hf', hp⟩ | rfl)
            · exact ⟨hf', Or.inl hp⟩
            · exact ⟨hmem, Or.inr hloc⟩
          · rintro ⟨hf', hp | hl⟩
            · exact Or.inl ⟨hf', hp⟩
            · exact Or.inr (Table.eq_of_key_eq hf' hmem (hl.trans hloc.symm))
        · exact List.nodup_append.2 ⟨h'.nodup, List.nodup_singleton _, by
            rintro a ha b hb rfl
            exact hnot (List.mem_singleton.1 hb ▸ ha)⟩
      have hle := hinv.length_le hd
      rw [List.length_append, List.length_singleton] at hle
      dsimp only
      rw [if_neg (not_lt.2 hle)]
      exact hinv

theorem ensures_scanSegment {P : Location → Prop} {scan : Scan β} (hd : Placed limits d)
    (h : ScanInv d P scan s) {lane : Lane} {segment : Nat}
    (hnew : ∀ l, P l → ¬ (l.lane = lane ∧ l.segment = segment)) :
    Ensures (Tidying d) (scanSegment limits lane scan segment) s
      (Yields (ScanInv d fun l => P l ∨ (l.lane = lane ∧ l.segment = segment))) := by
  unfold scanSegment
  have hstart : ScanInv d
      (fun l => P l ∨ (l.lane = lane ∧ l.segment = segment ∧ l.slot ∉
        List.range limits.segmentSize)) { scan with removedTemp := false } s := by
    have hreset : ScanInv d P { scan with removedTemp := false } s := by
      refine { h with budget := ?_ }
      exact le_trans (by simp) h.budget
    refine hreset.congr hd fun l hl => ?_
    constructor
    · exact Or.inl
    · rintro (hp | ⟨-, -, hs⟩)
      · exact hp
      · exact absurd (List.mem_range.2 hl.2) hs
  have hloop : Ensures (Tidying d) (Program.loop (scanSlot limits lane segment)
      (List.range limits.segmentSize) { scan with removedTemp := false }) s
      (Yields fun scan' t => ([] : List Nat).Nodup ∧ ScanInv d
        (fun l => P l ∨ (l.lane = lane ∧ l.segment = segment ∧ l.slot ∉ ([] : List Nat)))
          scan' t) := by
    refine ensures_loop (I := fun cs scan' t => cs.Nodup ∧ ScanInv d
      (fun l => P l ∨ (l.lane = lane ∧ l.segment = segment ∧ l.slot ∉ cs)) scan' t) ?_
        ⟨List.nodup_range, hstart⟩
    rintro c cs scan' t ⟨hn, ht⟩
    obtain ⟨hc, hcs⟩ := List.nodup_cons.1 hn
    have hc' : ¬ (P ⟨lane, segment, c⟩ ∨ ((⟨lane, segment, c⟩ : Location).lane = lane ∧
        (⟨lane, segment, c⟩ : Location).segment = segment ∧
          (⟨lane, segment, c⟩ : Location).slot ∉ c :: cs)) := by
      rintro (hp | ⟨-, -, hs⟩)
      · exact hnew _ hp ⟨rfl, rfl⟩
      · exact hs List.mem_cons_self
    apply (ensures_scanSlot hd ht hc').mono
    · rintro u (e | scan'') hu
      · exact hu
      · refine ⟨hcs, hu.congr hd fun l _ => ?_⟩
        constructor
        · rintro ((hp | ⟨h₁, h₂, h₃⟩) | rfl)
          · exact Or.inl hp
          · exact Or.inr ⟨h₁, h₂, fun hm => h₃ (List.mem_cons_of_mem _ hm)⟩
          · exact Or.inr ⟨rfl, rfl, hc⟩
        · rintro (hp | ⟨h₁, h₂, h₃⟩)
          · exact Or.inl (Or.inl hp)
          · by_cases hs : l.slot = c
            · right
              cases l
              cases h₁
              cases h₂
              cases hs
              rfl
            · refine Or.inl (Or.inr ⟨h₁, h₂, ?_⟩)
              rintro hm
              rcases List.mem_cons.1 hm with hm | hm
              · exact hs hm
              · exact h₃ hm
  apply ensures_bind hloop
  rintro scan' t ⟨-, ht⟩
  have hend : ScanInv d (fun l => P l ∨ (l.lane = lane ∧ l.segment = segment)) scan' t := by
    refine ht.congr hd fun l _ => ?_
    simp
  split
  · next hremoved =>
    have hbudget := hend.budget
    rw [if_pos hremoved] at hbudget
    have htemps := hd.temps_le
    have hlimit := limits.reconcile_le
    have hcheck : scan'.mutations + 1 ≤ limits.reconcileMaxMutations := by omega
    apply ensures_bind (ensures_budget (Q := fun u => u = t) hcheck rfl)
    rintro _ u rfl
    refine { hend with budget := ?_ }
    show scan'.mutations + 1 + 2 * u.temps.length + (if false = true then 1 else 0) ≤ _
    simp only [Bool.false_eq_true, if_false]
    omega
  · exact hend

theorem ensures_scanLane {P : Location → Prop} {scan : Scan β} (hd : Placed limits d)
    (h : ScanInv d P scan s) {lane : Lane} (hnew : ∀ l, P l → l.lane ≠ lane) :
    Ensures (Tidying d) (scanLane limits scan lane) s
      (Yields (ScanInv d fun l => P l ∨ l.lane = lane)) := by
  unfold scanLane
  have hn : s.segments.Nodup := by
    rw [h.segments]
    exact hd.segments_nodup
  have hlt : ∀ x ∈ s.segments, x.2 < limits.maxSegments := by
    rw [h.segments]
    exact hd.segment_lt
  apply ensures_segmentNames (h.tidying hd) hn hlt
  have hstart : ScanInv d (fun l => P l ∨ (l.lane = lane ∧ l.segment ∉ laneNumbers s lane))
      scan s := by
    refine h.congr hd fun l hl => ?_
    constructor
    · exact Or.inl
    · rintro (hp | ⟨hlane, hseg⟩)
      · exact hp
      · refine absurd (mem_laneNumbers.2 ?_) hseg
        rw [h.segments, ← hlane]
        exact hl.1
  refine (ensures_loop (I := fun cs scan' t => cs.Nodup ∧ ScanInv d
    (fun l => P l ∨ (l.lane = lane ∧ l.segment ∉ cs)) scan' t) ?_
      ⟨laneNumbers_nodup hn lane, hstart⟩).mono ?_
  · rintro c cs scan' t ⟨hnodup, ht⟩
    obtain ⟨hc, hcs⟩ := List.nodup_cons.1 hnodup
    have hc' : ∀ l, (P l ∨ (l.lane = lane ∧ l.segment ∉ c :: cs)) →
        ¬ (l.lane = lane ∧ l.segment = c) := by
      rintro l (hp | ⟨-, hs⟩) ⟨hl, hc'⟩
      · exact hnew l hp hl
      · exact hs (hc' ▸ List.mem_cons_self)
    apply (ensures_scanSegment hd ht hc').mono
    · rintro u (e | scan'') hu
      · exact hu
      · refine ⟨hcs, hu.congr hd fun l _ => ?_⟩
        constructor
        · rintro ((hp | ⟨h₁, h₂⟩) | ⟨h₁, rfl⟩)
          · exact Or.inl hp
          · exact Or.inr ⟨h₁, fun hm => h₂ (List.mem_cons_of_mem _ hm)⟩
          · exact Or.inr ⟨h₁, hc⟩
        · rintro (hp | ⟨h₁, h₂⟩)
          · exact Or.inl (Or.inl hp)
          · by_cases hs : l.segment = c
            · exact Or.inr ⟨h₁, hs⟩
            · refine Or.inl (Or.inr ⟨h₁, ?_⟩)
              intro hm
              rcases List.mem_cons.1 hm with hm | hm
              · exact hs hm
              · exact h₂ hm
  · rintro t (e | scan') ht
    · exact ht
    · refine ht.2.congr hd fun l _ => ?_
      simp

/-- The scan observes every slot file and removes the temporary files. -/
theorem ensures_scan (hd : Placed limits d) :
    Ensures (Tidying d) (Program.loop (scanLane limits) Lane.all (⟨[], 0, false⟩ : Scan β)) d
      (Yields fun scan t => ScanInv d (fun _ => True) scan t) := by
  have hstart : ScanInv d (fun l => l.lane ∉ Lane.all) ⟨[], 0, false⟩ d := by
    refine ⟨rfl, rfl, rfl, List.Sublist.refl _, ?_, ?_, List.nodup_nil, ?_⟩
    · intro l _ hl
      apply hl
      cases l.lane <;> simp [Lane.all]
    · intro f
      refine ⟨fun h => absurd h List.not_mem_nil, fun h => absurd ?_ h.2⟩
      cases f.location.lane <;> simp [Lane.all]
    · simp
  refine (ensures_loop (I := fun cs scan t => cs.Nodup ∧ ScanInv d (fun l => l.lane ∉ cs) scan t)
    ?_ ⟨by decide, hstart⟩).mono ?_
  · rintro c cs scan t ⟨hnodup, ht⟩
    obtain ⟨hc, hcs⟩ := List.nodup_cons.1 hnodup
    have hc' : ∀ l : Location, l.lane ∉ c :: cs → l.lane ≠ c := by
      intro l hl hlane
      exact hl (hlane ▸ List.mem_cons_self)
    apply (ensures_scanLane hd ht hc').mono
    · rintro u (e | scan') hu
      · exact hu
      · refine ⟨hcs, hu.congr hd fun l _ => ?_⟩
        constructor
        · rintro (h | h)
          · exact fun hm => h (List.mem_cons_of_mem _ hm)
          · rw [h]
            exact hc
        · intro h
          by_cases hl : l.lane = c
          · exact Or.inr hl
          · left
            intro hm
            rcases List.mem_cons.1 hm with hm | hm
            · exact hl hm
            · exact h hm
  · rintro t (e | scan) ht
    · exact ht
    · refine ht.2.congr hd fun l _ => ?_
      simp

end Scanning

/-! ## The winners -/

section Winners

variable {β : Type} {limits : QueueLimits} {d : QueueDir β}

theorem mem_insertWinner {winners : List (SlotFile β)} {item w : SlotFile β} :
    w ∈ insertWinner winners item ↔
      (w ∈ winners ∧ ¬ (w.record.recordId = item.record.recordId ∧ w.rank < item.rank)) ∨
        (w = item ∧ ((∀ v ∈ winners, v.record.recordId ≠ item.record.recordId) ∨
          ∃ v ∈ winners, v.record.recordId = item.record.recordId ∧ v.rank < item.rank)) := by
  unfold insertWinner
  split
  · next hany =>
    obtain ⟨v₀, hv₀, hid₀⟩ := List.any_eq_true.1 hany
    have hid₀ := of_decide_eq_true hid₀
    rw [List.mem_map]
    constructor
    · rintro ⟨v, hv, rfl⟩
      by_cases hlt : v.record.recordId = item.record.recordId ∧ v.rank < item.rank
      · rw [if_pos hlt]
        exact Or.inr ⟨rfl, Or.inr ⟨v, hv, hlt⟩⟩
      · rw [if_neg hlt]
        exact Or.inl ⟨hv, hlt⟩
    · rintro (⟨hw, hn⟩ | ⟨rfl, hnone | ⟨v, hv, hlt⟩⟩)
      · exact ⟨w, hw, if_neg hn⟩
      · exact absurd hid₀ (hnone v₀ hv₀)
      · exact ⟨v, hv, if_pos hlt⟩
  · next hany =>
    have hnone : ∀ v ∈ winners, v.record.recordId ≠ item.record.recordId := by
      intro v hv hid
      exact hany (List.any_eq_true.2 ⟨v, hv, decide_eq_true hid⟩)
    rw [List.mem_append, List.mem_singleton]
    constructor
    · rintro (hw | rfl)
      · exact Or.inl ⟨hw, fun h => hnone w hw h.1⟩
      · exact Or.inr ⟨rfl, Or.inl hnone⟩
    · rintro (⟨hw, -⟩ | ⟨rfl, -⟩)
      · exact Or.inl hw
      · exact Or.inr rfl

theorem insertWinner_ids (winners : List (SlotFile β)) (item : SlotFile β)
    (h : (winners.map fun w => w.record.recordId).Nodup) :
    ((insertWinner winners item).map fun w => w.record.recordId).Nodup := by
  unfold insertWinner
  split
  · have hmap : (winners.map fun w =>
        if w.record.recordId = item.record.recordId ∧ w.rank < item.rank then item else w).map
          (fun w => w.record.recordId) = winners.map fun w => w.record.recordId := by
      rw [List.map_map]
      refine List.map_congr_left fun w _ => ?_
      by_cases hlt : w.record.recordId = item.record.recordId ∧ w.rank < item.rank
      · simp [hlt.1, hlt.2]
      · simp [hlt]
    rw [hmap]
    exact h
  · next hany =>
    rw [List.map_append]
    refine List.nodup_append.2 ⟨h, List.nodup_singleton _, ?_⟩
    rintro a ha b hb rfl
    obtain ⟨w, hw, hid⟩ := List.mem_map.1 ha
    apply hany
    exact List.any_eq_true.2 ⟨w, hw, decide_eq_true (hid.trans (List.mem_singleton.1 hb))⟩

/-- The values of the dictionary have distinct record ids. -/
theorem winnersOf_ids (observed : List (SlotFile β)) :
    ((winnersOf observed).map fun w => w.record.recordId).Nodup := by
  have hfold : ∀ (items winners : List (SlotFile β)),
      (winners.map fun w => w.record.recordId).Nodup →
        ((items.foldl insertWinner winners).map fun w => w.record.recordId).Nodup := by
    intro items
    induction items with
    | nil => exact fun _ h => h
    | cons item items ih =>
        intro winners h
        exact ih _ (insertWinner_ids winners item h)
  exact hfold observed [] List.nodup_nil

/-- The values of the dictionary are the items of the highest rank of their record id. -/
theorem mem_winnersOf {observed : List (SlotFile β)} (hrank : ∀ f ∈ observed, ∀ g ∈ observed,
    f.rank = g.rank → f = g) (w : SlotFile β) :
    w ∈ winnersOf observed ↔
      w ∈ observed ∧ ∀ g ∈ observed, g.record.recordId = w.record.recordId → g.rank ≤ w.rank := by
  induction observed using List.reverseRecOn generalizing w with
  | nil => simp [winnersOf]
  | append_singleton items item ih =>
      have hsub : ∀ f ∈ items, f ∈ items ++ [item] := fun f hf => List.mem_append_left _ hf
      have hlast : item ∈ items ++ [item] := List.mem_append_right _ (List.mem_singleton_self _)
      have ih' := ih fun f hf g hg => hrank f (hsub f hf) g (hsub g hg)
      have hfold : winnersOf (items ++ [item]) = insertWinner (winnersOf items) item := by
        unfold winnersOf
        rw [List.foldl_append]
        rfl
      -- among the items of a record id there is one of the highest rank
      have htop : ∀ f ∈ items, ∃ v ∈ winnersOf items,
          v.record.recordId = f.record.recordId ∧ f.rank ≤ v.rank := by
        intro f hf
        have hmem : f ∈ items.filter fun g => decide (g.record.recordId = f.record.recordId) :=
          List.mem_filter.2 ⟨hf, decide_eq_true rfl⟩
        cases hv : List.argmax SlotFile.rank
            (items.filter fun g => decide (g.record.recordId = f.record.recordId)) with
        | none =>
            rw [List.argmax_eq_none.1 hv] at hmem
            exact absurd hmem List.not_mem_nil
        | some v =>
            obtain ⟨hvmem, hid⟩ := List.mem_filter.1 (List.argmax_mem hv)
            have hid := of_decide_eq_true hid
            refine ⟨v, (ih' v).2 ⟨hvmem, fun g hg hgid => ?_⟩, hid,
              List.le_of_mem_argmax hmem hv⟩
            exact List.le_of_mem_argmax
              (List.mem_filter.2 ⟨hg, decide_eq_true (hgid.trans hid)⟩) hv
      rw [hfold, mem_insertWinner]
      constructor
      · rintro (⟨hw, hn⟩ | ⟨rfl, hcase⟩)
        · obtain ⟨hw, hmax⟩ := (ih' w).1 hw
          refine ⟨hsub w hw, fun g hg hid => ?_⟩
          rcases List.mem_append.1 hg with hg | hg
          · exact hmax g hg hid
          · obtain rfl := List.mem_singleton.1 hg
            exact not_lt.1 fun hlt => hn ⟨hid.symm, hlt⟩
        · refine ⟨hlast, fun g hg hid => ?_⟩
          rcases List.mem_append.1 hg with hg | hg
          · obtain ⟨v, hv, hvid, hle⟩ := htop g hg
            rcases hcase with hnone | ⟨v', hv', hid', hlt⟩
            · exact absurd (hvid.trans hid) (hnone v hv)
            · have hmax := ((ih' v').1 hv').2 g hg (hid.trans hid'.symm)
              exact hmax.trans hlt.le
          · rw [List.mem_singleton.1 hg]
      · rintro ⟨hw, hmax⟩
        rcases List.mem_append.1 hw with hw | hw
        · left
          refine ⟨(ih' w).2 ⟨hw, fun g hg => hmax g (hsub g hg)⟩, ?_⟩
          rintro ⟨hid, hlt⟩
          exact absurd (hmax item hlast hid.symm) (not_le.2 hlt)
        · obtain rfl := List.mem_singleton.1 hw
          by_cases hmem : w ∈ winnersOf items
          · left
            exact ⟨hmem, fun h => lt_irrefl _ h.2⟩
          · right
            refine ⟨rfl, ?_⟩
            by_cases hnone : ∀ v ∈ winnersOf items, v.record.recordId ≠ w.record.recordId
            · exact Or.inl hnone
            · right
              push Not at hnone
              obtain ⟨v, hv, hid⟩ := hnone
              have hv' := ((ih' v).1 hv).1
              refine ⟨v, hv, hid, lt_of_le_of_ne (hmax v (hsub v hv') hid) ?_⟩
              intro heq
              exact hmem (hrank v (hsub v hv') w hlast heq ▸ hv)

/-- Every record id has a winner. -/
theorem exists_winner {f : SlotFile β} (hf : f ∈ d.slots) :
    ∃ w, Winner d w ∧ w.record.recordId = f.record.recordId := by
  have hmem : f ∈ d.slots.rows.filter
      fun g => decide (g.record.recordId = f.record.recordId) :=
    List.mem_filter.2 ⟨hf, decide_eq_true rfl⟩
  cases hv : List.argmax SlotFile.rank
      (d.slots.rows.filter fun g => decide (g.record.recordId = f.record.recordId)) with
  | none =>
      rw [List.argmax_eq_none.1 hv] at hmem
      exact absurd hmem List.not_mem_nil
  | some w =>
      obtain ⟨hw, hid⟩ := List.mem_filter.1 (List.argmax_mem hv)
      have hid := of_decide_eq_true hid
      refine ⟨w, ⟨hw, fun g hg hgid => ?_⟩, hid⟩
      exact List.le_of_mem_argmax (List.mem_filter.2 ⟨hg, decide_eq_true (hgid.trans hid)⟩) hv

end Winners

/-! ## The removal of the losers -/

section Removing

variable {β : Type} {limits : QueueLimits} {d s : QueueDir β}

theorem Placed.eq_of_sequence (hd : Placed limits d) {f g : SlotFile β} (hf : f ∈ d.slots)
    (hg : g ∈ d.slots) (h : f.record.sequence = g.record.sequence) : f = g :=
  List.inj_on_of_nodup_map hd.sequences hf hg h

theorem Placed.eq_of_rank (hd : Placed limits d) {f g : SlotFile β} (hf : f ∈ d.slots)
    (hg : g ∈ d.slots) (h : f.rank = g.rank) : f = g := by
  apply hd.eq_of_sequence hf hg
  have h₁ := congrArg (fun r : Nat ×ₗ Nat ×ₗ Nat => (ofLex (ofLex r).2).1) h
  exact h₁

theorem mem_winners (hd : Placed limits d) {scan : Scan β}
    (h : ScanInv d (fun _ => True) scan s) (f : SlotFile β) :
    f ∈ winnersOf scan.observed ↔ Winner d f := by
  have hmem : ∀ g, g ∈ scan.observed ↔ g ∈ d.slots := by
    intro g
    rw [h.mem]
    simp
  rw [mem_winnersOf, hmem]
  · unfold Winner
    simp only [hmem]
  · intro f hf g hg hrank
    exact hd.eq_of_rank ((hmem f).1 hf) ((hmem g).1 hg) hrank

/-- The state of the removal of the losers, with `rest` still to be looked at. -/
structure RemoveInv (limits : QueueLimits) (d : QueueDir β) (rest : List (SlotFile β))
    (mutations : Nat) (s : QueueDir β) : Prop where
  rest_nodup : rest.Nodup
  rest_sub : ∀ f ∈ rest, f ∈ d.slots
  slots : s.slots.rows.Sublist d.slots.rows
  mem : ∀ f, f ∈ s.slots ↔ f ∈ d.slots ∧ (Winner d f ∨ f ∈ rest)
  segments : s.segments = d.segments
  state : s.state = d.state
  temps : s.temps = []
  budget : mutations + 2 * rest.length ≤ 2 * limits.maxRecords + 2

theorem RemoveInv.tidying {rest : List (SlotFile β)} {mutations : Nat} (hd : Placed limits d)
    (h : RemoveInv limits d rest mutations s) : Tidying d s where
  slots := h.slots
  winners f hf := (h.mem f).2 ⟨hf.1, Or.inl hf⟩
  segments := by rw [h.segments]
  file_segment f hf := by
    rw [h.segments]
    exact (hd.file_within f ((h.mem f).1 hf).1).1
  temp_segment l hl := by
    rw [h.temps] at hl
    exact absurd hl List.not_mem_nil
  temps := by
    rw [h.temps]
    exact List.nil_sublist _
  state := h.state

theorem ensures_removeLoser {winners : List (SlotFile β)} (hd : Placed limits d)
    (hw : ∀ f, f ∈ winners ↔ Winner d f) {item : SlotFile β} {rest : List (SlotFile β)}
    {mutations : Nat} (h : RemoveInv limits d (item :: rest) mutations s) :
    Ensures (Tidying d) (removeLoser limits winners mutations item) s
      (Yields (RemoveInv limits d rest)) := by
  obtain ⟨hnot, hrest⟩ := List.nodup_cons.1 h.rest_nodup
  have hitem : item ∈ d.slots := h.rest_sub item List.mem_cons_self
  have hsub : ∀ f ∈ rest, f ∈ d.slots := fun f hf => h.rest_sub f (List.mem_cons_of_mem _ hf)
  have hbudget := h.budget
  rw [List.length_cons] at hbudget
  unfold removeLoser
  split
  · next hloc =>
    -- the item is a winner, since no other file has its place
    obtain ⟨w, hwmem, hwloc⟩ := List.mem_map.1 hloc
    have hwin := (hw w).1 hwmem
    obtain rfl : w = item := Table.eq_of_key_eq hwin.1 hitem hwloc
    refine { h with rest_nodup := hrest, rest_sub := hsub, mem := ?_, budget := by omega }
    intro f
    rw [h.mem]
    constructor
    · rintro ⟨hf, hcase⟩
      refine ⟨hf, ?_⟩
      rcases hcase with hf' | hf'
      · exact Or.inl hf'
      · rcases List.mem_cons.1 hf' with rfl | hf'
        · exact Or.inl hwin
        · exact Or.inr hf'
    · rintro ⟨hf, hf' | hf'⟩
      · exact ⟨hf, Or.inl hf'⟩
      · exact ⟨hf, Or.inr (List.mem_cons_of_mem _ hf')⟩
  · next hloc =>
    have hloser : ¬ Winner d item := by
      intro hwin
      exact hloc (List.mem_map.2 ⟨item, (hw item).2 hwin, rfl⟩)
    apply ensures_step (h.tidying hd)
    dsimp only [QueueDir.answer, QueueDir.after]
    have hmem : item ∈ s.slots := (h.mem item).2 ⟨hitem, Or.inr List.mem_cons_self⟩
    rw [show s.slots.find? item.location = some item from Table.find?_of_mem hmem]
    dsimp only
    rw [if_neg (by simp)]
    apply ensures_step (h.tidying hd)
    have hmem' : ∀ f, f ∈ (s.unlinkSlot item.location).slots ↔
        f ∈ s.slots ∧ f ≠ item := by
      intro f
      refine Table.mem_deleteWhere.trans ?_
      constructor
      · rintro ⟨hf, hne⟩
        refine ⟨hf, ?_⟩
        rintro rfl
        simp at hne
      · rintro ⟨hf, hne⟩
        refine ⟨hf, decide_eq_false fun hl => hne ?_⟩
        exact Table.eq_of_key_eq hf hmem hl
    have hnext : RemoveInv limits d rest (mutations + 2) (s.unlinkSlot item.location) := by
      refine { h with rest_nodup := hrest, rest_sub := hsub, slots := ?_, mem := ?_,
                      budget := by omega }
      · exact List.filter_sublist.trans h.slots
      · intro f
        rw [hmem', h.mem]
        constructor
        · rintro ⟨⟨hf, hcase⟩, hne⟩
          refine ⟨hf, ?_⟩
          rcases hcase with hf' | hf'
          · exact Or.inl hf'
          · rcases List.mem_cons.1 hf' with hf' | hf'
            · exact absurd hf' hne
            · exact Or.inr hf'
        · rintro ⟨hf, hcase⟩
          refine ⟨⟨hf, hcase.imp_right (List.mem_cons_of_mem _)⟩, ?_⟩
          rintro rfl
          exact hcase.elim hloser hnot
    have hlimit := limits.reconcile_le
    have hcheck : mutations + 2 ≤ limits.reconcileMaxMutations := by omega
    apply ensures_bind (ensures_budget
      (Q := fun u => RemoveInv limits d rest (mutations + 2) u) hcheck hnext)
    intro _ u hu
    exact hu

/-- After the removal the slot files are the winners. -/
theorem ensures_removeLosers {scan : Scan β} (hd : Placed limits d)
    (h : ScanInv d (fun _ => True) scan s) :
    Ensures (Tidying d)
      (Program.loop (removeLoser limits (winnersOf scan.observed)) scan.observed scan.mutations) s
      (Yields (RemoveInv limits d [])) := by
  refine ensures_loop (I := RemoveInv limits d) ?_ ?_
  · intro c cs b t ht
    exact ensures_removeLoser hd (mem_winners hd h) ht
  · have htemps : s.temps = [] := by
      apply List.eq_nil_iff_forall_not_mem.2
      intro l hl
      exact h.removed l hl trivial
    have hlen := h.length_le hd
    have hbudget := h.budget
    have htemps' := hd.temps_le
    refine ⟨h.nodup, fun f hf => ((h.mem f).1 hf).1, by rw [h.slots], fun f => ?_, h.segments,
      h.state, htemps, by omega⟩
    rw [h.slots, h.mem]
    constructor
    · intro hf
      exact ⟨hf, Or.inr ⟨hf, trivial⟩⟩
    · exact And.left

end Removing

/-! ## The rebuild -/

section Rebuilding

variable {β : Type} {limits : QueueLimits} {d s s₀ : QueueDir β}

/-- A segment that holds a slot file. -/
def UsedSegment (d : QueueDir β) (p : Lane × Nat) : Prop :=
  ∃ f ∈ d.slots, (f.location.lane, f.location.segment) = p

/-- The state of the removal of empty segments from `s₀`, whose slot files are the winners; those
that meet `P` are already removed. -/
structure PruneInv (limits : QueueLimits) (s₀ : QueueDir β) (P : Lane × Nat → Prop)
    (mutations : Nat) (s : QueueDir β) : Prop where
  slots : s.slots = s₀.slots
  state : s.state = s₀.state
  temps : s.temps = []
  segments : s.segments.Sublist s₀.segments
  used : ∀ p, UsedSegment s₀ p → p ∈ s.segments
  pruned : ∀ p ∈ s.segments, P p → UsedSegment s₀ p
  budget : mutations + 2 * s.segments.length ≤
    2 * limits.maxRecords + 6 * limits.maxSegments + 2

theorem PruneInv.tidying {P : Lane × Nat → Prop} {mutations m : Nat}
    (hr : RemoveInv limits d [] m s₀) (h : PruneInv limits s₀ P mutations s) : Tidying d s where
  slots := by
    rw [h.slots]
    exact hr.slots
  winners f hf := by
    rw [h.slots]
    exact (hr.mem f).2 ⟨hf.1, Or.inl hf⟩
  segments := by
    rw [← hr.segments]
    exact h.segments
  file_segment f hf := by
    rw [h.slots] at hf
    exact h.used _ ⟨f, hf, rfl⟩
  temp_segment l hl := by
    rw [h.temps] at hl
    exact absurd hl List.not_mem_nil
  temps := by
    rw [h.temps]
    exact List.nil_sublist _
  state := h.state.trans hr.state

theorem ensures_removeSegment {P : Lane × Nat → Prop} {mutations m : Nat} (hd : Placed limits d)
    (hr : RemoveInv limits d [] m s₀) (h : PruneInv limits s₀ P mutations s) {lane : Lane}
    {segment : Nat} (hin : (lane, segment) ∈ s.segments) :
    Ensures (Tidying d) (removeSegment limits lane mutations segment) s
      (Yields fun mutations' t =>
        PruneInv limits s₀ (fun p => P p ∨ p = (lane, segment)) mutations' t ∧
          ∀ p, p ≠ (lane, segment) → (p ∈ t.segments ↔ p ∈ s.segments)) := by
  unfold removeSegment
  apply ensures_step (h.tidying hr)
  dsimp only [QueueDir.answer, QueueDir.after]
  rw [h.slots]
  split
  · next hany =>
    obtain ⟨slot, -, hsome⟩ := List.any_eq_true.1 hany
    obtain ⟨f, hf⟩ := Option.isSome_iff_exists.1 hsome
    have hused : UsedSegment s₀ (lane, segment) := by
      refine ⟨f, Table.mem_of_find? hf, ?_⟩
      rw [show f.location = ⟨lane, segment, slot⟩ from Table.key_of_find? hf]
    refine ⟨{ h with pruned := ?_ }, fun _ _ => Iff.rfl⟩
    rintro p hp (hP | rfl)
    · exact h.pruned p hp hP
    · exact hused
  · next hany =>
    have hunused : ¬ UsedSegment s₀ (lane, segment) := by
      rintro ⟨f, hf, heq⟩
      apply hany
      refine List.any_eq_true.2 ⟨f.location.slot, ?_, ?_⟩
      · rw [List.mem_range]
        exact (hd.file_within f ((hr.mem f).1 hf).1).2
      · have hloc : f.location = ⟨lane, segment, f.location.slot⟩ := by
          cases heq
          rfl
        rw [← hloc, show s₀.slots.find? f.location = some f from Table.find?_of_mem hf]
        rfl
    apply ensures_step (h.tidying hr)
    have hsub : (s.rmdirSegment lane segment).segments.Sublist s.segments := List.filter_sublist
    have hlen : (s.rmdirSegment lane segment).segments.length < s.segments.length := by
      apply List.length_filter_lt_length_iff_exists.2
      exact ⟨_, hin, by simp⟩
    have hbudget := h.budget
    have hnext : PruneInv limits s₀ (fun p => P p ∨ p = (lane, segment)) (mutations + 2)
        (s.rmdirSegment lane segment) := by
      refine ⟨h.slots, h.state, h.temps, hsub.trans h.segments, ?_, ?_, by omega⟩
      · intro p hp
        refine List.mem_filter.2 ⟨h.used p hp, decide_eq_true ?_⟩
        rintro rfl
        exact hunused hp
      · rintro p hp (hP | rfl)
        · exact h.pruned p (hsub.subset hp) hP
        · exact absurd rfl (of_decide_eq_true (List.mem_filter.1 hp).2)
    have hsame : ∀ p, p ≠ (lane, segment) →
        (p ∈ (s.rmdirSegment lane segment).segments ↔ p ∈ s.segments) := by
      intro p hp
      exact ⟨fun hm => hsub.subset hm, fun hm => List.mem_filter.2 ⟨hm, decide_eq_true hp⟩⟩
    have hlimit := limits.reconcile_le
    have hcheck : mutations + 2 ≤ limits.reconcileMaxMutations := by omega
    apply ensures_bind (ensures_budget (Q := fun u => u = s.rmdirSegment lane segment) hcheck rfl)
    rintro _ u rfl
    exact ⟨hnext, hsame⟩

/-- The segments of a lane depend on the names in it. -/
theorem laneSegments_length_eq {t : QueueDir β} {lane : Lane} (hs : s.segments.Nodup)
    (ht : t.segments.Nodup) (h : ∀ p, p.1 = lane → (p ∈ t.segments ↔ p ∈ s.segments)) :
    (laneSegments t lane).length = (laneSegments s lane).length := by
  have hperm : (laneSegments t lane).Perm (laneSegments s lane) := by
    refine (List.perm_ext_iff_of_nodup (ht.filter _) (hs.filter _)).2 ?_
    intro p
    rw [List.mem_filter, List.mem_filter]
    constructor
    · rintro ⟨hp, hl⟩
      exact ⟨(h p (of_decide_eq_true hl)).1 hp, hl⟩
    · rintro ⟨hp, hl⟩
      exact ⟨(h p (of_decide_eq_true hl)).2 hp, hl⟩
  exact hperm.length_eq

theorem PruneInv.lane_length_le {P : Lane × Nat → Prop} {mutations m : Nat}
    (hd : Placed limits d) (hr : RemoveInv limits d [] m s₀)
    (h : PruneInv limits s₀ P mutations s) : s.segments.Nodup ∧
      ∀ x ∈ s.segments, x.2 < limits.maxSegments := by
  have hsub := h.segments
  rw [hr.segments] at hsub
  exact ⟨hd.segments_nodup.sublist hsub, fun x hx => hd.segment_lt x (hsub.subset hx)⟩

/-- The state of the rebuild: the lanes that are not in `rest` are rebuilt. -/
structure RebuildInv (limits : QueueLimits) (d s₀ : QueueDir β) (winners : List (SlotFile β))
    (rest : List Lane) (acc : QueueState × Nat) (s : QueueDir β) : Prop where
  rest_nodup : rest.Nodup
  prune : PruneInv limits s₀ (fun p => p.1 ∉ rest) acc.2 s
  lanes : ∀ lane, lane ∉ rest → acc.1.lanes lane =
    rebuiltLane limits (laneItems winners lane) (laneSegments s lane).length
  capacityEvents : acc.1.capacityEvents = d.state.capacityEvents

theorem ensures_rebuildLane {winners : List (SlotFile β)} {m : Nat} (hd : Placed limits d)
    (hr : RemoveInv limits d [] m s₀) {lane : Lane} {rest : List Lane} {acc : QueueState × Nat}
    (h : RebuildInv limits d s₀ winners (lane :: rest) acc s) :
    Ensures (Tidying d) (rebuildLane limits winners acc lane) s
      (Yields (RebuildInv limits d s₀ winners rest)) := by
  obtain ⟨hnot, hrest⟩ := List.nodup_cons.1 h.rest_nodup
  have hn₀ : s₀.segments.Nodup := by
    rw [hr.segments]
    exact hd.segments_nodup
  unfold rebuildLane
  obtain ⟨hn, hlt⟩ := h.prune.lane_length_le hd hr
  apply ensures_segmentNames (h.prune.tidying hr) hn hlt
  have hstart : PruneInv limits s₀
      (fun p => p.1 ∉ lane :: rest ∨ (p.1 = lane ∧ p.2 ∉ laneNumbers s lane)) acc.2 s := by
    refine { h.prune with pruned := ?_ }
    rintro p hp (hP | ⟨hl, hnum⟩)
    · exact h.prune.pruned p hp hP
    · exact absurd (mem_laneNumbers.2 (by rw [← hl]; exact hp)) hnum
  have hloop : Ensures (Tidying d)
      (Program.loop (removeSegment limits lane) (laneNumbers s lane) acc.2) s
      (Yields fun mutations t => ([] : List Nat).Nodup ∧
        PruneInv limits s₀ (fun p => p.1 ∉ lane :: rest ∨ (p.1 = lane ∧ p.2 ∉ ([] : List Nat)))
          mutations t ∧
        (∀ n ∈ ([] : List Nat), (lane, n) ∈ t.segments) ∧
          ∀ p, p.1 ≠ lane → (p ∈ t.segments ↔ p ∈ s.segments)) := by
    refine ensures_loop (I := fun cs mutations t => cs.Nodup ∧
      PruneInv limits s₀ (fun p => p.1 ∉ lane :: rest ∨ (p.1 = lane ∧ p.2 ∉ cs)) mutations t ∧
        (∀ n ∈ cs, (lane, n) ∈ t.segments) ∧
          ∀ p, p.1 ≠ lane → (p ∈ t.segments ↔ p ∈ s.segments)) ?_
      ⟨laneNumbers_nodup hn lane, hstart, fun n hmem => mem_laneNumbers.1 hmem,
        fun _ _ => Iff.rfl⟩
    rintro c cs mutations t ⟨hcs, ht, hmem, hother⟩
    obtain ⟨hc, hcs⟩ := List.nodup_cons.1 hcs
    apply (ensures_removeSegment hd hr ht (hmem c List.mem_cons_self)).mono
    rintro u (e | mutations') hu
    · exact hu
    obtain ⟨hu, hsame⟩ := hu
    refine ⟨hcs, { hu with pruned := ?_ }, ?_, ?_⟩
    · rintro p hp (hP | ⟨hl, hnum⟩)
      · exact hu.pruned p hp (Or.inl (Or.inl hP))
      · by_cases heq : p.2 = c
        · exact hu.pruned p hp (Or.inr (Prod.ext hl heq))
        · refine hu.pruned p hp (Or.inl (Or.inr ⟨hl, fun hm => ?_⟩))
          rcases List.mem_cons.1 hm with hm | hm
          · exact heq hm
          · exact hnum hm
    · intro n hn'
      refine (hsame _ ?_).2 (hmem n (List.mem_cons_of_mem _ hn'))
      rintro heq
      cases heq
      exact hc hn'
    · intro p hp
      refine (hsame p ?_).trans (hother p hp)
      rintro rfl
      exact hp rfl
  apply ensures_bind hloop
  rintro mutations t ⟨-, ht, -, hother⟩
  have hpruned : PruneInv limits s₀ (fun p => p.1 ∉ rest) mutations t := by
    refine { ht with pruned := ?_ }
    intro p hp hP
    by_cases hl : p.1 = lane
    · exact ht.pruned p hp (Or.inr ⟨hl, List.not_mem_nil⟩)
    · refine ht.pruned p hp (Or.inl fun hm => ?_)
      rcases List.mem_cons.1 hm with hm | hm
      · exact hl hm
      · exact hP hm
  obtain ⟨hn', hlt'⟩ := hpruned.lane_length_le hd hr
  apply ensures_segmentNames (hpruned.tidying hr) hn' hlt'
  refine ⟨hrest, hpruned, ?_, h.capacityEvents⟩
  intro other hother'
  by_cases hl : other = lane
  · subst hl
    show Function.update acc.1.lanes other _ other = _
    rw [Function.update_self]
    unfold laneNumbers
    rw [List.length_map]
  · show Function.update acc.1.lanes lane _ other = _
    rw [Function.update_of_ne hl, h.lanes other fun hm => ?_]
    · rw [laneSegments_length_eq (hn₀.sublist h.prune.segments) (hn₀.sublist hpruned.segments)]
      intro p hp
      exact hother p fun h' => hl (hp.symm.trans h')
    · rcases List.mem_cons.1 hm with hm | hm
      · exact hl hm
      · exact hother' hm

theorem ensures_rebuild {winners : List (SlotFile β)} {m mutations : Nat} (hd : Placed limits d)
    (hr : RemoveInv limits d [] m s) (hm : mutations ≤ 2 * limits.maxRecords + 2)
    {state : QueueState} (hstate : state.capacityEvents = d.state.capacityEvents) :
    Ensures (Tidying d) (Program.loop (rebuildLane limits winners) Lane.all (state, mutations)) s
      (Yields (RebuildInv limits d s winners [])) := by
  refine ensures_loop (I := RebuildInv limits d s winners) ?_ ?_
  · intro c cs b t ht
    exact ensures_rebuildLane hd hr ht
  · have hlen : s.segments.length ≤ 3 * limits.maxSegments := by
      have hsum : ∀ l : List (Lane × Nat), l.length =
          ((Lane.all.map fun lane => (l.filter fun p => decide (p.1 = lane)).length).sum) := by
        intro l
        induction l with
        | nil => rfl
        | cons p l ih =>
            obtain ⟨lane, n⟩ := p
            cases lane <;> simp [Lane.all] at ih ⊢ <;> omega
      have hlane : ∀ lane, (s.segments.filter fun p => decide (p.1 = lane)).length ≤
          limits.maxSegments := by
        intro lane
        have hn : s.segments.Nodup := by
          rw [hr.segments]
          exact hd.segments_nodup
        have hlt : ∀ x ∈ s.segments, x.2 < limits.maxSegments := by
          rw [hr.segments]
          exact hd.segment_lt
        have := laneNumbers_length_le hn hlt lane
        unfold laneNumbers laneSegments at this
        rwa [List.length_map] at this
      rw [hsum s.segments]
      have h₁ := hlane .ready
      have h₂ := hlane .deferred
      have h₃ := hlane .held
      simp only [Lane.all, List.map_cons, List.map_nil, List.sum_cons, List.sum_nil]
      omega
    refine ⟨by decide, ⟨rfl, rfl, hr.temps, List.Sublist.refl _, ?_, ?_, ?_⟩, ?_, hstate⟩
    · rintro p ⟨f, hf, rfl⟩
      rw [hr.segments]
      exact (hd.file_within f ((hr.mem f).1 hf).1).1
    · intro p _ hP
      refine absurd ?_ hP
      cases p.1 <;> simp [Lane.all]
    · dsimp only
      omega
    · intro lane hlane
      refine absurd ?_ hlane
      cases lane <;> simp [Lane.all]

end Rebuilding

/-! ## Reconciliation -/

section Reconciling

variable {β : Type} {limits : QueueLimits} {d s s₀ : QueueDir β}

theorem laneItems_perm (files : List (SlotFile β)) (lane : Lane) :
    (laneItems files lane).Perm (files.filter fun f => decide (f.location.lane = lane)) :=
  List.perm_insertionSort _ _

theorem mem_laneItems {files : List (SlotFile β)} {lane : Lane} {f : SlotFile β} :
    f ∈ laneItems files lane ↔ f ∈ files ∧ f.location.lane = lane := by
  rw [(laneItems_perm files lane).mem_iff, List.mem_filter, decide_eq_true_eq]

theorem laneItems_sorted (files : List (SlotFile β)) (lane : Lane) :
    (laneItems files lane).Pairwise fun a b => a.record.sequence ≤ b.record.sequence := by
  unfold laneItems
  have : Std.Total fun a b : SlotFile β => a.record.sequence ≤ b.record.sequence :=
    ⟨fun a b => le_total _ _⟩
  have : IsTrans (SlotFile β) fun a b => a.record.sequence ≤ b.record.sequence :=
    ⟨fun a b c => le_trans⟩
  exact List.pairwise_insertionSort _ _

/-- The order of a lane does not depend on the order of observation. -/
theorem laneItems_congr {files files' : List (SlotFile β)} (h : files.Perm files')
    (hinj : ∀ f ∈ files, ∀ g ∈ files, f.record.sequence = g.record.sequence → f = g)
    (lane : Lane) : laneItems files lane = laneItems files' lane := by
  have hperm : (laneItems files lane).Perm (laneItems files' lane) :=
    (laneItems_perm files lane).trans
      ((h.filter _).trans (laneItems_perm files' lane).symm)
  refine hperm.eq_of_pairwise ?_ (laneItems_sorted files lane) (laneItems_sorted files' lane)
  intro a b ha hb hab hba
  have hb' := hperm.mem_iff.2 hb
  exact hinj a (mem_laneItems.1 ha).1 b (mem_laneItems.1 hb').1 (le_antisymm hab hba)

theorem sequence_lt_next {files : List (SlotFile β)} {f : SlotFile β} (hf : f ∈ files) :
    f.record.sequence < nextSequenceOf files := by
  have hfold : ∀ (l : List Nat) (m : Nat), m ≤ l.foldl max m ∧ ∀ n ∈ l, n ≤ l.foldl max m := by
    intro l
    induction l with
    | nil => exact fun m => ⟨le_rfl, fun _ h => absurd h List.not_mem_nil⟩
    | cons a l ih =>
        intro m
        obtain ⟨h₁, h₂⟩ := ih (max m a)
        refine ⟨(le_max_left m a).trans h₁, ?_⟩
        intro n hn
        rcases List.mem_cons.1 hn with rfl | hn
        · exact (le_max_right m n).trans h₁
        · exact h₂ n hn
  exact (hfold _ 0).2 _ (List.mem_map.2 ⟨f, hf, rfl⟩)

theorem nextSequenceOf_congr {files files' : List (SlotFile β)} (h : files.Perm files') :
    nextSequenceOf files = nextSequenceOf files' :=
  (h.map _).foldl_eq 0

/-- A sum over the lanes. -/
theorem sum_lanes (files : List (SlotFile β)) (g : SlotFile β → Nat) :
    (Lane.all.map fun lane =>
      ((files.filter fun f => decide (f.location.lane = lane)).map g).sum).sum =
        (files.map g).sum := by
  induction files with
  | nil => rfl
  | cons f files ih =>
      cases hl : f.location.lane <;> simp [Lane.all, hl] at ih ⊢ <;> omega

theorem Location.cursor_lt {l : Location} (hl : l.Within limits d)
    (hd : ∀ x ∈ d.segments, x.2 < limits.maxSegments) : l.cursor limits < limits.capacity := by
  have hseg : l.segment + 1 ≤ limits.maxSegments := hd _ hl.1
  have hslot := hl.2
  unfold Location.cursor QueueLimits.capacity
  calc l.segment * limits.segmentSize + l.slot
      < l.segment * limits.segmentSize + limits.segmentSize := by omega
    _ = limits.segmentSize * (l.segment + 1) := by rw [Nat.mul_add_one, Nat.mul_comm]
    _ ≤ limits.segmentSize * limits.maxSegments := Nat.mul_le_mul_left _ hseg

theorem QueueLimits.capacity_pos (limits : QueueLimits) : 0 < limits.capacity :=
  Nat.mul_pos limits.segmentSize_pos limits.maxSegments_pos

theorem sum_le_of_sublist {l l' : List Nat} (h : l.Sublist l') : l.sum ≤ l'.sum := by
  induction h with
  | slnil => exact le_rfl
  | cons a _ ih =>
      rw [List.sum_cons]
      omega
  | cons_cons a _ ih =>
      rw [List.sum_cons, List.sum_cons]
      omega

/-- The directory with the rebuilt state. -/
theorem reconciled_of {winners : List (SlotFile β)} {m : Nat} {acc : QueueState × Nat}
    (hd : Placed limits d) (hr : RemoveInv limits d [] m s₀)
    (hb : RebuildInv limits d s₀ winners [] acc s) (hw : ∀ f, f ∈ winners ↔ Winner d f)
    (hn : winners.Nodup) :
    total acc.1 LaneState.bytes ≤ limits.maxRecordBytes ∧
      Reconciled limits d
        { s with state := { acc.1 with nextSequence := nextSequenceOf winners } } := by
  have hsub : s.slots.rows.Sublist d.slots.rows := by
    rw [hb.prune.slots]
    exact hr.slots
  have hmem : ∀ f, f ∈ s.slots.rows ↔ Winner d f := by
    intro f
    have := hr.mem f
    rw [hb.prune.slots]
    refine this.trans ?_
    constructor
    · rintro ⟨-, h | h⟩
      · exact h
      · exact absurd h List.not_mem_nil
    · exact fun h => ⟨h.1, Or.inl h⟩
  have hrows : s.slots.rows.Nodup := List.Nodup.of_map _ s.slots.nodup
  have hperm : winners.Perm s.slots.rows :=
    (List.perm_ext_iff_of_nodup hn hrows).2 fun f => (hw f).trans (hmem f).symm
  have hinj : ∀ f ∈ winners, ∀ g ∈ winners, f.record.sequence = g.record.sequence → f = g :=
    fun f hf g hg => hd.eq_of_sequence ((hw f).1 hf).1 ((hw g).1 hg).1
  have hitems : ∀ lane, laneItems winners lane = laneItems s.slots.rows lane :=
    laneItems_congr hperm hinj
  have hlanes : ∀ lane, acc.1.lanes lane =
      rebuiltLane limits (laneItems s.slots.rows lane) (laneSegments s lane).length := by
    intro lane
    rw [hb.lanes lane List.not_mem_nil, hitems]
  have hbytes : ∀ lane, (acc.1.lanes lane).bytes = ((laneFiles s lane).map SlotFile.size).sum := by
    intro lane
    rw [hlanes]
    exact ((laneItems_perm s.slots.rows lane).map _).sum_nat
  have hcount : ∀ lane, (acc.1.lanes lane).count = (laneFiles s lane).length := by
    intro lane
    rw [hlanes]
    exact (laneItems_perm s.slots.rows lane).length_eq
  have hsum : (s.slots.rows.map SlotFile.size).sum ≤ limits.maxRecordBytes :=
    (sum_le_of_sublist (hsub.map _)).trans hd.bytes_le
  have htotal : total acc.1 LaneState.bytes = (s.slots.rows.map SlotFile.size).sum := by
    unfold total
    rw [← sum_lanes]
    congr 1
    refine List.map_congr_left fun lane _ => ?_
    exact hbytes lane
  obtain ⟨hsegn, hseglt⟩ := hb.prune.lane_length_le hd hr
  have hwithin : ∀ f ∈ s.slots.rows, f.location.Within limits s := by
    intro f hf
    have hf₀ : f ∈ s₀.slots := by
      rw [← hb.prune.slots]
      exact hf
    exact ⟨hb.prune.used _ ⟨f, hf₀, rfl⟩, (hd.file_within f (hsub.subset hf)).2⟩
  have hlane_le : ∀ lane, (laneFiles s lane).length ≤ limits.maxRecords := by
    intro lane
    exact (List.length_filter_le _ _).trans (hsub.length_le.trans hd.records_le)
  have hlane_bytes : ∀ lane, ((laneFiles s lane).map SlotFile.size).sum ≤
      limits.maxRecordBytes := by
    intro lane
    exact (sum_le_of_sublist (List.filter_sublist.map _)).trans hsum
  have hlane_segments : ∀ lane, (laneSegments s lane).length ≤ limits.maxSegments := by
    intro lane
    have hle := laneNumbers_length_le hsegn hseglt lane
    unfold laneNumbers at hle
    rwa [List.length_map] at hle
  have hhead : ∀ lane, (acc.1.lanes lane).headCursor < limits.capacity := by
    intro lane
    rw [hlanes]
    unfold rebuiltLane
    dsimp only
    split
    · next first hf =>
      have hmem' := (mem_laneItems.1 (List.mem_of_mem_head? hf)).1
      exact Location.cursor_lt (hwithin first hmem') hseglt
    · exact limits.capacity_pos
  have hwrite : ∀ lane, (acc.1.lanes lane).writeCursor < limits.capacity := by
    intro lane
    rw [hlanes]
    unfold rebuiltLane
    dsimp only
    split
    · exact Nat.mod_lt _ limits.capacity_pos
    · exact limits.capacity_pos
  have hvalid : validState limits { acc.1 with nextSequence := nextSequenceOf winners } = true := by
    unfold validState
    rw [List.all_eq_true]
    intro lane _
    simp only [Bool.and_eq_true, decide_eq_true_eq]
    refine ⟨⟨⟨⟨hhead lane, hwrite lane⟩, ?_⟩, ?_⟩, ?_⟩
    · rw [hcount]
      exact hlane_le lane
    · rw [hbytes]
      exact hlane_bytes lane
    · rw [hlanes]
      exact hlane_segments lane
  refine ⟨htotal.trans_le hsum, ?_⟩
  exact
    { segments_nodup := hsegn
      segment_lt := hseglt
      file_within := hwithin
      temp_within := by
        intro l hl
        rw [show ({ s with state := { acc.1 with nextSequence := nextSequenceOf winners } } :
          QueueDir β).temps = [] from hb.prune.temps] at hl
        exact absurd hl List.not_mem_nil
      temps_le := by
        show s.temps.length ≤ 1
        rw [hb.prune.temps]
        exact Nat.zero_le 1
      records_le := hsub.length_le.trans hd.records_le
      bytes_le := hsum
      sequences := hd.sequences.sublist (hsub.map _)
      valid := hvalid
      temps := hb.prune.temps
      count := hcount
      bytes := hbytes
      segments := fun lane => by
        show (acc.1.lanes lane).segments = _
        rw [hlanes]
        rfl
      sequence_lt := fun f hf => sequence_lt_next (hperm.mem_iff.2 hf)
      slots := hsub
      mem_slots := hmem
      capacityEvents := hb.capacityEvents
      lanes := hlanes
      nextSequence := nextSequenceOf_congr hperm }

/-- `reconcile` does not fail; while it works the winners stay, and it leaves exact counters. -/
theorem ensures_reconcile (hd : Placed limits d) :
    Ensures (Tidying d) (reconcile limits) d (Yields fun _ => Reconciled limits d) := by
  unfold reconcile
  apply ensures_readState (Tidying.refl hd) hd.valid
  apply ensures_bind (ensures_scan hd)
  intro scan s₁ h₁
  apply ensures_bind (ensures_removeLosers hd h₁)
  intro mutations s₂ h₂
  have hmut : mutations ≤ 2 * limits.maxRecords + 2 := by
    have := h₂.budget
    rw [List.length_nil] at this
    omega
  have hrebuild : Ensures (Tidying d) (Program.loop (rebuildLane limits (winnersOf scan.observed))
      Lane.all ({ initialState with capacityEvents := d.state.capacityEvents }, mutations)) s₂
        (Yields (RebuildInv limits d s₂ (winnersOf scan.observed) [])) :=
    ensures_rebuild hd h₂ hmut rfl
  apply ensures_bind hrebuild
  intro acc s₃ h₃
  obtain ⟨hbytes, hfinal⟩ := reconciled_of hd h₂ h₃ (mem_winners hd h₁)
    (List.Nodup.of_map _ (winnersOf_ids scan.observed))
  apply ensures_else (not_lt.2 hbytes)
  exact ensures_last (h₃.prune.tidying h₂) hfinal

/-- The files that reconciliation keeps have distinct record ids. -/
theorem Reconciled.unique (hd : Placed limits d) (h : Reconciled limits d s) : UniqueIds s := by
  have hrows : s.slots.rows.Nodup := List.Nodup.of_map _ s.slots.nodup
  refine List.Nodup.map_on ?_ hrows
  intro f hf g hg hid
  have hf' := (h.mem_slots f).1 hf
  have hg' := (h.mem_slots g).1 hg
  apply hd.eq_of_rank hf'.1 hg'.1
  exact le_antisymm (hg'.2 f hf'.1 hid) (hf'.2 g hg'.1 hid.symm)

/-- Wherever reconciliation stops, it can be started again. -/
theorem Tidying.placed (hd : Placed limits d) (h : Tidying d s) : Placed limits s where
  segments_nodup := hd.segments_nodup.sublist h.segments
  segment_lt x hx := hd.segment_lt x (h.segments.subset hx)
  file_within f hf := ⟨h.file_segment f hf, (hd.file_within f (h.slots.subset hf)).2⟩
  temp_within l hl := ⟨h.temp_segment l hl, (hd.temp_within l (h.temps.subset hl)).2⟩
  temps_le := h.temps.length_le.trans hd.temps_le
  records_le := h.slots.length_le.trans hd.records_le
  bytes_le := (sum_le_of_sublist (h.slots.map _)).trans hd.bytes_le
  sequences := hd.sequences.sublist (h.slots.map _)
  valid := by
    rw [h.state]
    exact hd.valid

/-- Among slot files that include the winners, the winners are the same. -/
theorem winner_eq_of_sublist (hsub : s.slots.rows.Sublist d.slots.rows)
    (hwin : ∀ f, Winner d f → f ∈ s.slots) : Winner s = Winner d := by
  funext f
  apply propext
  constructor
  · rintro ⟨hf, hmax⟩
    refine ⟨hsub.subset hf, fun g hg hid => ?_⟩
    -- the winner of the record id is still there, and `f` is above it
    obtain ⟨w, hw, hwid⟩ := exists_winner hg
    have hgw : g.rank ≤ w.rank := hw.2 g hg hwid.symm
    exact hgw.trans (hmax w (hwin w hw) (hwid.trans hid))
  · intro hf
    refine ⟨hwin f hf, fun g hg hid => ?_⟩
    exact hf.2 g (hsub.subset hg) hid

theorem Tidying.winner (h : Tidying d s) : Winner s = Winner d :=
  winner_eq_of_sublist h.slots h.winners

theorem Reconciled.winner (h : Reconciled limits d s) : Winner s = Winner d :=
  winner_eq_of_sublist h.slots fun f hf => (h.mem_slots f).2 hf

end Reconciling

end WheelForge.Maintenance
