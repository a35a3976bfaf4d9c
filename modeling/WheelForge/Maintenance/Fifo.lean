import Mathlib.Data.Nat.ModEq
import WheelForge.Maintenance.QueueRuns

/-!
# The order of a lane

In a lane that is `InOrder` the slot files, sorted by their sequence numbers, fill the ring without
holes from the head cursor to the write cursor. Then `peek` returns the oldest record. Enqueues
append to such a lane and the completion of its oldest record drops the first; a reconciliation that
removes nothing leaves it (`peek_oldest`). The completion of any other record moves the head cursor
past older ones.
-/

set_option autoImplicit false

namespace WheelForge.Maintenance

open WheelForge.Interaction
open WheelForge.Relational
open WheelForge.Transition

section Order

variable {β : Type} {limits : QueueLimits} {codec : QueueCodec β} {d s t : QueueDir β}
  {lane : Lane}

/-- The slot files of a lane fill the ring from the head cursor on in the order of their sequence
numbers, up to the write cursor. -/
structure InOrder (limits : QueueLimits) (d : QueueDir β) (lane : Lane) : Prop where
  cursors : (laneItems d.slots.rows lane).map (fun f => f.location.cursor limits) =
    (List.range (laneItems d.slots.rows lane).length).map fun i =>
      ((d.state.lanes lane).headCursor + i) % limits.capacity
  write : laneItems d.slots.rows lane ≠ [] → (d.state.lanes lane).writeCursor =
    ((d.state.lanes lane).headCursor + (laneItems d.slots.rows lane).length) % limits.capacity

/-- A sorted list of the files of a lane is the list of its items. -/
theorem laneItems_unique (hd : Placed limits d) {files : List (SlotFile β)}
    (hperm : files.Perm (laneFiles d lane))
    (hsorted : files.Pairwise fun a b => a.record.sequence ≤ b.record.sequence) :
    laneItems d.slots.rows lane = files := by
  refine ((laneItems_perm d.slots.rows lane).trans hperm.symm).eq_of_pairwise ?_
    (laneItems_sorted d.slots.rows lane) hsorted
  intro a b ha hb hab hba
  have ha' := (mem_laneItems.1 ha).1
  have hb' : b ∈ laneFiles d lane := hperm.mem_iff.1 hb
  exact hd.eq_of_sequence ha' (List.mem_filter.1 hb').1 (le_antisymm hab hba)

theorem laneItems_linked (hd : Counted limits d) {record : QueueRecord β} {size cursor : Nat}
    (hroom : Room limits d record size) (hc : cursor < limits.capacity)
    (h : Linked limits d lane record size cursor t) :
    laneItems t.slots.rows lane =
      laneItems d.slots.rows lane ++ [⟨locationAt limits lane cursor, record, size⟩] := by
  apply laneItems_unique (h.counted hd hroom hc).toPlaced
  · rw [h.laneFiles, if_pos rfl]
    exact (laneItems_perm d.slots.rows lane).append_right _
  · -- the new record has the highest sequence number
    refine List.pairwise_append.2 ⟨laneItems_sorted d.slots.rows lane, List.pairwise_singleton _ _, ?_⟩
    intro f hf g hg
    rw [List.mem_singleton.1 hg]
    have hlt := hd.sequence_lt f (mem_laneItems.1 hf).1
    rw [← hroom.sequence] at hlt
    exact hlt.le

theorem laneItems_linked_ne {record : QueueRecord β} {size cursor : Nat} {other : Lane}
    (h : Linked limits d lane record size cursor t) (hne : other ≠ lane) :
    laneItems t.slots.rows other = laneItems d.slots.rows other := by
  have hfiles : laneFiles t other = laneFiles d other := by
    rw [h.laneFiles, if_neg (Ne.symm hne), List.append_nil]
  unfold laneItems
  unfold laneFiles at hfiles
  rw [hfiles]

/-- The oldest file of its lane. -/
def Oldest (d : QueueDir β) (f : SlotFile β) : Prop :=
  ∀ g ∈ d.slots, g.location.lane = f.location.lane → f.record.sequence ≤ g.record.sequence

theorem laneItems_cons (hd : Placed limits d) {f : SlotFile β} (hf : f ∈ d.slots)
    (hold : Oldest d f) : ∃ rest, laneItems d.slots.rows f.location.lane = f :: rest := by
  have hmem : f ∈ laneItems d.slots.rows f.location.lane := mem_laneItems.2 ⟨hf, rfl⟩
  have hsorted := laneItems_sorted d.slots.rows f.location.lane
  cases hitems : laneItems d.slots.rows f.location.lane with
  | nil =>
      rw [hitems] at hmem
      exact absurd hmem List.not_mem_nil
  | cons g rest =>
      rw [hitems] at hmem hsorted
      have hg : g ∈ d.slots.rows ∧ g.location.lane = f.location.lane := by
        rw [← mem_laneItems, hitems]
        exact List.mem_cons_self
      rcases List.mem_cons.1 hmem with rfl | hrest
      · exact ⟨rest, rfl⟩
      · have hle := (List.pairwise_cons.1 hsorted).1 f hrest
        obtain rfl := hd.eq_of_sequence hf hg.1 (le_antisymm (hold g hg.1 hg.2) hle)
        exact ⟨rest, rfl⟩

theorem laneItems_released (hd : Counted limits d) {f : SlotFile β} (hf : f ∈ d.slots)
    {rest : List (SlotFile β)} (hitems : laneItems d.slots.rows f.location.lane = f :: rest) :
    laneItems (d.released limits f).slots.rows f.location.lane = rest := by
  apply laneItems_unique (hd.released hf).toPlaced
  · have hperm : (f :: rest).Perm (f :: laneFiles (d.released limits f) f.location.lane) := by
      rw [← hitems]
      refine (laneItems_perm d.slots.rows f.location.lane).trans ?_
      have h := released_laneFiles limits hf f.location.lane
      rw [if_pos rfl] at h
      exact h
    exact hperm.cons_inv
  · have hsorted := laneItems_sorted d.slots.rows f.location.lane
    rw [hitems] at hsorted
    exact (List.pairwise_cons.1 hsorted).2

theorem laneItems_released_ne (hd : Counted limits d) {f : SlotFile β} (hf : f ∈ d.slots)
    {other : Lane} (hne : other ≠ f.location.lane) :
    laneItems (d.released limits f).slots.rows other = laneItems d.slots.rows other := by
  symm
  apply laneItems_unique hd.toPlaced
  · refine (laneItems_perm _ other).trans ?_
    have h := released_laneFiles limits hf other
    rw [if_neg (Ne.symm hne)] at h
    exact h.symm
  · exact laneItems_sorted _ other

theorem InOrder.congr (h : InOrder limits d lane)
    (hitems : laneItems t.slots.rows lane = laneItems d.slots.rows lane)
    (hstate : t.state.lanes lane = d.state.lanes lane) : InOrder limits t lane where
  cursors := by
    rw [hitems, hstate]
    exact h.cursors
  write := by
    rw [hitems, hstate]
    exact h.write

theorem ring_index_inj {head i j : Nat} (hi : i < limits.capacity) (hj : j < limits.capacity)
    (h : (head + i) % limits.capacity = (head + j) % limits.capacity) : i = j := by
  have hmod : i % limits.capacity = j % limits.capacity := Nat.ModEq.add_left_cancel' head h
  rwa [Nat.mod_eq_of_lt hi, Nat.mod_eq_of_lt hj] at hmod

/-- In a lane in order that is not full, the write cursor is free. -/
theorem InOrder.free_write (h : InOrder limits d lane)
    (hlength : (laneItems d.slots.rows lane).length < limits.capacity) :
    Free d (locationAt limits lane (d.state.lanes lane).writeCursor) := by
  intro f hf hloc
  have hitem : f ∈ laneItems d.slots.rows lane :=
    mem_laneItems.2 ⟨hf, congrArg Location.lane hloc⟩
  have hwrite := h.write (List.ne_nil_of_mem hitem)
  have hcursor : f.location.cursor limits = (d.state.lanes lane).writeCursor := by
    rw [hloc, cursor_locationAt]
  have hmem : f.location.cursor limits ∈ (laneItems d.slots.rows lane).map
      fun f => f.location.cursor limits := List.mem_map.2 ⟨f, hitem, rfl⟩
  rw [h.cursors, List.mem_map] at hmem
  obtain ⟨i, hi, hmem⟩ := hmem
  rw [List.mem_range] at hi
  have heq := ring_index_inj (hi.trans hlength) hlength
    (hmem.trans (hcursor.trans hwrite))
  omega

theorem FirstFree.eq_write {cursor : Nat} (hd : Counted limits d)
    (hfree : Free d (locationAt limits lane (d.state.lanes lane).writeCursor))
    (h : FirstFree limits d lane cursor) : cursor = (d.state.lanes lane).writeCursor := by
  have hlt : (d.state.lanes lane).writeCursor < limits.capacity :=
    (validState_iff.1 hd.valid lane).2.1
  obtain ⟨k, -, rfl, -, htaken⟩ := h
  cases k with
  | zero => rw [Nat.add_zero, Nat.mod_eq_of_lt hlt]
  | succ k =>
      have h0 := htaken 0 (Nat.succ_pos k)
      rw [Nat.add_zero, Nat.mod_eq_of_lt hlt] at h0
      exact absurd hfree h0

/-- An enqueue appends to a lane in order. -/
theorem InOrder.linked {record : QueueRecord β} {size cursor : Nat} (hd : Counted limits d)
    (hroom : Room limits d record size) (hcursor : FirstFree limits d lane cursor)
    (ht : Linked limits d lane record size cursor t) (h : InOrder limits d lane) :
    InOrder limits t lane := by
  have hcount : (laneItems d.slots.rows lane).length = (d.state.lanes lane).count := by
    rw [(laneItems_perm d.slots.rows lane).length_eq, hd.count]
    rfl
  have hlength : (laneItems d.slots.rows lane).length < limits.capacity := by
    have hle := (hd.lane_room hroom lane).1
    have hlimit : limits.maxRecords ≤ limits.capacity := limits.maxRecords_le
    omega
  have hwrite : cursor = (d.state.lanes lane).writeCursor :=
    hcursor.eq_write hd (h.free_write hlength)
  have hcur : ((⟨locationAt limits lane cursor, record, size⟩ : SlotFile β).location).cursor
      limits = cursor := cursor_locationAt limits lane cursor
  have hitems := laneItems_linked hd hroom hcursor.lt ht
  have hstate : t.state.lanes lane = (d.state.enqueued limits lane cursor size
      (laneNumbers t lane).length).lanes lane := by rw [ht.state]
  rw [enqueued_lanes_self] at hstate
  by_cases hempty : laneItems d.slots.rows lane = []
  · -- the first record takes the head cursor with it
    rw [hempty] at hitems hcount
    rw [← hcount] at hstate
    constructor
    · rw [hitems, hstate]
      simp [hcur, Nat.mod_eq_of_lt hcursor.lt]
    · intro _
      rw [hitems, hstate]
      simp
  · have hpos : 0 < (laneItems d.slots.rows lane).length := List.length_pos_iff.2 hempty
    have hhead : (t.state.lanes lane).headCursor = (d.state.lanes lane).headCursor := by
      rw [hstate]
      dsimp only
      rw [if_neg (by omega)]
    have hold := h.write hempty
    constructor
    · rw [hitems, hhead, List.map_append, List.map_singleton, hcur, List.length_append,
        List.length_singleton, List.range_succ, List.map_append, List.map_singleton, h.cursors,
        hwrite, hold]
    · intro _
      rw [hitems, hhead, hstate, List.length_append, List.length_singleton]
      dsimp only
      rw [hwrite, hold, Nat.mod_add_mod, Nat.add_assoc]

/-- The completion of the oldest record drops the first of a lane in order. -/
theorem InOrder.released {f : SlotFile β} (hd : Counted limits d) (hf : f ∈ d.slots)
    (hold : Oldest d f) (h : InOrder limits d f.location.lane) :
    InOrder limits (d.released limits f) f.location.lane := by
  obtain ⟨rest, hitems⟩ := laneItems_cons hd.toPlaced hf hold
  have hrest := laneItems_released hd hf hitems
  have hcursors := h.cursors
  have hwrite := h.write (by rw [hitems]; exact List.cons_ne_nil _ _)
  rw [hitems, List.map_cons, List.length_cons, List.range_succ_eq_map, List.map_cons,
    List.map_map, List.cons.injEq] at hcursors
  obtain ⟨hcur, hcursors⟩ := hcursors
  have hhead : ((d.released limits f).state.lanes f.location.lane).headCursor =
      (f.location.cursor limits + 1) % limits.capacity := by
    show ((d.state.completed limits f.location f.size).lanes f.location.lane).headCursor = _
    rw [completed_lanes_self]
  have hkeep : ((d.released limits f).state.lanes f.location.lane).writeCursor =
      (d.state.lanes f.location.lane).writeCursor := by
    show ((d.state.completed limits f.location f.size).lanes f.location.lane).writeCursor = _
    rw [completed_lanes_self]
  have hstep : ∀ i, ((f.location.cursor limits + 1) % limits.capacity + i) % limits.capacity =
      ((d.state.lanes f.location.lane).headCursor + (i + 1)) % limits.capacity := by
    intro i
    rw [hcur, Nat.mod_add_mod, Nat.add_assoc, Nat.mod_add_mod, Nat.add_assoc, Nat.zero_add,
      Nat.add_comm 1 i]
  constructor
  · rw [hrest, hhead, hcursors]
    exact List.map_congr_left fun i _ => (hstep i).symm
  · intro _
    rw [hrest, hhead, hkeep, hstep, hwrite, hitems, List.length_cons]

/-- A reconciliation that finds no record id twice leaves a lane in order. -/
theorem InOrder.reconciled (hd : Counted limits d) (hu : UniqueIds d)
    (ht : Reconciled limits d t) (h : InOrder limits d lane) : InOrder limits t lane := by
  have hrows : ∀ f, f ∈ t.slots.rows ↔ f ∈ d.slots.rows := by
    intro f
    refine (ht.mem_slots f).trans ⟨fun hw => hw.1, fun hf => ⟨hf, fun g hg hid => ?_⟩⟩
    rw [uniqueIds_iff.1 hu g hg f hf hid]
  have hperm : t.slots.rows.Perm d.slots.rows :=
    (List.perm_ext_iff_of_nodup (List.Nodup.of_map _ t.slots.nodup)
      (List.Nodup.of_map _ d.slots.nodup)).2 hrows
  have hitems : laneItems t.slots.rows lane = laneItems d.slots.rows lane :=
    laneItems_congr hperm (fun f hf g hg => ht.eq_of_sequence hf hg) lane
  have hlanes := ht.lanes lane
  rw [hitems] at hlanes
  cases hfiles : laneItems d.slots.rows lane with
  | nil =>
      constructor
      · rw [hitems, hfiles]
        rfl
      · rw [hitems, hfiles]
        exact fun hne => absurd rfl hne
  | cons f rest =>
      have hcursors := h.cursors
      have hwrite := h.write (by rw [hfiles]; exact List.cons_ne_nil _ _)
      have hlt : (d.state.lanes lane).headCursor < limits.capacity :=
        (validState_iff.1 hd.valid lane).1
      have hhead : (t.state.lanes lane).headCursor = (d.state.lanes lane).headCursor := by
        have hfirst := congrArg List.head? hcursors
        rw [hfiles, List.length_cons, List.range_succ_eq_map] at hfirst
        have hcur : f.location.cursor limits =
            ((d.state.lanes lane).headCursor + 0) % limits.capacity := Option.some.inj hfirst
        rw [Nat.add_zero, Nat.mod_eq_of_lt hlt] at hcur
        rw [hlanes, hfiles]
        exact hcur
      have hlast : (t.state.lanes lane).writeCursor = (d.state.lanes lane).writeCursor := by
        have hend := congrArg List.getLast? hcursors
        rw [List.getLast?_map, hfiles, List.length_cons, List.range_succ, List.map_append,
          List.map_singleton, List.getLast?_concat] at hend
        obtain ⟨g, hg, hcur⟩ := Option.map_eq_some_iff.1 hend
        rw [hlanes, hfiles]
        unfold rebuiltLane
        dsimp only
        rw [hg]
        dsimp only
        rw [hcur, Nat.mod_add_mod, hwrite, hfiles, List.length_cons, Nat.add_assoc]
      constructor
      · rw [hitems, hhead]
        exact hcursors
      · intro hne
        rw [hitems, hhead, hlast]
        exact h.write (hitems ▸ hne)

/-- In a lane in order the search from the head cursor finds the oldest record. -/
theorem InOrder.findItem (hd : Counted limits d) (h : InOrder limits d lane) :
    findItem limits d lane (d.state.lanes lane).headCursor =
      (laneItems d.slots.rows lane).head? := by
  cases hfiles : laneItems d.slots.rows lane with
  | nil =>
      refine (findItem_eq_none_iff hd.toPlaced lane _).2 ?_
      have hperm := laneItems_perm d.slots.rows lane
      rw [hfiles] at hperm
      exact hperm.nil_eq.symm
  | cons f rest =>
      have hmem : f ∈ d.slots.rows ∧ f.location.lane = lane := by
        rw [← mem_laneItems, hfiles]
        exact List.mem_cons_self
      have hcursors := h.cursors
      rw [hfiles, List.length_cons, List.range_succ_eq_map, List.map_cons, List.map_cons,
        List.cons.injEq] at hcursors
      have hslot : readSlot d (locationAt limits lane
          (((d.state.lanes lane).headCursor + 0) % limits.capacity)) = some f := by
        rw [← hcursors.1, ← hmem.2, locationAt_cursor (hd.file_within f hmem.1).2,
          readSlot_eq hd.toPlaced]
        exact Table.find?_of_mem hmem.1
      have hrange : List.range limits.capacity =
          0 :: (List.range (limits.capacity - 1)).map Nat.succ := by
        rw [← List.range_succ_eq_map, Nat.sub_add_cancel limits.capacity_pos]
      unfold Maintenance.findItem
      rw [hrange, List.findSome?_cons, hslot]
      rfl

/-! ## Runs that keep the order -/

/-- The slot file is the one that `complete` accepts for an item. -/
def SlotFile.IsOf (f : SlotFile β) (item : QueueItem β) : Prop :=
  f.location = item.location ∧ f.record.recordId = item.record.recordId ∧
    f.record.generation = item.record.generation

/-- The steps that keep every lane in order: a live item that is completed or moved is the oldest
record of its lane, and a reconciliation finds no record id twice. -/
def KeepsOrder (codec : QueueCodec β) (d : QueueDir β) : QueueAction β → Prop
  | .complete item =>
      (∀ f ∈ d.slots, f.IsOf item → Oldest d f) ∧ (Free d item.location → UniqueIds d)
  | .move item _ _ =>
      (∀ f ∈ d.slots, f.IsOf item → Oldest d f) ∧
        (Free d item.location → UniqueIds d ∧ ∀ recordId,
          codec.canonicalUuid item.record.recordId = some recordId → ¬ Live d recordId)
  | .peekDue _ _ _ | .reconcile => UniqueIds d
  | _ => True

theorem EnqueueResult.inOrder {input : RecordInput β} {fresh : Uuid}
    {deduplicate deduplicateGeneration : Bool} {x : Except QueueError (QueueItem β)}
    (hd : Counted limits d) (hall : ∀ lane, InOrder limits d lane)
    (h : EnqueueResult limits codec d lane input fresh deduplicate deduplicateGeneration t x)
    (other : Lane) : InOrder limits t other := by
  cases h with
  | invalid => exact hall other
  | existing => exact hall other
  | oversized => exact hall other
  | refused => exact (hall other).congr rfl rfl
  | linked _ _ _ hroom hcursor ht =>
      by_cases ho : other = lane
      · subst ho
        exact (hall other).linked hd hroom hcursor ht
      · refine (hall other).congr (laneItems_linked_ne ht ho) ?_
        rw [ht.state, enqueued_lanes_ne _ _ ho]

theorem CompleteResult.inOrder {item : QueueItem β} {x : Except QueueError Unit}
    (hd : Counted limits d) (hall : ∀ lane, InOrder limits d lane)
    (hold : ∀ f ∈ d.slots, f.IsOf item → Oldest d f)
    (hu : Free d item.location → UniqueIds d) (h : CompleteResult limits d item t x)
    (other : Lane) : InOrder limits t other := by
  cases h with
  | stale hfree ht => exact (hall other).reconciled hd (hu hfree) ht
  | foreign => exact hall other
  | @released f hf hloc hid hgen =>
      by_cases ho : other = f.location.lane
      · subst ho
        exact (hall _).released hd hf (hold f hf ⟨hloc, hid, hgen⟩)
      · exact (hall other).congr (laneItems_released_ne hd hf ho) (completed_lanes_ne _ _ _ ho)

/-- An enqueue leaves the oldest records the oldest. -/
theorem EnqueueResult.oldest {input : RecordInput β} {fresh : Uuid}
    {deduplicate deduplicateGeneration : Bool} {x : Except QueueError (QueueItem β)}
    (hd : Counted limits d)
    (h : EnqueueResult limits codec d lane input fresh deduplicate deduplicateGeneration t x)
    {f : SlotFile β} (hf : f ∈ d.slots) (hold : Oldest d f) : Oldest t f := by
  intro g hg hl
  rcases h.slots_or_linked with hslots | ⟨record, size, cursor, hp, -, -, -, ht⟩
  · rw [hslots] at hg
    exact hold g hg hl
  · rcases (mem_linked ht).1 hg with hg | rfl
    · exact hold g hg hl
    · have hlt := hd.sequence_lt f hf
      rw [← prepareRecord_sequence hp] at hlt
      exact hlt.le

theorem MoveResult.inOrder {item : QueueItem β} {destination : Lane} {body : Option β}
    {x : Except QueueError (QueueItem β)} (hd : Counted limits d)
    (hall : ∀ lane, InOrder limits d lane) (hk : KeepsOrder codec d (.move item destination body))
    (h : MoveResult limits codec d item destination body t x) (lane : Lane) :
    InOrder limits t lane := by
  obtain ⟨hold, hu⟩ := hk
  -- the state between the enqueue and the completion
  have hmid : ∀ {u place y}, EnqueueResult limits codec d destination (movedInput item body) ""
      false true u (.ok place) → CompleteResult limits u item t y → InOrder limits t lane := by
    intro u place y h hc
    have hold' : ∀ f ∈ u.slots, f.IsOf item → Oldest u f := by
      rintro f hf ⟨hloc, hid, hgen⟩
      rcases h.slots_or_linked with hslots | ⟨record, size, cursor, hp, -, -, -, ht⟩
      · rw [hslots] at hf
        exact h.oldest hd hf (hold f hf ⟨hloc, hid, hgen⟩)
      · rcases (mem_linked ht).1 hf with hf | rfl
        · exact h.oldest hd hf (hold f hf ⟨hloc, hid, hgen⟩)
        · have hnext : record.generation = item.record.generation + 1 := (prepareRecord_ok hp).2.1
          dsimp only at hgen
          omega
    have hu' : Free u item.location → UniqueIds u := by
      intro hfree
      obtain ⟨hunique, hnew⟩ := hu fun f hf => hfree f (h.keeps hf)
      exact h.unique hunique fun record hp _ => hnew _ (prepareRecord_ok hp).1
    exact hc.inOrder (h.counted hd) (h.inOrder hd hall) hold' hu' lane
  cases h with
  | failed h => exact h.inOrder hd hall lane
  | unreleased h hc => exact hmid h hc
  | moved h hc => exact hmid h hc

theorem QueueEffect.inOrder {a : QueueAction β} (hd : Counted limits d)
    (hall : ∀ lane, InOrder limits d lane) (hk : KeepsOrder codec d a)
    (h : QueueEffect limits codec d a t) (lane : Lane) : InOrder limits t lane := by
  cases h with
  | enqueue h => exact h.inOrder hd hall lane
  | complete h => exact h.inOrder hd hall hk.1 hk.2 lane
  | move h => exact h.inOrder hd hall hk lane
  | peek => exact hall lane
  | peekDue h =>
      rcases h with rfl | h
      · exact hall lane
      · exact (hall lane).reconciled hd hk h
  | reconcile h => exact (hall lane).reconciled hd hk h

theorem inOrder_of_reachable
    (h : (queueSystem limits codec).Reachable (KeepsOrder codec) d) (lane : Lane) :
    InOrder limits d lane := by
  have hinit : ∀ lane, InOrder limits (QueueDir.initial : QueueDir β) lane :=
    fun _ => ⟨rfl, fun hne => absurd rfl hne⟩
  exact (reachable_induction hinit
    (fun hs hall hk heffect => heffect.inOrder hs hall hk) h).2 lane

/-- In the runs whose steps keep the order, `peek` returns the oldest record of its lane, and none
exactly when the lane is empty. -/
theorem peek_oldest (limits : QueueLimits) (codec : QueueCodec β)
    (h : (queueSystem limits codec).Reachable (KeepsOrder codec) d) (lane : Lane) :
    ∃ r, run (peek limits lane) d = (.ok r, d) ∧ (r = none ↔ laneFiles d lane = []) ∧
      ∀ item, r = some item → ∃ f ∈ laneFiles d lane, f.item = item ∧
        ∀ g ∈ laneFiles d lane, f.record.sequence ≤ g.record.sequence := by
  have hd := counted_of_reachable h
  have hperm := laneItems_perm d.slots.rows lane
  have hsorted := laneItems_sorted d.slots.rows lane
  have hfind := (inOrder_of_reachable h lane).findItem hd
  refine ⟨_, (peek_spec hd lane).run, ?_, ?_⟩
  · rw [Option.map_eq_none_iff]
    exact findItem_eq_none_iff hd.toPlaced lane _
  · intro item hitem
    rw [hfind] at hitem
    cases hfiles : laneItems d.slots.rows lane with
    | nil =>
        rw [hfiles] at hitem
        cases hitem
    | cons f rest =>
        rw [hfiles] at hitem hperm hsorted
        refine ⟨f, hperm.mem_iff.1 List.mem_cons_self, Option.some.inj hitem, fun g hg => ?_⟩
        rcases List.mem_cons.1 (hperm.mem_iff.2 hg) with rfl | hg
        · exact le_rfl
        · exact (List.pairwise_cons.1 hsorted).1 g hg

end Order

/-! ## Three intents -/

def oneIntent : QueueDir Unit :=
  (sampleIntent "00000000-0000-4000-8000-000000000001").perform queueLimits sampleCodec
    QueueDir.initial

def twoIntents : QueueDir Unit :=
  (sampleIntent "00000000-0000-4000-8000-000000000002").perform queueLimits sampleCodec oneIntent

def threeIntents : QueueDir Unit :=
  (sampleIntent "00000000-0000-4000-8000-000000000003").perform queueLimits sampleCodec twoIntents

def firstItem : QueueItem Unit :=
  ⟨⟨.ready, 0, 0⟩, ⟨"00000000-0000-4000-8000-000000000001", 0, 0, ()⟩⟩

def secondItem : QueueItem Unit :=
  ⟨⟨.ready, 0, 1⟩, ⟨"00000000-0000-4000-8000-000000000002", 0, 1, ()⟩⟩

def thirdItem : QueueItem Unit :=
  ⟨⟨.ready, 0, 2⟩, ⟨"00000000-0000-4000-8000-000000000003", 0, 2, ()⟩⟩

theorem threeIntents_reachable {C : QueueDir Unit → QueueAction Unit → Prop}
    (hC : ∀ d fresh, C d (sampleIntent fresh)) :
    (queueSystem queueLimits sampleCodec).Reachable C threeIntents := by
  have hone : (queueSystem queueLimits sampleCodec).Reachable C oneIntent :=
    (System.Reachable.of_init rfl).step (hC _ _) rfl
  have htwo : (queueSystem queueLimits sampleCodec).Reachable C twoIntents :=
    hone.step (hC _ _) rfl
  exact htwo.step (hC _ _) rfl

/-- After the completion of the oldest intent `peek` returns the next. -/
theorem peek_oldest_of_three :
    ∃ r, run (peek queueLimits .ready) (QueueAction.perform queueLimits sampleCodec threeIntents
        (.complete firstItem)) = (.ok r, QueueAction.perform queueLimits sampleCodec threeIntents
          (.complete firstItem)) ∧
      (r = none ↔ laneFiles (QueueAction.perform queueLimits sampleCodec threeIntents
        (.complete firstItem)) .ready = []) ∧
      ∀ item, r = some item → ∃ f ∈ laneFiles (QueueAction.perform queueLimits sampleCodec
          threeIntents (.complete firstItem)) .ready, f.item = item ∧
        ∀ g ∈ laneFiles (QueueAction.perform queueLimits sampleCodec threeIntents
          (.complete firstItem)) .ready, f.record.sequence ≤ g.record.sequence := by
  have hoccupied : ∃ f ∈ threeIntents.slots.rows, f.location = firstItem.location := by
    decide +kernel
  have holdest : ∀ f ∈ threeIntents.slots.rows,
      (f.location = firstItem.location ∧ f.record.recordId = firstItem.record.recordId ∧
        f.record.generation = firstItem.record.generation) →
      ∀ g ∈ threeIntents.slots.rows, g.location.lane = f.location.lane →
        f.record.sequence ≤ g.record.sequence := by
    decide +kernel
  have hkeeps : KeepsOrder sampleCodec threeIntents (.complete firstItem) := by
    refine ⟨holdest, fun hfree => ?_⟩
    obtain ⟨f, hf, hloc⟩ := hoccupied
    exact absurd hloc (hfree f hf)
  exact peek_oldest queueLimits sampleCodec
    ((threeIntents_reachable fun _ _ => trivial).step hkeeps rfl) .ready

/-- The completion of the second intent makes `peek` skip the first. -/
theorem completed_second_skips_first :
    (queueSystem queueLimits sampleCodec).Reachable System.Any (QueueAction.perform queueLimits
        sampleCodec threeIntents (.complete secondItem)) ∧
      (∃ f ∈ threeIntents.slots, f.item = secondItem) ∧
      (run (peek queueLimits .ready) (QueueAction.perform queueLimits sampleCodec threeIntents
        (.complete secondItem))).1 = .ok (some thirdItem) ∧
      ∃ f ∈ laneFiles (QueueAction.perform queueLimits sampleCodec threeIntents
        (.complete secondItem)) .ready, f.record.sequence < thirdItem.record.sequence := by
  have hlive : ∃ f ∈ threeIntents.slots.rows, f.location = secondItem.location ∧
      f.record = secondItem.record := by
    decide +kernel
  refine ⟨(threeIntents_reachable fun _ _ => trivial).step trivial rfl, ?_, ?_, ?_⟩
  · obtain ⟨f, hf, hloc, hrecord⟩ := hlive
    exact ⟨f, hf, congrArg₂ QueueItem.mk hloc hrecord⟩
  · decide +kernel
  · decide +kernel

end WheelForge.Maintenance
