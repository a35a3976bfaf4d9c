import WheelForge.Python.JsonReading

/-!
# The structural limits of a pip report

`_validate_json_structure` walks the values of a report with a stack and counts its nodes and the
bytes of its strings. Whether it passes does not depend on the order of the walk:
`validateJsonStructure_iff` says so of the multiset of what the nodes cost.
-/

set_option autoImplicit false

namespace WheelForge.Resolver

open WheelForge.Python

/-- `PipReportVersionError` and `PipReportSchemaError`. -/
inductive PipReportError where
  | version (message : String)
  | schema (message : String)
deriving DecidableEq, Repr

def maxPipReportBytes : Nat := 8 * 1024 * 1024

def maxJsonDepth : Nat := 12

def maxJsonNodes : Nat := 100000

def maxJsonObjectFields : Nat := 128

def maxJsonListItems : Nat := 2000

def maxJsonStringChars : Nat := 65536

/-- `_utf8_size`. -/
def reportUtf8Size (value : Str) : Except PipReportError Nat :=
  match value.toText? with
  | some text => .ok (utf8Size text)
  | none => .error (.schema "pip report string is not valid UTF-8")

/-- The bytes of the keys of an object. -/
def keyBytes : List (Str × JsonValue) → Except PipReportError Nat
  | [] => .ok 0
  | (key, _) :: members => do
      if maxJsonStringChars < key.length then throw (.schema "pip report object key is invalid")
      let size ← reportUtf8Size key
      let rest ← keyBytes members
      return size + rest

/-- What a node adds to `aggregate_utf8_bytes`. A value of another type is no `JsonValue`. -/
def nodeBytes (isFinite : Text → Bool) : JsonValue → Except PipReportError Nat
  | .string s =>
      if maxJsonStringChars < s.length then .error (.schema "pip report string exceeds its limit")
      else reportUtf8Size s
  | .object members =>
      if maxJsonObjectFields < members.length then
        .error (.schema "pip report object has too many fields")
      else keyBytes members
  | .array items =>
      if maxJsonListItems < items.length then
        .error (.schema "pip report list has too many items")
      else .ok 0
  | .float literal =>
      if isFinite literal then .ok 0 else .error (.schema "pip report number must be finite")
  | .null | .bool _ | .int _ => .ok 0

/-- What a node adds to `pending`. -/
def children : JsonValue → List JsonValue
  | .object members => members.map Prod.snd
  | .array items => items
  | .null | .bool _ | .int _ | .float _ | .string _ => []

/-- The loop; `left` counts down what `nodes` may still count up, and the top of the stack is the
head of the list. -/
def validateLoop (isFinite : Text → Bool) :
    Nat → Nat → List (JsonValue × Nat) → Except PipReportError Unit
  | _, _, [] => .ok ()
  | 0, _, _ :: _ => .error (.schema "pip report structure exceeds its limits")
  | left + 1, aggregate, (current, depth) :: pending => do
      if maxJsonDepth < depth then throw (.schema "pip report structure exceeds its limits")
      let size ← nodeBytes isFinite current
      if maxPipReportBytes < aggregate + size then
        throw (.schema "pip report exceeds the aggregate byte limit")
      validateLoop isFinite left (aggregate + size)
        (((children current).map (·, depth + 1)).reverse ++ pending)

/-- `_validate_json_structure`. `isFinite` says which literals are finite floats. -/
def validateJsonStructure (isFinite : Text → Bool) (value : JsonValue) :
    Except PipReportError Unit :=
  validateLoop isFinite maxJsonNodes 0 [(value, 0)]

/-! ## The nodes in no order -/

variable {isFinite : Text → Bool}

/-- The bytes of a node, if it is valid, and its depth. -/
abbrev NodeCost := Option Nat × Nat

def nodeCost (isFinite : Text → Bool) (depth : Nat) (value : JsonValue) : NodeCost :=
  ((nodeBytes isFinite value).toOption, depth)

mutual

/-- The costs of all nodes of a value. -/
def costs (isFinite : Text → Bool) (depth : Nat) : JsonValue → List NodeCost
  | .array items =>
      nodeCost isFinite depth (.array items) :: itemCosts isFinite (depth + 1) items
  | .object members =>
      nodeCost isFinite depth (.object members) :: memberCosts isFinite (depth + 1) members
  | .null => [nodeCost isFinite depth .null]
  | .bool b => [nodeCost isFinite depth (.bool b)]
  | .int n => [nodeCost isFinite depth (.int n)]
  | .float literal => [nodeCost isFinite depth (.float literal)]
  | .string s => [nodeCost isFinite depth (.string s)]
termination_by structural value => value

def itemCosts (isFinite : Text → Bool) (depth : Nat) : List JsonValue → List NodeCost
  | [] => []
  | item :: items => costs isFinite depth item ++ itemCosts isFinite depth items
termination_by structural items => items

def memberCost (isFinite : Text → Bool) (depth : Nat) : Str × JsonValue → List NodeCost
  | (_, value) => costs isFinite depth value
termination_by structural member => member

def memberCosts (isFinite : Text → Bool) (depth : Nat) : List (Str × JsonValue) → List NodeCost
  | [] => []
  | member :: members => memberCost isFinite depth member ++ memberCosts isFinite depth members
termination_by structural members => members

end

theorem itemCosts_eq (depth : Nat) (items : List JsonValue) :
    itemCosts isFinite depth items = items.flatMap (costs isFinite depth) := by
  induction items with
  | nil => rfl
  | cons item items ih => rw [itemCosts, ih, List.flatMap_cons]

theorem memberCosts_eq (depth : Nat) (members : List (Str × JsonValue)) :
    memberCosts isFinite depth members =
      members.flatMap fun member => costs isFinite depth member.2 := by
  induction members with
  | nil => rfl
  | cons member members ih => rw [memberCosts, ih, List.flatMap_cons, memberCost]

/-- A node and the nodes under it. -/
theorem costs_eq (depth : Nat) (value : JsonValue) :
    costs isFinite depth value = nodeCost isFinite depth value ::
      (children value).flatMap (costs isFinite (depth + 1)) := by
  cases value with
  | array items => rw [costs, itemCosts_eq, children]
  | object members => rw [costs, memberCosts_eq, children, List.flatMap_map]
  | null => rfl
  | bool b => rfl
  | int n => rfl
  | float literal => rfl
  | string s => rfl

/-- The costs are within what is left of the limits. -/
structure Affordable (left aggregate : Nat) (nodes : List NodeCost) : Prop where
  valid : ∀ node ∈ nodes, node.1.isSome ∧ node.2 ≤ maxJsonDepth
  count : nodes.length ≤ left
  bytes : aggregate + (nodes.map fun node => node.1.getD 0).sum ≤ maxPipReportBytes

theorem Affordable.perm {left aggregate : Nat} {nodes nodes' : List NodeCost}
    (h : Affordable left aggregate nodes) (hperm : nodes.Perm nodes') :
    Affordable left aggregate nodes' where
  valid := fun node hnode => h.valid node (hperm.mem_iff.2 hnode)
  count := hperm.length_eq ▸ h.count
  bytes := by
    have hsum := (hperm.map fun node : NodeCost => node.1.getD 0).sum_nat
    have hbytes := h.bytes
    omega

/-- One node is paid and the rest stays affordable. -/
theorem affordable_cons {left aggregate size depth : Nat} {nodes : List NodeCost} :
    Affordable (left + 1) aggregate ((some size, depth) :: nodes) ↔
      depth ≤ maxJsonDepth ∧ aggregate + size ≤ maxPipReportBytes ∧
        Affordable left (aggregate + size) nodes := by
  constructor
  · rintro ⟨hvalid, hcount, hbytes⟩
    obtain ⟨hnode, hnodes⟩ := List.forall_mem_cons.1 hvalid
    simp only [List.map_cons, List.sum_cons, Option.getD_some, List.length_cons] at hcount hbytes
    exact ⟨hnode.2, by omega, hnodes, by omega, by omega⟩
  · rintro ⟨hdepth, hsize, hvalid, hcount, hbytes⟩
    refine ⟨List.forall_mem_cons.2 ⟨⟨rfl, hdepth⟩, hvalid⟩, ?_, ?_⟩
    · simpa using hcount
    · simp only [List.map_cons, List.sum_cons, Option.getD_some]
      omega

/-- The loop passes if and only if what is pending is affordable. -/
theorem validateLoop_iff {left aggregate : Nat} {pending : List (JsonValue × Nat)}
    (haggregate : aggregate ≤ maxPipReportBytes) :
    validateLoop isFinite left aggregate pending = .ok () ↔
      Affordable left aggregate (pending.flatMap fun p => costs isFinite p.2 p.1) := by
  -- the induction is on the nodes that are left, not on the values: the stack mixes the children
  induction left generalizing aggregate pending with
  | zero =>
      cases pending with
      | nil =>
          rw [validateLoop]
          exact iff_of_true rfl ⟨nofun, le_rfl, by simpa using haggregate⟩
      | cons p pending =>
          rw [validateLoop, List.flatMap_cons, costs_eq]
          constructor
          · nofun
          · intro h
            have hcount := h.count
            simp at hcount
  | succ left ih =>
      cases pending with
      | nil =>
          rw [validateLoop]
          exact iff_of_true rfl ⟨nofun, by simp, by simpa using haggregate⟩
      | cons p pending =>
          obtain ⟨current, depth⟩ := p
          have hrest : ((((children current).map (·, depth + 1)).reverse ++ pending).flatMap
              fun p => costs isFinite p.2 p.1).Perm
              ((children current).flatMap (costs isFinite (depth + 1)) ++
                pending.flatMap fun p => costs isFinite p.2 p.1) := by
            rw [List.flatMap_append]
            refine List.Perm.append_right _ ?_
            have hperm := (List.reverse_perm ((children current).map (·, depth + 1))).flatMap_right
              fun p : JsonValue × Nat => costs isFinite p.2 p.1
            rwa [List.flatMap_map] at hperm
          simp only [List.flatMap_cons, costs_eq depth current, List.cons_append]
          rw [validateLoop]
          cases hbytes : nodeBytes isFinite current with
          | error error =>
              have hnot : ¬Affordable (left + 1) aggregate
                  (nodeCost isFinite depth current ::
                    ((children current).flatMap (costs isFinite (depth + 1)) ++
                      pending.flatMap fun p => costs isFinite p.2 p.1)) := by
                intro h
                have hsome := (h.valid _ List.mem_cons_self).1
                rw [nodeCost, hbytes] at hsome
                cases hsome
              refine iff_of_false ?_ hnot
              split_ifs <;> nofun
          | ok size =>
              have hcost : nodeCost isFinite depth current = (some size, depth) := by
                rw [nodeCost, hbytes]
                rfl
              rw [hcost, affordable_cons]
              by_cases hdepth : maxJsonDepth < depth
              · rw [if_pos hdepth]
                exact iff_of_false nofun fun h => absurd h.1 (by omega)
              · rw [if_neg hdepth]
                by_cases hsize : maxPipReportBytes < aggregate + size
                · refine iff_of_false ?_ fun h => absurd h.2.1 (by omega)
                  simp [hsize, bind, Except.bind, throw, throwThe, MonadExceptOf.throw]
                · have hloop := @ih (aggregate + size)
                    (((children current).map (·, depth + 1)).reverse ++ pending) (by omega)
                  simp only [bind, Except.bind, if_neg hsize]
                  rw [hloop]
                  exact ⟨fun h => ⟨by omega, by omega, h.perm hrest⟩,
                    fun h => h.2.2.perm hrest.symm⟩

/-- A value within the limits. -/
theorem validateJsonStructure_iff {value : JsonValue} :
    validateJsonStructure isFinite value = .ok () ↔
      Affordable maxJsonNodes 0 (costs isFinite 0 value) := by
  unfold validateJsonStructure
  rw [validateLoop_iff (Nat.zero_le _), List.flatMap_singleton]

/-- The items of a list in another order. -/
theorem array_costs_perm {depth : Nat} {items items' : List JsonValue} (h : items.Perm items') :
    (costs isFinite depth (.array items)).Perm (costs isFinite depth (.array items')) := by
  have hnode : nodeCost isFinite depth (.array items) = nodeCost isFinite depth (.array items') := by
    simp only [nodeCost, nodeBytes, h.length_eq]
  rw [costs, costs, hnode, itemCosts_eq, itemCosts_eq]
  exact (h.flatMap_right _).cons _

theorem keyBytes_congr {members members' : List (Str × JsonValue)}
    (h : members.map Prod.fst = members'.map Prod.fst) : keyBytes members = keyBytes members' := by
  induction members generalizing members' with
  | nil =>
      rw [List.map_nil, eq_comm, List.map_eq_nil_iff] at h
      rw [h]
  | cons member members ih =>
      obtain ⟨member', members', rfl, hkey, hkeys⟩ := List.map_eq_cons_iff.1 h.symm
      obtain ⟨key, value⟩ := member
      obtain ⟨key', value'⟩ := member'
      dsimp only at hkey
      rw [keyBytes, keyBytes, hkey, ih hkeys.symm]

/-- The members of an object with other values, whose nodes cost the same. -/
theorem object_costs_perm {depth : Nat} {members : List (Str × JsonValue)}
    {change : Str × JsonValue → Str × JsonValue} (hkey : ∀ member, (change member).1 = member.1)
    (h : ∀ member ∈ members, (costs isFinite (depth + 1) (change member).2).Perm
      (costs isFinite (depth + 1) member.2)) :
    (costs isFinite depth (.object (members.map change))).Perm
      (costs isFinite depth (.object members)) := by
  have hkeys : (members.map change).map Prod.fst = members.map Prod.fst := by
    rw [List.map_map]
    exact List.map_congr_left fun member _ => hkey member
  have hnode : nodeCost isFinite depth (.object (members.map change)) =
      nodeCost isFinite depth (.object members) := by
    simp only [nodeCost, nodeBytes, List.length_map, keyBytes_congr hkeys]
  rw [costs, costs, hnode, memberCosts_eq, memberCosts_eq, List.flatMap_map]
  refine List.Perm.cons _ ?_
  clear hnode hkeys
  induction members with
  | nil => exact List.Perm.refl []
  | cons member members ih =>
      obtain ⟨hmember, hmembers⟩ := List.forall_mem_cons.1 h
      rw [List.flatMap_cons, List.flatMap_cons]
      exact hmember.append (ih hmembers)

end WheelForge.Resolver
