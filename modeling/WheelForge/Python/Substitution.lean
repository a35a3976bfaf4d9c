import Mathlib.Algebra.BigOperators.Group.List.Basic
import Mathlib.Tactic.Common
import Mathlib.Tactic.Linarith

/-!
# Substitution

`pattern.sub(replacement, text)` for a pattern whose matches are not empty, and what it can cost.
Every character has a weight, and a pattern may make a text heavier only where it finds a site: a
position that is recognized by the characters before it. `sub_cost` adds the weight of a text and a
charge for each of its sites: substitution does not increase the sum when every match pays for the
weight that it adds with a site of its own (`Pays`). `count_mul_le` bounds the number of sites of a
text when between two sites there is always a gap.
-/

set_option autoImplicit false

namespace WheelForge.Python

variable {α : Type}

/-! ## Patterns -/

/-- A match at the start of a text, what it is replaced with and what follows it. -/
structure Match (α : Type) where
  matched : List α
  replacement : List α
  rest : List α

/-- A pattern: `find` looks for a match at the start of a text after a character. -/
structure Pattern (α : Type) where
  find : Option α → List α → Option (Match α)
  splits : ∀ {previous text m}, find previous text = some m → text = m.matched ++ m.rest
  nonempty : ∀ {previous text m}, find previous text = some m → m.matched ≠ []

namespace Pattern

/-- The loop of `sub`: every match shortens what is left of the text. -/
def subLoop (p : Pattern α) : Nat → Option α → List α → List α
  | 0, _, text => text
  | _ + 1, _, [] => []
  | fuel + 1, previous, c :: text =>
      match p.find previous (c :: text) with
      | some m => m.replacement ++ subLoop p fuel m.matched.getLast? m.rest
      | none => c :: subLoop p fuel (some c) text

/-- `pattern.sub(replacement, text)`. -/
def sub (p : Pattern α) (text : List α) : List α := p.subLoop text.length none text

theorem rest_lt (p : Pattern α) {previous : Option α} {text : List α} {m : Match α}
    (h : p.find previous text = some m) : m.rest.length < text.length := by
  rw [p.splits h, List.length_append]
  have := List.length_pos_iff.2 (p.nonempty h)
  omega

/-- A text without the characters that every match has is not changed. -/
theorem sub_of_not_mem (p : Pattern α) {needed : α → Prop}
    (hneeded : ∀ {previous text m}, p.find previous text = some m → ∃ c ∈ m.matched, needed c)
    {text : List α} (h : ∀ c ∈ text, ¬needed c) : p.sub text = text := by
  have hloop : ∀ fuel previous (t : List α), (∀ c ∈ t, ¬needed c) →
      p.subLoop fuel previous t = t := by
    intro fuel
    induction fuel with
    | zero =>
        intro previous t _
        rfl
    | succ fuel ih =>
        intro previous t ht
        cases t with
        | nil => rfl
        | cons c t =>
            simp only [subLoop]
            cases hfind : p.find previous (c :: t) with
            | none => exact congrArg (c :: ·) (ih _ _ (List.forall_mem_cons.1 ht).2)
            | some m =>
                -- the match would have a needed character
                obtain ⟨d, hd, hneed⟩ := hneeded hfind
                have hmem : d ∈ c :: t := by
                  rw [p.splits hfind]
                  exact List.mem_append_left _ hd
                exact absurd hneed (ht d hmem)
  exact hloop _ _ _ h

end Pattern

/-! ## Sites -/

/-- A kind of positions: the characters before the position with the last one first, the character
there, and the characters after it. -/
abbrev Site (α : Type) := List α → α → List α → Prop

open Classical in
/-- The number of sites in `text`, between `before` (with the last character first) and `after`. -/
noncomputable def siteCount (site : Site α) : List α → List α → List α → Nat
  | _, [], _ => 0
  | before, c :: text, after =>
      (if site before c (text ++ after) then 1 else 0) + siteCount site (c :: before) text after

@[simp] theorem siteCount_nil (site : Site α) (before after : List α) :
    siteCount site before [] after = 0 := rfl

open Classical in
theorem siteCount_cons (site : Site α) (before after text : List α) (c : α) :
    siteCount site before (c :: text) after =
      (if site before c (text ++ after) then 1 else 0) + siteCount site (c :: before) text after :=
  rfl

theorem siteCount_cons_of_site {site : Site α} {before text after : List α} {c : α}
    (h : site before c (text ++ after)) :
    siteCount site before (c :: text) after = 1 + siteCount site (c :: before) text after := by
  rw [siteCount_cons, if_pos h]

theorem siteCount_cons_of_not {site : Site α} {before text after : List α} {c : α}
    (h : ¬site before c (text ++ after)) :
    siteCount site before (c :: text) after = siteCount site (c :: before) text after := by
  rw [siteCount_cons, if_neg h, Nat.zero_add]

theorem siteCount_append (site : Site α) (before a b after : List α) :
    siteCount site before (a ++ b) after =
      siteCount site before a (b ++ after) + siteCount site (a.reverse ++ before) b after := by
  induction a generalizing before with
  | nil => simp
  | cons c a ih =>
      rw [List.cons_append, siteCount_cons, siteCount_cons, ih, List.append_assoc, List.reverse_cons,
        List.append_assoc, List.singleton_append, Nat.add_assoc]

/-- A text whose characters are no sites. -/
theorem siteCount_eq_zero {site : Site α} {text : List α}
    (h : ∀ c ∈ text, ∀ before after, ¬site before c after) (before after : List α) :
    siteCount site before text after = 0 := by
  induction text generalizing before with
  | nil => rfl
  | cons c text ih =>
      obtain ⟨hc, htext⟩ := List.forall_mem_cons.1 h
      rw [siteCount_cons_of_not (hc before _), ih htext]

/-- The characters since the last site. -/
noncomputable def quiet (site : Site α) : List α → Nat
  | [] => 0
  | c :: before => open Classical in if ∃ after, site before c after then 0 else quiet site before + 1

theorem quiet_cons_of_not {site : Site α} {before : List α} {c : α}
    (h : ∀ after, ¬site before c after) : quiet site (c :: before) = quiet site before + 1 := by
  have hnone : ¬∃ after, site before c after := by
    rintro ⟨after, hafter⟩
    exact h after hafter
  exact if_neg hnone

/-- Characters that are no sites lengthen a gap. -/
theorem length_le_quiet {site : Site α} {text : List α}
    (h : ∀ c ∈ text, ∀ before after, ¬site before c after) (before : List α) :
    text.length ≤ quiet site (text ++ before) := by
  induction text with
  | nil => exact Nat.zero_le _
  | cons c text ih =>
      obtain ⟨hc, htext⟩ := List.forall_mem_cons.1 h
      rw [List.cons_append, quiet_cons_of_not (hc _)]
      exact Nat.succ_le_succ (ih htext)

theorem quiet_cons_le (site : Site α) (before : List α) (c : α) :
    quiet site (c :: before) ≤ quiet site before + 1 := by
  by_cases hsite : ∃ after, site before c after
  · have hzero : quiet site (c :: before) = 0 := if_pos hsite
    omega
  · have hmore : quiet site (c :: before) = quiet site before + 1 := if_neg hsite
    omega

/-- Where every site follows a gap of `gap` positions that are no sites, one position in
`gap + 1` is a site. -/
theorem siteCount_mul_le {site : Site α} {gap : Nat}
    (hgap : ∀ {before c after}, site before c after → gap ≤ quiet site before)
    (text after : List α) : (gap + 1) * siteCount site [] text after ≤ text.length := by
  have hfrom : ∀ before, (gap + 1) * siteCount site before text after ≤
      text.length + min gap (quiet site before) := by
    induction text with
    | nil =>
        intro before
        simp
    | cons c text ih =>
        intro before
        have hrest := ih (c :: before)
        rw [List.length_cons]
        by_cases hsite : site before c (text ++ after)
        · have hbefore := hgap hsite
          have hquiet : quiet site (c :: before) = 0 := if_pos ⟨_, hsite⟩
          rw [hquiet] at hrest
          rw [siteCount_cons_of_site hsite, Nat.mul_add]
          omega
        · have hquiet := quiet_cons_le site before c
          rw [siteCount_cons_of_not hsite]
          omega
  have h := hfrom []
  simpa [quiet] using h

/-! ## Lookback -/

/-- What stands before a position in two texts is the same as far back as the position can see: to
the start, or to a barrier in the second text. -/
def Sees (barrier : α → Prop) (before before' : List α) : Prop :=
  ∃ near far far', before = near ++ far ∧ before' = near ++ far' ∧
    (far = far' ∨ ∃ b rest, far' = b :: rest ∧ barrier b)

variable {barrier : α → Prop} {before before' : List α}

theorem Sees.refl (barrier : α → Prop) (before : List α) : Sees barrier before before :=
  ⟨[], before, before, rfl, rfl, .inl rfl⟩

theorem Sees.append (h : Sees barrier before before') (text : List α) :
    Sees barrier (text ++ before) (text ++ before') := by
  obtain ⟨near, far, far', rfl, rfl, hfar⟩ := h
  exact ⟨text ++ near, far, far', (List.append_assoc ..).symm, (List.append_assoc ..).symm, hfar⟩

/-- A barrier hides what is before it. -/
theorem Sees.of_barrier {b : α} (h : barrier b) (before before' : List α) :
    Sees barrier before (b :: before') :=
  ⟨[], before, b :: before', rfl, rfl, .inr ⟨b, before', rfl, h⟩⟩

/-- What the second text shows of its past is the past of the first. -/
theorem Sees.exists_append {text more : List α} (h : Sees barrier before before')
    (hbefore : before' = text ++ more) (htext : ∀ c ∈ text, ¬barrier c) :
    ∃ more', before = text ++ more' := by
  obtain ⟨near, far, far', rfl, rfl, hfar⟩ := h
  rcases List.append_eq_append_iff.1 hbefore with ⟨beyond, rfl, hbeyond⟩ | ⟨beyond, rfl, -⟩
  · cases beyond with
    | nil => exact ⟨far, by rw [List.append_nil]⟩
    | cons c beyond =>
        obtain rfl | ⟨b, rest, hb, hbarrier⟩ := hfar
        · exact ⟨more, by rw [hbeyond, List.append_assoc]⟩
        · -- the text would reach over the barrier
          rw [hb, List.cons_append] at hbeyond
          cases hbeyond
          exact absurd hbarrier (htext c (by simp))
  · exact ⟨beyond ++ far, List.append_assoc ..⟩

/-- A site of the second kind is one of the first wherever no more of its past is seen. -/
def SeenBy (barrier : α → Prop) (site site' : Site α) : Prop :=
  ∀ before before' c after after', Sees barrier before before' →
    site' before' c after' → site before c after

theorem siteCount_le {site site' : Site α} (hsite : SeenBy barrier site site')
    (h : Sees barrier before before') (text after after' : List α) :
    siteCount site' before' text after' ≤ siteCount site before text after := by
  induction text generalizing before before' with
  | nil => exact le_rfl
  | cons c text ih =>
      have hrest := ih (h.append [c])
      by_cases hs' : site' before' c (text ++ after')
      · rw [siteCount_cons_of_site hs', siteCount_cons_of_site (hsite _ _ _ _ _ h hs')]
        exact Nat.add_le_add_left hrest 1
      · rw [siteCount_cons_of_not hs', siteCount_cons]
        exact hrest.trans (Nat.le_add_left _ _)

/-! ## Costs -/

/-- The weight of a text. -/
def cost (weight : α → Nat) (text : List α) : Nat := (text.map weight).sum

section Cost

variable (weight : α → Nat)

@[simp] theorem cost_nil : cost weight [] = 0 := rfl

@[simp] theorem cost_cons (c : α) (text : List α) :
    cost weight (c :: text) = weight c + cost weight text := rfl

@[simp] theorem cost_append (a b : List α) :
    cost weight (a ++ b) = cost weight a + cost weight b := by
  unfold cost
  rw [List.map_append, List.sum_append]

theorem cost_take_le (n : Nat) (text : List α) : cost weight (text.take n) ≤ cost weight text := by
  have hsplit := cost_append weight (text.take n) (text.drop n)
  rw [List.take_append_drop] at hsplit
  omega

theorem length_le_cost (h : ∀ c, 1 ≤ weight c) (text : List α) : text.length ≤ cost weight text := by
  induction text with
  | nil => exact le_rfl
  | cons c text ih =>
      have hc := h c
      rw [List.length_cons, cost_cons]
      omega

end Cost

/-- Every match pays for the weight that it adds: it loses sites, each worth `charge`. -/
structure Pays (p : Pattern α) (weight : α → Nat) (charge : Nat) (barrier : α → Prop)
    (site site' : Site α) : Prop where
  seen : SeenBy barrier site site'
  pays : ∀ {before before' text m}, Sees barrier before before' →
    p.find before.head? text = some m → ∀ after',
      cost weight m.replacement + charge * siteCount site' before' m.replacement after' ≤
        cost weight m.matched + charge * siteCount site before m.matched m.rest
  hides : ∀ {previous text m}, p.find previous text = some m →
    ∃ kept b, m.replacement = kept ++ [b] ∧ barrier b

theorem Pays.subLoop {p : Pattern α} {weight : α → Nat} {charge : Nat} {site site' : Site α}
    (h : Pays p weight charge barrier site site') {fuel : Nat} {text : List α}
    (hfuel : text.length ≤ fuel) (hsees : Sees barrier before before') :
    cost weight (p.subLoop fuel before.head? text) +
        charge * siteCount site' before' (p.subLoop fuel before.head? text) [] ≤
      cost weight text + charge * siteCount site before text [] := by
  induction fuel generalizing before before' text with
  | zero =>
      have hnil : text = [] := List.eq_nil_of_length_eq_zero (by omega)
      subst hnil
      simp [Pattern.subLoop]
  | succ fuel ih =>
      cases text with
      | nil => simp [Pattern.subLoop]
      | cons c text =>
          simp only [Pattern.subLoop]
          cases hfind : p.find before.head? (c :: text) with
          | none =>
              rw [List.length_cons] at hfuel
              have hrest := @ih _ _ text (by omega) (hsees.append [c])
              simp only [List.singleton_append, List.head?_cons] at hrest
              dsimp only
              have hone := siteCount_le h.seen hsees [c] text (p.subLoop fuel (some c) text)
              have hin := siteCount_append site before [c] text []
              have hout := siteCount_append site' before' [c] (p.subLoop fuel (some c) text) []
              simp only [List.singleton_append, List.append_nil, List.reverse_singleton] at hin hout
              have hcharge := Nat.mul_le_mul_left charge hone
              rw [cost_cons, cost_cons, hin, hout, Nat.mul_add, Nat.mul_add]
              omega
          | some m =>
              obtain ⟨kept, b, hreplaced, hb⟩ := h.hides hfind
              have hlt := p.rest_lt hfind
              have hsees' : Sees barrier (m.matched.reverse ++ before)
                  (m.replacement.reverse ++ before') := by
                rw [hreplaced, List.reverse_concat, List.cons_append]
                exact Sees.of_barrier hb _ _
              have hrest := @ih _ _ m.rest (by omega) hsees'
              have hlast : (m.matched.reverse ++ before).head? = m.matched.getLast? := by
                rw [List.head?_append_of_ne_nil _ (by simpa using p.nonempty hfind),
                  List.head?_reverse]
              rw [hlast] at hrest
              have hpays := h.pays hsees hfind (p.subLoop fuel m.matched.getLast? m.rest ++ [])
              have hin := siteCount_append site before m.matched m.rest []
              have hout := siteCount_append site' before' m.replacement
                (p.subLoop fuel m.matched.getLast? m.rest) []
              rw [List.append_nil] at hin
              dsimp only
              rw [p.splits hfind, cost_append, cost_append, hin, hout, Nat.mul_add, Nat.mul_add]
              omega

/-- Substitution does not increase the weight of a text and the charges for its sites. -/
theorem Pays.sub {p : Pattern α} {weight : α → Nat} {charge : Nat} {site site' : Site α}
    (h : Pays p weight charge barrier site site') (text : List α) :
    cost weight (p.sub text) + charge * siteCount site' [] (p.sub text) [] ≤
      cost weight text + charge * siteCount site [] text [] := by
  unfold Pattern.sub
  exact h.subLoop le_rfl (Sees.refl barrier [])

end WheelForge.Python
