import WheelForge.Resolver.ChangeReports
import WheelForge.Resolver.Discovery
import WheelForge.Resolver.SearchBudgets

/-!
# The calls of the compatible search

The search calls the strict resolver with the original requirements at the sources in order, and
then with combinations of versions that differ from the original ones. No combination is tried twice
at one source (`combinations_tried_once`), and every version that it substitutes is eligible at the
source of the call (`substitutions_eligible`).

The invariant `Tried` speaks of the calls so far and of the combinations that are marked. A
combination is marked before the guard of its call, so that one mark may have no call.
-/

set_option autoImplicit false

namespace WheelForge.Resolver

open WheelForge.Parser WheelForge.Target
open WheelForge.Pep440 (Specifier Version)

variable {σ α β : Type}

/-- A combination of versions at a source. -/
abbrev Combination := List Version × PackageSource

/-! ## The calls so far -/

theorem strictCalls_call {events : List SearchEvent} {call : StrictCall} :
    strictCalls (events ++ [.strictCall call]) = strictCalls events ++ [call] :=
  strictCalls_append events _

theorem strictCalls_other {events : List SearchEvent} {event : SearchEvent}
    (h : strictCalls [event] = []) : strictCalls (events ++ [event]) = strictCalls events := by
  rw [strictCalls_append, h, List.append_nil]

/-- Two combinations differ in a version or in the source. -/
def Differ (c d : Combination) : Prop :=
  ¬ (CompatibleResolver.sameTuple c.1 d.1 = true ∧ c.2 = d.2)

/-- Every version of a combination is the original one or eligible at the source. -/
def Supported (resolver : CompatibleResolver σ) (profile : TargetProfile)
    (pins : List RelaxablePin) (events : List SearchEvent) (c : Combination) : Prop :=
  ∀ (i : Nat) (pin : RelaxablePin) (version : Version), pins[i]? = some pin →
    c.1[i]? = some version →
    version.Same pin.original ∨ Eligible resolver profile pin events c.2 version

/-- A combination that replaces the original version of at least one pin. -/
def Substitutes (pins : List RelaxablePin) (c : Combination) : Prop :=
  CompatibleResolver.sameTuple c.1 (pins.map RelaxablePin.original) = false

/-- The call of a combination. -/
structure CallOf (resolver : CompatibleResolver σ) (context : SearchContext)
    (pins : List RelaxablePin) (events : List SearchEvent) (c : Combination) (call : StrictCall) :
    Prop where
  source : call.source = c.2
  rebuilt : rebuildRequirements resolver.pk resolver.gbk context.parsed pins c.1 = .ok call.parsed
  supported : Supported resolver context.profile pins events c

/-- The calls with the original requirements, one at each source. -/
structure OriginalCalls (context : SearchContext) (calls : List StrictCall) : Prop where
  parsed : ∀ call ∈ calls, call.parsed = context.parsed
  sources : calls.map StrictCall.source = context.sources

/-- The calls of the first phase, at all sources but `rest`. -/
structure OriginalsTried (context : SearchContext) (rest : List PackageSource)
    (s : SearchState σ) : Prop where
  attempted : s.attempted = []
  parsed : ∀ call ∈ strictCalls s.events, call.parsed = context.parsed
  sources : (strictCalls s.events).map StrictCall.source ++ rest = context.sources

/-- The calls and the marks of the second phase, which begins when no source resolves the original
requirements; `pending` is marked and not called. -/
structure Tried (resolver : CompatibleResolver σ) (context : SearchContext)
    (pins : List RelaxablePin) (pending : List Combination) (s : SearchState σ) : Prop where
  distinct : s.attempted.Pairwise Differ
  substitutes : ∀ c ∈ s.attempted, Substitutes pins c
  split : ∃ originals combinations calls,
    strictCalls s.events = originals ++ calls ∧ s.attempted = combinations ++ pending ∧
      OriginalCalls context originals ∧
      List.Forall₂ (CallOf resolver context pins s.events) combinations calls

/-- What the search leaves behind, in whichever phase it ends. -/
def TriedAtEnd (resolver : CompatibleResolver σ) (context : SearchContext)
    (pins : List RelaxablePin) (s : SearchState σ) : Prop :=
  (∃ rest, OriginalsTried context rest s) ∨
    ∃ pending, pending.length ≤ 1 ∧ Tried resolver context pins pending s

section Invariant

variable {resolver : CompatibleResolver σ} {context : SearchContext} {pins : List RelaxablePin}
  {pending : List Combination} {s t : SearchState σ} {event : SearchEvent} {c : Combination}
  {call : StrictCall} {rest : List PackageSource}

theorem CallOf.concat {events : List SearchEvent}
    (h : CallOf resolver context pins events c call) :
    CallOf resolver context pins (events ++ [event]) c call :=
  ⟨h.source, h.rebuilt, fun i pin version hpin hversion =>
    (h.supported i pin version hpin hversion).imp id Eligible.concat⟩

theorem Tried.of_eq (h : Tried resolver context pins pending s)
    (hattempted : t.attempted = s.attempted) (hevents : t.events = s.events) :
    Tried resolver context pins pending t := by
  obtain ⟨hdistinct, hsubstitutes, originals, combinations, calls, hsplit⟩ := h
  refine ⟨hattempted ▸ hdistinct, hattempted ▸ hsubstitutes, originals, combinations, calls, ?_⟩
  rwa [hattempted, hevents]

/-- An event that is no call. -/
theorem Tried.withEvent (h : Tried resolver context pins pending s)
    (hattempted : t.attempted = s.attempted) (hevents : t.events = s.events ++ [event])
    (hother : strictCalls [event] = []) : Tried resolver context pins pending t := by
  obtain ⟨hdistinct, hsubstitutes, originals, combinations, calls, hcalls, hmarks, horiginals,
    hof⟩ := h
  refine ⟨hattempted ▸ hdistinct, hattempted ▸ hsubstitutes, originals, combinations, calls, ?_,
    hattempted.trans hmarks, horiginals, ?_⟩
  · rw [hevents, strictCalls_other hother, hcalls]
  · rw [hevents]
    exact hof.imp fun _ _ => CallOf.concat

/-- A combination is marked. -/
theorem Tried.mark (h : Tried resolver context pins [] s)
    (hfresh : ∀ d ∈ s.attempted, Differ d c) (hsubstitutes : Substitutes pins c)
    (hattempted : t.attempted = s.attempted ++ [c]) (hevents : t.events = s.events) :
    Tried resolver context pins [c] t := by
  obtain ⟨hdistinct, hall, originals, combinations, calls, hcalls, hmarks, horiginals, hof⟩ := h
  refine ⟨?_, ?_, originals, combinations, calls, hevents ▸ hcalls, ?_, horiginals,
    hevents ▸ hof⟩
  · rw [hattempted, List.pairwise_append]
    exact ⟨hdistinct, List.pairwise_singleton _ _, fun d hd e he =>
      List.mem_singleton.1 he ▸ hfresh d hd⟩
  · intro d hd
    rw [hattempted] at hd
    rcases List.mem_append.1 hd with hold | hnew
    · exact hall d hold
    · exact List.mem_singleton.1 hnew ▸ hsubstitutes
  · rw [hattempted, hmarks, List.append_nil]

/-- The marked combination is called. -/
theorem Tried.withCall (h : Tried resolver context pins [c] s)
    (hcall : CallOf resolver context pins s.events c call)
    (hattempted : t.attempted = s.attempted)
    (hevents : t.events = s.events ++ [.strictCall call]) :
    Tried resolver context pins [] t := by
  obtain ⟨hdistinct, hall, originals, combinations, calls, hcalls, hmarks, horiginals, hof⟩ := h
  refine ⟨hattempted ▸ hdistinct, hattempted ▸ hall, originals, combinations ++ [c],
    calls ++ [call], ?_, ?_, horiginals, ?_⟩
  · rw [hevents, strictCalls_call, hcalls, List.append_assoc]
  · rw [hattempted, hmarks, List.append_nil]
  · rw [hevents]
    exact List.rel_append (hof.imp fun _ _ => CallOf.concat) (.cons hcall.concat .nil)

/-- The second phase begins. -/
theorem OriginalsTried.tried (h : OriginalsTried context [] s) :
    Tried resolver context pins [] s where
  distinct := by simp [h.attempted]
  substitutes := by simp [h.attempted]
  split := ⟨strictCalls s.events, [], [], by simp, h.attempted,
    ⟨h.parsed, by simpa using h.sources⟩, .nil⟩

theorem OriginalsTried.atEnd (h : OriginalsTried context rest s) :
    TriedAtEnd resolver context pins s :=
  .inl ⟨rest, h⟩

theorem Tried.atEnd (h : Tried resolver context pins pending s) (hpending : pending.length ≤ 1) :
    TriedAtEnd resolver context pins s :=
  .inr ⟨pending, hpending, h⟩

theorem Tried.silent (hpending : pending.length ≤ 1) :
    Silent (TriedAtEnd resolver context pins) (Tried resolver context pins pending) where
  final := fun _ hs => hs.atEnd hpending
  world := fun _ _ hs => hs.of_eq rfl rfl
  ask := fun _ _ _ _ _ hs => hs.withEvent rfl rfl rfl
  truncate := fun _ hs => hs.of_eq rfl rfl
  reject := fun _ _ hs => hs.withEvent rfl rfl rfl
  accept := fun _ hs => hs.of_eq rfl rfl
  observe := fun _ _ _ _ hs => hs.withEvent rfl rfl rfl

/-! ## Attempts -/

/-- The properties that an attempt keeps, its call apart. -/
structure Steady (F P : SearchState σ → Prop) : Prop where
  final : ∀ s, P s → F s
  world : ∀ s w, P s → P { s with world := w }
  attempts : ∀ s attempts, P s → P { s with attempts := attempts }

section Attempts

open CompatibleResolver

variable {F P Q : SearchState σ → Prop} {parsed : ParsedRequirements}
  {selected : List CandidateSelection} {source : PackageSource}

theorem Steady.keeps_checkDeadline (h : Steady F P) :
    Ensures F F P (resolver.checkDeadline context) fun _ => P := by
  refine Ensures.bind (Q := fun _ => P) (fun s hs => h.world s _ hs) fun now => ?_
  split
  · exact ensures_stop h.final
  · exact ensures_pure fun _ hs => hs

theorem Steady.keeps_guard (h : Steady F P) :
    Ensures F F P (resolver.guard context) fun _ => P := by
  refine Ensures.bind h.keeps_checkDeadline fun _ => ?_
  refine Ensures.bind (Q := fun _ => P) (fun _ hs => hs) fun t => ?_
  split
  · exact ensures_stop h.final
  · exact ensures_pure fun _ hs => hs

theorem Steady.keeps_appendAttempt (h : Steady F P) (attempt : ResolutionAttempt) :
    Ensures F F P (appendAttempt attempt) fun _ => P :=
  fun s hs => h.attempts s _ hs

theorem Steady.keeps_recordTimeout (h : Steady F P) :
    Ensures F F P (resolver.recordTimeoutAttemptIfExpired context selected source)
      fun _ => P := by
  refine Ensures.bind (Q := fun _ => P) (fun s hs => h.world s _ hs) fun now => ?_
  split
  · exact Ensures.bind (h.keeps_appendAttempt _) fun _ => ensures_stop h.final
  · exact ensures_pure fun _ hs => hs

/-- An attempt is its call and then nothing that `Q` sees. -/
theorem Steady.ensures_attempt (hQ : Steady F Q)
    (hcall : ∀ s w answer, P s → Q { s with
      world := w
      events := s.events ++ [.strictCall ⟨parsed, source, answer⟩] }) :
    Ensures F F P (resolver.attempt context parsed source selected) fun _ => Q := by
  refine Ensures.bind (Q := fun _ => Q) (fun s hs => hcall s _ _ hs) ?_
  rintro (result | ⟨typeName, text⟩ | typeName)
  · refine Ensures.bind hQ.keeps_recordTimeout fun _ => ?_
    exact Ensures.bind (hQ.keeps_appendAttempt _) fun _ => ensures_pure fun _ hs => hs
  · refine Ensures.bind hQ.keeps_recordTimeout fun _ => ?_
    exact Ensures.bind (hQ.keeps_appendAttempt _) fun _ => ensures_pure fun _ hs => hs
  · exact ensures_ofExcept hQ.final nofun

theorem Steady.keeps_successfulResult (h : Steady F P) (result : ResolutionResult)
    (baseline : ParsedRequirements) :
    Ensures F F P (resolver.successfulResult result baseline source) fun _ => P := by
  refine Ensures.bind (Q := fun _ => P) (fun _ hs => hs) fun s => ?_
  refine Ensures.bind (Q := fun _ => P) (ensures_ofExcept h.final fun _ _ _ hs => hs) fun _ => ?_
  exact ensures_pure fun _ hs => hs

/-- The loop rule: `P rest` holds before the sources `rest` are tried, `M source rest` once
`source` is marked. Without a result all sources were tried. -/
theorem ensures_attemptSources {P : List PackageSource → SearchState σ → Prop}
    {M : PackageSource → List PackageSource → SearchState σ → Prop}
    {mark : PackageSource → Search σ Unit} (hP : ∀ rest, Steady F (P rest))
    (hM : ∀ source rest, Steady F (M source rest))
    (hmark : ∀ source rest, Ensures F F (P (source :: rest)) (mark source)
      fun _ => M source rest)
    (hcall : ∀ source rest s w answer, M source rest s → P rest { s with
      world := w
      events := s.events ++ [.strictCall ⟨parsed, source, answer⟩] })
    (hend : ∀ rest s, P rest s → Q s) (sources : List PackageSource) :
    Ensures F F (P sources) (resolver.attemptSources context parsed selected mark sources)
      fun outcome s => Q s ∧ (outcome = none → P [] s) := by
  induction sources with
  | nil => exact ensures_pure fun s hs => ⟨hend [] s hs, fun _ => hs⟩
  | cons source rest ih =>
      refine Ensures.bind (hmark source rest) fun _ => ?_
      refine Ensures.bind (hM source rest).keeps_guard fun _ => ?_
      refine Ensures.bind ((hP rest).ensures_attempt (hcall source rest)) ?_
      rintro (_ | strict)
      · exact ih
      · refine Ensures.bind ((hP rest).keeps_successfulResult strict _) fun _ => ?_
        exact ensures_pure fun s hs => ⟨hend rest s hs, nofun⟩

end Attempts

/-- The calls with the original requirements. -/
theorem ensures_originals (selected : List CandidateSelection) :
    Ensures (TriedAtEnd resolver context pins) (TriedAtEnd resolver context pins)
      (OriginalsTried context context.sources)
      (resolver.attemptSources context context.parsed selected (fun _ => pure ())
        context.sources) fun outcome s => TriedAtEnd resolver context pins s ∧
          (outcome = none → OriginalsTried context [] s) := by
  have hsteady : ∀ rest, Steady (TriedAtEnd resolver context pins)
      (OriginalsTried (σ := σ) context rest) := fun rest =>
    ⟨fun _ hs => hs.atEnd, fun _ _ hs => ⟨hs.1, hs.2, hs.3⟩, fun _ _ hs => ⟨hs.1, hs.2, hs.3⟩⟩
  refine ensures_attemptSources (P := OriginalsTried context)
    (M := fun source rest => OriginalsTried context (source :: rest)) hsteady
    (fun source rest => hsteady (source :: rest)) (fun _ _ => ensures_pure fun _ hs => hs)
    ?_ (fun _ _ hs => hs.atEnd) context.sources
  rintro source rest s w answer ⟨hattempted, hparsed, hsources⟩
  refine ⟨hattempted, ?_, ?_⟩
  · intro call hcall
    rw [strictCalls_call] at hcall
    rcases List.mem_append.1 hcall with hold | hnew
    · exact hparsed call hold
    · rw [List.mem_singleton.1 hnew]
  · rw [strictCalls_call, List.map_append, List.append_assoc]
    exact hsources

/-! ## Frontiers -/

/-- The options so far rest on releases that were observed. -/
def DiscoveredOk (resolver : CompatibleResolver σ) (profile : TargetProfile)
    (pins : List RelaxablePin) (discovered : List CandidateOptions) (events : List SearchEvent) : Prop :=
  ∀ (i : Nat) (pin : RelaxablePin) (options : CandidateOptions), pins[i]? = some pin →
    discovered[i]? = some options → Justified resolver profile pin events options

/-- No call is marked for the combination. -/
def Fresh (c : Combination) (attempted : List Combination) : Prop :=
  ∀ d ∈ attempted, Differ d c

section Frontier

open CompatibleResolver

variable {F P : SearchState σ → Prop} {profile : TargetProfile}
  {discovered : List CandidateOptions} {events : List SearchEvent} {versions : List Version}
  {source : PackageSource}

theorem DiscoveredOk.concat (h : DiscoveredOk resolver profile pins discovered events) :
    DiscoveredOk resolver profile pins discovered (events ++ [event]) :=
  fun i pin options hpin hoptions => (h i pin options hpin hoptions).concat

/-- A source supports the substitutions of a combination whose versions are eligible there. -/
theorem supported_of_supports (h : DiscoveredOk resolver profile pins discovered events)
    (hsupports : supportsSubstitutions source pins versions discovered = true) :
    Supported resolver profile pins events (versions, source) := by
  intro i
  induction i generalizing pins versions discovered with
  | zero =>
      intro pin version hpin hversion
      obtain ⟨pins, rfl⟩ : ∃ rest, pins = pin :: rest := by
        cases pins with
        | nil => cases hpin
        | cons first rest => exact ⟨rest, by simpa using hpin⟩
      obtain ⟨versions, rfl⟩ : ∃ rest, versions = version :: rest := by
        cases versions with
        | nil => cases hversion
        | cons first rest => exact ⟨rest, by simpa using hversion⟩
      simp only [supportsSubstitutions, Bool.and_eq_true, Bool.or_eq_true,
        decide_eq_true_eq] at hsupports
      refine hsupports.1.imp id fun hoption => ?_
      cases discovered with
      | nil => simp [CandidateOptions.supports] at hoption
      | cons options later => exact (h 0 pin options rfl rfl).supported version source hoption
  | succ i ih =>
      intro pin version hpin hversion
      cases pins with
      | nil => cases hpin
      | cons first pins =>
          cases versions with
          | nil => cases hversion
          | cons chosen versions =>
              rw [supportsSubstitutions, Bool.and_eq_true] at hsupports
              have hlater : DiscoveredOk resolver profile pins discovered.tail events := by
                intro j other options hother hoptions
                refine h (j + 1) other options hother ?_
                rw [← hoptions, List.getElem?_tail]
              exact ih hlater hsupports.2 pin version hpin hversion

theorem fresh_of_wasAttempted {attempted : List Combination}
    (h : (attempted.any fun (others, other) =>
      sameTuple versions others && decide (source = other)) = false) :
    Fresh (versions, source) attempted := by
  rintro ⟨others, other⟩ hmem ⟨htuple, hsource⟩
  have hnot := List.any_eq_false.1 h _ hmem
  refine hnot ?_
  rw [Bool.and_eq_true, decide_eq_true_eq]
  exact ⟨decide_eq_true (of_decide_eq_true htuple).symm, hsource.symm⟩

/-- The viable sources are sources at which the combination is new and supported. -/
theorem viableSources_fresh (h : Silent F P) (sources : List PackageSource) :
    Ensures F F P (resolver.viableSources context pins versions discovered sources)
      fun viable s => P s ∧ viable.Sublist sources ∧ ∀ source ∈ viable,
        Fresh (versions, source) s.attempted ∧
          supportsSubstitutions source pins versions discovered = true := by
  induction sources generalizing P with
  | nil => exact ensures_pure fun s hs => ⟨hs, List.Sublist.refl _, nofun⟩
  | cons source rest ih =>
      refine h.keeps_guard.then fun _ _ => ?_
      refine Ensures.bind (Q := fun attempted s => P s ∧
        (attempted = false → Fresh (versions, source) s.attempted))
        (fun s hs => ⟨hs, fresh_of_wasAttempted⟩) fun attempted => ?_
      -- what is known of this source is kept while the others are looked at
      have hkept := h.andMarks fun marks => attempted = false → Fresh (versions, source) marks
      refine Ensures.bind (ih hkept) fun viable => ?_
      refine ensures_pure ?_
      rintro s ⟨⟨hs, hfresh⟩, hsublist, hviable⟩
      refine ⟨hs, ?_⟩
      split
      · exact ⟨hsublist.cons _, hviable⟩
      · next hskip =>
          obtain ⟨hnew, hsupports⟩ : attempted = false ∧
              supportsSubstitutions source pins versions discovered = true := by
            simpa using hskip
          refine ⟨hsublist.cons_cons _, fun other hother => ?_⟩
          rcases List.mem_cons.1 hother with rfl | hlater
          · exact ⟨hfresh hnew, hsupports⟩
          · exact hviable other hlater

/-- The combination is new and supported at the sources that are left. -/
structure Ahead (resolver : CompatibleResolver σ) (context : SearchContext)
    (pins : List RelaxablePin) (discovered : List CandidateOptions) (versions : List Version)
    (rest : List PackageSource) (pending : List Combination) (s : SearchState σ) : Prop where
  tried : Tried resolver context pins pending s
  found : DiscoveredOk resolver context.profile pins discovered s.events
  nodup : rest.Nodup
  fresh : ∀ source ∈ rest, Fresh (versions, source) s.attempted
  supported : ∀ source ∈ rest,
    supportsSubstitutions source pins versions discovered = true

theorem Ahead.of_eq (h : Ahead resolver context pins discovered versions rest pending s)
    (hattempted : t.attempted = s.attempted) (hevents : t.events = s.events) :
    Ahead resolver context pins discovered versions rest pending t :=
  ⟨h.tried.of_eq hattempted hevents, hevents ▸ h.found, h.nodup, hattempted ▸ h.fresh,
    h.supported⟩

theorem Ahead.steady (hpending : pending.length ≤ 1) :
    Steady (TriedAtEnd resolver context pins)
      (Ahead resolver context pins discovered versions rest pending) :=
  ⟨fun _ hs => hs.tried.atEnd hpending, fun _ _ hs => hs.of_eq rfl rfl,
    fun _ _ hs => hs.of_eq rfl rfl⟩

/-- What holds between two combinations. -/
def Settled (resolver : CompatibleResolver σ) (context : SearchContext)
    (pins : List RelaxablePin) (discovered : List CandidateOptions) (s : SearchState σ) : Prop :=
  Tried resolver context pins [] s ∧
    DiscoveredOk resolver context.profile pins discovered s.events

theorem settled_silent (resolver : CompatibleResolver σ) (context : SearchContext)
    (pins : List RelaxablePin) (discovered : List CandidateOptions) :
    Silent (TriedAtEnd resolver context pins) (Settled resolver context pins discovered) :=
  (Tried.silent (Nat.zero_le _)).and fun _ _ => DiscoveredOk.concat

/-- The calls of one combination. -/
theorem ensures_substituted {parsed : ParsedRequirements} {selected : List CandidateSelection}
    (hrebuilt : rebuildRequirements resolver.pk resolver.gbk context.parsed pins versions =
      .ok parsed) (hsubstitutes : ∀ source, Substitutes pins (versions, source))
    (viable : List PackageSource) :
    Ensures (TriedAtEnd resolver context pins) (TriedAtEnd resolver context pins)
      (Ahead resolver context pins discovered versions viable [])
      (resolver.attemptSources context parsed selected (markAttempted versions) viable)
      fun _ => Settled resolver context pins discovered := by
  refine Ensures.weaken (ensures_attemptSources
    (P := fun rest => Ahead resolver context pins discovered versions rest [])
    (M := fun source rest s =>
      Ahead resolver context pins discovered versions rest [(versions, source)] s ∧
        supportsSubstitutions source pins versions discovered = true)
    (fun rest => Ahead.steady (Nat.zero_le _)) ?_ ?_ ?_
    (fun rest s hs => ⟨hs.tried, hs.found⟩) viable) (fun _ hs => hs) fun _ _ hs => hs.1
  · intro source rest
    have hsteady : Steady (TriedAtEnd resolver context pins)
        (Ahead resolver context pins discovered versions rest [(versions, source)]) :=
      Ahead.steady (Nat.le_refl _)
    exact ⟨fun s hs => hsteady.final s hs.1, fun s w hs => ⟨hsteady.world s w hs.1, hs.2⟩,
      fun s attempts hs => ⟨hsteady.attempts s attempts hs.1, hs.2⟩⟩
  · rintro source rest s ⟨htried, hdiscovered, hnodup, hfresh, hsupported⟩
    obtain ⟨hnew, hnodup⟩ := List.nodup_cons.1 hnodup
    refine ⟨⟨htried.mark (hfresh source List.mem_cons_self) (hsubstitutes source) rfl rfl,
      hdiscovered, hnodup, fun other hother d hd => ?_, fun other hother =>
        hsupported other (List.mem_cons_of_mem _ hother)⟩, hsupported source List.mem_cons_self⟩
    rcases List.mem_append.1 hd with hold | hmarked
    · exact hfresh other (List.mem_cons_of_mem _ hother) d hold
    · -- the new mark is at another source
      obtain rfl := List.mem_singleton.1 hmarked
      rintro ⟨-, hsource⟩
      obtain rfl : source = other := hsource
      exact hnew hother
  · rintro source rest s w answer ⟨⟨htried, hdiscovered, hnodup, hfresh, hsupported⟩, hsupports⟩
    exact ⟨htried.withCall ⟨rfl, hrebuilt, supported_of_supports hdiscovered hsupports⟩ rfl rfl,
      hdiscovered.concat, hnodup, hfresh, hsupported⟩

/-- What follows once a combination of versions is looked at. -/
theorem askTuple_settled (hnodup : context.sources.Nodup)
    (hsubstitutes : ∀ source, Substitutes pins (versions, source)) {rest : List (List Version)}
    (ih : Ensures (TriedAtEnd resolver context pins) (TriedAtEnd resolver context pins)
      (Settled resolver context pins discovered)
      (resolver.attemptTuples context pins discovered rest)
      fun _ => Settled resolver context pins discovered) :
    Ensures (TriedAtEnd resolver context pins) (TriedAtEnd resolver context pins)
      (Settled resolver context pins discovered) (do
        let viable ← resolver.viableSources context pins versions discovered context.sources
        if viable = [] then resolver.attemptTuples context pins discovered rest
        else
          let candidateParsed ← Search.ofExcept
            (rebuildRequirements resolver.pk resolver.gbk context.parsed pins versions)
          match ← resolver.attemptSources context candidateParsed (selections pins versions)
              (markAttempted versions) viable with
          | some result => return some result
          | none => resolver.attemptTuples context pins discovered rest)
      fun _ => Settled resolver context pins discovered := by
  have hsilent := settled_silent resolver context pins discovered
  refine Ensures.bind (viableSources_fresh hsilent context.sources) fun viable => ?_
  split
  · exact ih.weaken (fun _ hs => hs.1) fun _ _ hs => hs
  · refine Ensures.bind (Q := fun candidateParsed s =>
      rebuildRequirements resolver.pk resolver.gbk context.parsed pins versions =
        .ok candidateParsed ∧ Ahead resolver context pins discovered versions viable [] s)
      ?_ fun candidateParsed s hs => ?_
    · refine ensures_ofExcept (fun s hs => hsilent.final s hs.1)
        fun candidateParsed hrebuilt s hs => ⟨hrebuilt, hs.1.1, hs.1.2,
          hnodup.sublist hs.2.1, fun source hsource => (hs.2.2 source hsource).1,
          fun source hsource => (hs.2.2 source hsource).2⟩
    · refine Ensures.bind (ensures_substituted hs.1 hsubstitutes viable) ?_ s hs.2
      rintro (_ | result)
      · exact ih
      · exact ensures_pure fun _ hs => hs

/-- The calls of the combinations of a frontier. -/
theorem ensures_attemptTuples (hnodup : context.sources.Nodup) (tuples : List (List Version))
    (hsubstitutes : ∀ versions ∈ tuples, ∀ source, Substitutes pins (versions, source)) :
    Ensures (TriedAtEnd resolver context pins) (TriedAtEnd resolver context pins)
      (Settled resolver context pins discovered)
      (resolver.attemptTuples context pins discovered tuples)
      fun _ => Settled resolver context pins discovered := by
  have hsilent := settled_silent resolver context pins discovered
  induction tuples with
  | nil => exact ensures_pure fun _ hs => hs
  | cons versions rest ih =>
      have hrest := ih fun other hother => hsubstitutes other (List.mem_cons_of_mem _ hother)
      have hviable := askTuple_settled hnodup (hsubstitutes versions List.mem_cons_self) hrest
      unfold CompatibleResolver.attemptTuples
      refine hsilent.keeps_guard.then fun _ _ => ?_
      refine Ensures.bind (Q := fun _ => Settled resolver context pins discovered) ?_ ?_
      · intro s hs
        by_cases hfull : resolver.maxCombinations ≤ s.visited
        · simp only [reserveCombination, hfull, if_true]
          exact hs
        · simp only [reserveCombination, hfull, if_false]
          exact ⟨hs.1.of_eq rfl rfl, hs.2⟩
      · rintro (_ | _)
        · exact ensures_stop_bind hsilent.final
        · refine Ensures.bind (Q := fun _ => Settled resolver context pins discovered) ?_
            fun _ => hviable
          exact fun s hs => ⟨hs.1.withEvent rfl rfl rfl, hs.2.concat⟩

/-! ### The versions of a frontier -/

theorem length_of_mem_product {choices : List (List Version)} {chosen : List Version}
    (h : chosen ∈ product choices) : chosen.length = choices.length := by
  induction choices generalizing chosen with
  | nil => simp [product] at h; simp [h]
  | cons first rest ih =>
      simp only [product, List.mem_flatMap, List.mem_map] at h
      obtain ⟨version, -, later, hlater, rfl⟩ := h
      simp [ih hlater]

/-- A combination of a frontier replaces the version of its pin. -/
theorem substitutes_of_mem_frontierTuples {pin : RelaxablePin} {options : CandidateOptions}
    {frontier : Nat} (hpin : pins[frontier]? = some pin)
    (hoptions : discovered[frontier]? = some options)
    (hnot : ∀ version ∈ options.versions, ¬ version.Same pin.original)
    (h : versions ∈ frontierTuples pins discovered frontier) :
    Substitutes pins (versions, source) := by
  simp only [frontierTuples, hoptions, Option.map_some, Option.getD_some, List.mem_flatMap,
    List.mem_map] at h
  obtain ⟨before, hbefore, version, hversion, rfl⟩ := h
  have hlength : before.length = frontier := by
    have hpins := (List.getElem?_eq_some_iff.1 hpin).1
    have hdiscovered := (List.getElem?_eq_some_iff.1 hoptions).1
    rw [length_of_mem_product hbefore, List.length_zipWith, List.length_take, List.length_take]
    omega
  refine decide_eq_false fun hkeys => hnot version hversion ?_
  -- the version of the pin stands at the place of the frontier
  have hat := congrArg (fun keys => keys[frontier]?) hkeys
  have hkey : version.key = pin.original.key := by simpa [hlength, hpin] using hat
  exact hkey

/-! ## The search -/

theorem DiscoveredOk.snoc {pin : RelaxablePin} {rest : List RelaxablePin}
    {options : CandidateOptions} (h : DiscoveredOk resolver profile pins discovered events)
    (hpins : pins.drop discovered.length = pin :: rest)
    (hoptions : Justified resolver profile pin events options) :
    DiscoveredOk resolver profile pins (discovered ++ [options]) events := by
  intro i other found hother hfound
  rcases Nat.lt_trichotomy i discovered.length with hlt | rfl | hgt
  · rw [List.getElem?_append_left hlt] at hfound
    exact h i other found hother hfound
  · -- the pin whose candidates were discovered last
    have hpin : pins[discovered.length]? = some pin := by
      have hdrop := congrArg (fun later => later[0]?) hpins
      simpa using hdrop
    obtain rfl : pin = other := Option.some.inj (hpin.symm.trans hother)
    obtain rfl : options = found := by simpa using hfound
    exact hoptions
  · rw [List.getElem?_eq_none (by simp; omega)] at hfound
    cases hfound

theorem ensures_searchFrom (hnodup : context.sources.Nodup) (rest : List RelaxablePin)
    (index : Nat) (discovered : List CandidateOptions) (hlength : discovered.length = index)
    (hpins : pins.drop index = rest) :
    Ensures (TriedAtEnd resolver context pins) (TriedAtEnd resolver context pins)
      (Settled resolver context pins discovered)
      (resolver.searchFrom context pins rest index discovered)
      fun _ => TriedAtEnd resolver context pins := by
  induction rest generalizing index discovered with
  | nil => exact ensures_pure fun s hs => hs.1.atEnd (Nat.zero_le _)
  | cons pin rest ih =>
      subst hlength
      have hsilent := settled_silent resolver context pins discovered
      unfold CompatibleResolver.searchFrom
      refine hsilent.keeps_guard.then fun _ _ => ?_
      refine Ensures.bind (hsilent.discoverCandidates_justified pin) ?_
      rintro ⟨alternatives, incomplete⟩ s ⟨hsettled, hjustified⟩
      have hpin : pins[discovered.length]? = some pin := by
        have hdrop := congrArg (fun later => later[0]?) hpins
        simpa using hdrop
      have hafter : Settled resolver context pins (discovered ++ [alternatives]) s :=
        ⟨hsettled.1, hsettled.2.snoc hpins hjustified⟩
      have hstep : pins.drop (discovered.length + 1) = rest := by
        rw [← List.drop_drop, hpins]
        rfl
      refine Ensures.bind (ensures_attemptTuples hnodup _ fun versions hversions source =>
        substitutes_of_mem_frontierTuples hpin (by simp) hjustified.substitutes hversions)
        ?_ s hafter
      rintro (_ | result)
      · have hsilent := settled_silent resolver context pins (discovered ++ [alternatives])
        refine (Silent.keeps_remaining resolver).then fun left _ => ?_
        split
        · refine hsilent.keeps_setTruncated.then fun _ _ => ?_
          exact ensures_stop_bind hsilent.final
        · exact ih _ _ (by simp) hstep
      · exact ensures_pure fun s hs => hs.1.atEnd (Nat.zero_le _)

theorem ensures_search (hnodup : context.sources.Nodup) :
    Ensures (TriedAtEnd resolver context pins) (TriedAtEnd resolver context pins)
      (OriginalsTried context context.sources) (resolver.search context pins)
      fun _ => TriedAtEnd resolver context pins := by
  unfold CompatibleResolver.search
  refine Ensures.bind (ensures_originals _) ?_
  rintro (_ | result)
  · refine Ensures.bind ((ensures_searchFrom hnodup pins 0 [] rfl rfl).weaken
      (fun s hs => ⟨(hs.2 rfl).tried, fun i pin options _ => nofun⟩) fun _ _ hs => hs) ?_
    rintro (_ | result)
    · exact Ensures.bind (Q := fun _ => TriedAtEnd resolver context pins) (fun _ hs => hs)
        fun s => ensures_stop fun _ hs => hs
    · exact ensures_pure fun _ hs => hs
  · exact ensures_pure fun s hs => hs.1

theorem startState_originalsTried (world : σ) :
    OriginalsTried context context.sources (startState world) :=
  ⟨rfl, nofun, rfl⟩

end Frontier

end Invariant

section Resolve

open CompatibleResolver

variable (resolver : CompatibleResolver σ) (parsed : ParsedRequirements) (profile : TargetProfile)
  (sources : List PackageSource) (limits : ResolveLimits) (world : σ) {pins : List RelaxablePin}

/-- What `resolve` leaves behind, however it ends. -/
theorem resolve_tried (hpins : relaxablePins resolver.pk parsed = .ok pins) :
    ∃ context : SearchContext, context.parsed = parsed ∧ context.profile = profile ∧
      context.sources = sources ∧
      TriedAtEnd resolver context pins
        (resolver.resolve parsed profile sources limits world).2 := by
  refine ⟨⟨parsed, profile, sources, limits, (resolver.clock world).1⟩, rfl, rfl, rfl, ?_⟩
  generalize hcontext : (⟨parsed, profile, sources, limits, (resolver.clock world).1⟩ :
    SearchContext) = context
  have hstart : ∀ world : σ, TriedAtEnd resolver context pins (startState world) :=
    fun world => (startState_originalsTried world).atEnd
  unfold CompatibleResolver.resolve
  split
  · exact hstart world
  · next hsources =>
      have hnodup : context.sources.Nodup := by
        rw [← hcontext]
        exact not_not.1 (not_or.1 hsources).2
      have hsearch : Ensures _ _ _ (resolver.search context pins) _ := ensures_search hnodup
      have hend := hsearch (startState (resolver.clock world).2) (startState_originalsTried _)
      simp only [hpins, hcontext]
      split
      · next result s hrun =>
          rw [hrun] at hend
          exact hend
      · next code s hrun =>
          rw [hrun] at hend
          exact hend
      · next fault s hrun =>
          rw [hrun] at hend
          exact hend

/-- The strict resolver is asked for the original requirements once at each source, in order, until
one resolves them; when none does, it is asked for combinations of versions that are not the
original ones, none of them twice at one source. -/
theorem combinations_tried_once (hpins : relaxablePins resolver.pk parsed = .ok pins) :
    ∃ originals substituted combinations,
      strictCalls (resolver.resolve parsed profile sources limits world).2.events =
        originals ++ substituted ∧
      (∀ call ∈ originals, call.parsed = parsed) ∧
      originals.map StrictCall.source <+: sources ∧
      (substituted ≠ [] → originals.map StrictCall.source = sources) ∧
      List.Forall₂ (fun (c : Combination) (call : StrictCall) => call.source = c.2 ∧
        rebuildRequirements resolver.pk resolver.gbk parsed pins c.1 = .ok call.parsed)
        combinations substituted ∧
      combinations.Pairwise Differ ∧ ∀ c ∈ combinations, Substitutes pins c := by
  obtain ⟨context, rfl, -, rfl, hend⟩ :=
    resolve_tried resolver parsed profile sources limits world hpins
  rcases hend with ⟨rest, -, hparsed, hsources⟩ | ⟨pending, -, hdistinct, hsubstitutes, originals,
    combinations, calls, hcalls, hmarks, horiginals, hof⟩
  · -- the search ends before it substitutes
    exact ⟨_, [], [], (List.append_nil _).symm, hparsed, ⟨rest, hsources⟩,
      fun hne => absurd rfl hne, .nil, .nil, nofun⟩
  · rw [hmarks] at hdistinct hsubstitutes
    exact ⟨originals, calls, combinations, hcalls, horiginals.parsed,
      horiginals.sources ▸ List.prefix_refl _, fun _ => horiginals.sources,
      hof.imp fun _ _ hcall => ⟨hcall.source, hcall.rebuilt⟩,
      (List.pairwise_append.1 hdistinct).1,
      fun c hc => hsubstitutes c (List.mem_append_left _ hc)⟩

/-- Every strict call asks for the original requirements, or for a combination of versions each of
which is the original one of its pin or that of a release which the provider listed at the source of
the call and which passes every check there. -/
theorem substitutions_eligible (hpins : relaxablePins resolver.pk parsed = .ok pins) :
    ∀ call ∈ strictCalls (resolver.resolve parsed profile sources limits world).2.events,
      call.parsed = parsed ∨
        ∃ versions, rebuildRequirements resolver.pk resolver.gbk parsed pins versions =
          .ok call.parsed ∧
          ∀ (i : Nat) (pin : RelaxablePin) (version : Version), pins[i]? = some pin →
            versions[i]? = some version →
            version.Same pin.original ∨
              Eligible resolver profile pin
                (resolver.resolve parsed profile sources limits world).2.events call.source
                version := by
  obtain ⟨context, rfl, rfl, -, hend⟩ :=
    resolve_tried resolver parsed profile sources limits world hpins
  intro call hcall
  rcases hend with ⟨rest, -, hparsed, -⟩ | ⟨pending, -, -, -, originals, combinations, calls,
    hcalls, -, horiginals, hof⟩
  · exact .inl (hparsed call hcall)
  · rw [hcalls] at hcall
    rcases List.mem_append.1 hcall with horiginal | hsubstituted
    · exact .inl (horiginals.parsed call horiginal)
    · obtain ⟨i, hi, rfl⟩ := List.getElem_of_mem hsubstituted
      have hone := hof.get (hof.length_eq ▸ hi) hi
      exact .inr ⟨_, hone.rebuilt, hone.source ▸ hone.supported⟩

end Resolve

/-! ### A refused pin -/

theorem minorVersion_release (minor : Nat) : [1, minor] ≠ [] := nofun

def minorVersion (minor : Nat) : Version :=
  ⟨0, [1, minor], none, none, none, none, minorVersion_release minor⟩

/-- What packaging reads from the lines of `demo` with the versions `1.0` and `1.1`. -/
def minorPackaging : WheelPackaging where
  version text :=
    if text = "1.0" then some (minorVersion 0) else if text = "1.1" then some (minorVersion 1)
    else none
  requirement text :=
    if text = "demo==1.0" then .ok ⟨"demo", [], [⟨.equal, "1.0"⟩], none, none⟩
    else if text = "demo==1.1" then .ok ⟨"demo", [], [⟨.equal, "1.1"⟩], none, none⟩
    else .error .invalidRequirement
  marker _ := .error .invalidRequirement
  specifier text :=
    if text = "==1.0" then some ⟨.equal, "1.0"⟩
    else if text = "==1.1" then some ⟨.equal, "1.1"⟩ else none
  specifierSet text :=
    if text = "==1.0" then some [⟨.equal, "1.0"⟩]
    else if text = "==1.1" then some [⟨.equal, "1.1"⟩] else none
  contains specifier version :=
    (specifier = ⟨.equal, "1.0"⟩ && version.Same (minorVersion 0)) ||
      (specifier = ⟨.equal, "1.1"⟩ && version.Same (minorVersion 1))
  canonicalizeName name := name
  parseWheelFilename text :=
    if text = "demo-1.1-py3-none-any.whl" then
      some ("demo", minorVersion 1, [⟨"py3", "none", "any"⟩])
    else none
  repr text := text

/-- A strict resolver that refuses its first call, and a source that lists one later release. -/
def refusingOnce : CompatibleResolver Nat where
  pk := minorPackaging
  gbk _ := none
  clock calls := (0, calls)
  candidates _ _ _ calls :=
    (.iterator fun index => if index = 0 then
      .item (.candidate ⟨.value "1.1", .value false, none,
        .value [.value "demo-1.1-py3-none-any.whl"]⟩) else .finished, calls)
  strict _ _ _ calls :=
    (if calls = 0 then .refused "ResolverError" "no matching distribution"
      else .resolved (demoResult (minorVersion 1)), calls + 1)
  maxObservations := 2
  maxCombinations := 2
  observations_bounds := by decide
  combinations_bounds := by decide

def refusedParsed : ParsedRequirements :=
  parsedItems [⟨1, "demo", [], "==1.0", none, "demo==1.0"⟩]

def refusedPins : List RelaxablePin := [⟨0, "demo", minorVersion 0⟩]

def threeAttempts : ResolveLimits :=
  { demoLimits with
    maxResolutionAttempts := 3
    attempts_bounds := by decide }

/-- The events of the search for the refused pin. -/
def refusedEvents : List SearchEvent :=
  (refusingOnce.resolve refusedParsed linuxTarget [.pypi] threeAttempts 0).2.events

theorem refused_relaxablePins :
    relaxablePins refusingOnce.pk refusedParsed = .ok refusedPins := by decide +kernel

theorem refusedEvents_calls : (strictCalls refusedEvents).length = 2 := by decide +kernel

theorem combinations_tried_once_refused :
    (strictCalls refusedEvents).length = 2 ∧
      ∃ originals substituted combinations,
        strictCalls refusedEvents = originals ++ substituted ∧
        (∀ call ∈ originals, call.parsed = refusedParsed) ∧
        originals.map StrictCall.source <+: [.pypi] ∧
        (substituted ≠ [] → originals.map StrictCall.source = [.pypi]) ∧
        List.Forall₂ (fun (c : Combination) (call : StrictCall) => call.source = c.2 ∧
          rebuildRequirements refusingOnce.pk refusingOnce.gbk refusedParsed refusedPins c.1 =
            .ok call.parsed) combinations substituted ∧
        combinations.Pairwise Differ ∧ ∀ c ∈ combinations, Substitutes refusedPins c :=
  ⟨refusedEvents_calls, combinations_tried_once refusingOnce refusedParsed linuxTarget [.pypi]
    threeAttempts 0 refused_relaxablePins⟩

theorem substitutions_eligible_refused :
    (strictCalls refusedEvents).length = 2 ∧
      ∀ call ∈ strictCalls refusedEvents, call.parsed = refusedParsed ∨
        ∃ versions, rebuildRequirements refusingOnce.pk refusingOnce.gbk refusedParsed refusedPins
            versions = .ok call.parsed ∧
          ∀ (i : Nat) (pin : RelaxablePin) (version : Version), refusedPins[i]? = some pin →
            versions[i]? = some version →
            version.Same pin.original ∨
              Eligible refusingOnce linuxTarget pin refusedEvents call.source version :=
  ⟨refusedEvents_calls, substitutions_eligible refusingOnce refusedParsed linuxTarget [.pypi]
    threeAttempts 0 refused_relaxablePins⟩

end WheelForge.Resolver
