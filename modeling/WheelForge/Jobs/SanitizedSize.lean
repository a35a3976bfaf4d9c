import WheelForge.Jobs.Sanitizing

/-!
# The size of a sanitized text

Sanitizing may lengthen a text: the mask has three characters, and a secret may have one. But every
match that does so has a site of its own (`Site`), the position of the `@`, of the separator or of
the space before its secret, and each site follows three characters that are none. So the text grows
by half of its length at most, in every measure in which the characters of the mask are light
(`redact_cost`).
-/

set_option autoImplicit false

namespace WheelForge.Jobs

open WheelForge.Python

/-! ## Characters of words -/

/-- The characters of the words of the patterns. -/
def letterOrBar (c : Char) : Bool := ('a' ≤ c && c ≤ 'z') || c ∈ ['_', '-']

theorem letterOrBar_of_keyword {key : Text} (h : Keyword key) :
    ∀ c ∈ key, letterOrBar (foldCase c) = true := by
  obtain ⟨word, hword, hfold⟩ := h
  have hwords : ∀ word ∈ keyWords, word.toList.all letterOrBar = true := by decide +kernel
  have hall := List.all_eq_true.1 (hwords word hword)
  intro c hc
  apply hall
  rw [← hfold]
  exact List.mem_map_of_mem hc

theorem letterOrBar_of_bearer {bearer : Text} (h : bearer.map foldCase = "bearer".toList) :
    ∀ c ∈ bearer, letterOrBar (foldCase c) = true := by
  have hall : ∀ c ∈ "bearer".toList, letterOrBar c = true :=
    List.all_eq_true.1 (by decide +kernel)
  intro c hc
  apply hall
  rw [← h]
  exact List.mem_map_of_mem hc

/-- The words have three letters or more, and none ends as `bearer` does. -/
theorem keyword_reverse {key : Text} (h : Keyword key) :
    3 ≤ key.length ∧ ∃ c rest, key.reverse = c :: rest ∧ foldCase c ≠ 'r' := by
  obtain ⟨word, hword, hfold⟩ := h
  have hwords : ∀ word ∈ keyWords, 3 ≤ word.toList.length ∧
      word.toList.reverse.head? ≠ none ∧ word.toList.reverse.head? ≠ some 'r' := by decide +kernel
  obtain ⟨hlength, -, hlast⟩ := hwords word hword
  rw [← hfold, List.length_map] at hlength
  refine ⟨hlength, ?_⟩
  cases hkey : key.reverse with
  | nil =>
      have hzero : key.reverse.length = 0 := by rw [hkey, List.length_nil]
      rw [List.length_reverse] at hzero
      omega
  | cons c rest =>
      refine ⟨c, rest, rfl, ?_⟩
      rintro hr
      apply hlast
      rw [← hfold, ← List.map_reverse, hkey, List.map_cons, hr]
      rfl

theorem foldCase_of_space {c : Char} (h : isSpace c = true) : foldCase c = c := by
  have hc : ¬('A' ≤ c ∧ c ≤ 'Z') ∧ ¬(c.toNat = 0x130 ∨ c.toNat = 0x131) ∧ ¬c.toNat = 0x17f ∧
      ¬c.toNat = 0x212a := by
    simp only [isSpace, List.mem_cons, List.not_mem_nil, or_false, decide_eq_true_eq] at h
    have hA : 'A' ≤ c ↔ 65 ≤ c.toNat := Iff.rfl
    have hZ : c ≤ 'Z' ↔ c.toNat ≤ 90 := Iff.rfl
    rw [hA, hZ]
    omega
  unfold foldCase
  rw [if_neg hc.1, if_neg hc.2.1, if_neg hc.2.2.1, if_neg hc.2.2.2]

theorem not_space_of_letterOrBar {c : Char} (h : letterOrBar (foldCase c) = true) :
    isSpace c = false := by
  cases hspace : isSpace c with
  | false => rfl
  | true =>
      rw [foldCase_of_space hspace] at h
      simp only [letterOrBar, isSpace, List.mem_cons, List.not_mem_nil, or_false,
        decide_eq_true_eq, Bool.or_eq_true, Bool.and_eq_true] at h hspace
      have ha : 'a' ≤ c ↔ 97 ≤ c.toNat := Iff.rfl
      have hz : c ≤ 'z' ↔ c.toNat ≤ 122 := Iff.rfl
      rw [ha, hz] at h
      rcases h with h | rfl | rfl
      · omega
      · revert hspace
        decide
      · revert hspace
        decide

theorem not_mem_of_letterOrBar {c : Char} (h : letterOrBar (foldCase c) = true) :
    c ∉ ['@', ':', '=', '/', '*'] := by
  intro hc
  simp only [List.mem_cons, List.not_mem_nil, or_false] at hc
  rcases hc with rfl | rfl | rfl | rfl | rfl <;> revert h <;> decide

/-! ## The sites -/

/-- The `@` after a short secret of `_URL_USERINFO`. -/
def userinfoSite : Site Char := fun before c _ =>
  c = '@' ∧ ∃ userinfo more : Text, before = userinfo ++ '/' :: '/' :: more ∧
    userinfo ≠ [] ∧ userinfo.length ≤ 2 ∧ ∀ x ∈ userinfo, userinfoChar x = true

/-- The separator after a word of `_QUERY_SECRET` or `_KEY_VALUE_SECRET`. -/
def keySite : Site Char := fun before c _ =>
  c ∈ [':', '='] ∧ ∃ spaces key more : Text, before = spaces ++ (key.reverse ++ more) ∧
    (∀ x ∈ spaces, isSpace x = true) ∧ Keyword key

/-- A separator that no mask follows. -/
def openKeySite : Site Char := fun before c after => keySite before c after ∧ ¬mask <+: after

/-- The space after `Bearer`. -/
def bearerSite : Site Char := fun before c _ =>
  isSpace c = true ∧ ∃ bearer more : Text, before = bearer.reverse ++ more ∧
    bearer.map foldCase = "bearer".toList

/-- The sites before the given pattern is replaced: those at which it, or a later one, may lengthen
the text. -/
def siteBefore : Fin 4 → Site Char
  | 0 => fun before c after =>
      userinfoSite before c after ∨ keySite before c after ∨ bearerSite before c after
  | 1 => fun before c after => keySite before c after ∨ bearerSite before c after
  | 2 => fun before c after => openKeySite before c after ∨ bearerSite before c after
  | 3 => bearerSite

/-- The characters at the end of a replacement. -/
def Blank (c : Char) : Prop := c = '*' ∨ c = '@'

theorem not_blank_of_letterOrBar {c : Char} (h : letterOrBar (foldCase c) = true) : ¬Blank c := by
  have hnot := not_mem_of_letterOrBar h
  rintro (rfl | rfl) <;> simp at hnot

theorem not_blank_of_space {c : Char} (h : isSpace c = true) : ¬Blank c := by
  rintro (rfl | rfl) <;> revert h <;> decide

/-- A separator sees its word and no further. -/
theorem keySite_seen : SeenBy Blank keySite keySite := by
  rintro before before' c after after' hsees ⟨hc, spaces, key, more, hbefore, hspaces, hkey⟩
  rw [← List.append_assoc] at hbefore
  have hclear : ∀ x ∈ spaces ++ key.reverse, ¬Blank x := by
    intro x hx
    rcases List.mem_append.1 hx with hx | hx
    · exact not_blank_of_space (hspaces x hx)
    · exact not_blank_of_letterOrBar (letterOrBar_of_keyword hkey x (List.mem_reverse.1 hx))
  obtain ⟨more', hmore⟩ := hsees.exists_append hbefore hclear
  rw [List.append_assoc] at hmore
  exact ⟨hc, spaces, key, more', hmore, hspaces, hkey⟩

theorem bearerSite_seen : SeenBy Blank bearerSite bearerSite := by
  rintro before before' c after after' hsees ⟨hc, bearer, more, hbefore, hbearer⟩
  have hclear : ∀ x ∈ bearer.reverse, ¬Blank x := by
    intro x hx
    exact not_blank_of_letterOrBar (letterOrBar_of_bearer hbearer x (List.mem_reverse.1 hx))
  obtain ⟨more', hmore⟩ := hsees.exists_append hbefore hclear
  exact ⟨hc, bearer, more', hmore, hbearer⟩

/-! ## The gaps between the sites -/

/-- A character that is no site, whatever is around it. -/
theorem not_site_of_plain {c : Char} (hc : c ∉ ['@', ':', '=']) (hspace : isSpace c = false)
    (before after : Text) : ¬siteBefore 0 before c after := by
  simp only [List.mem_cons, List.not_mem_nil, or_false, not_or] at hc
  rintro (⟨h, -⟩ | ⟨h, -⟩ | ⟨h, -⟩)
  · exact hc.1 h
  · simp only [List.mem_cons, List.not_mem_nil, or_false] at h
    rcases h with h | h
    · exact hc.2.1 h
    · exact hc.2.2 h
  · rw [hspace] at h
    cases h

theorem not_site_of_letterOrBar {c : Char} (h : letterOrBar (foldCase c) = true)
    (before after : Text) : ¬siteBefore 0 before c after := by
  apply not_site_of_plain
  · have hnot := not_mem_of_letterOrBar h
    simp at hnot ⊢
    tauto
  · exact not_space_of_letterOrBar h

/-- A word is a gap. -/
theorem keyword_quiet {key : Text} (hkey : ∀ c ∈ key, letterOrBar (foldCase c) = true)
    (more : Text) : key.length ≤ quiet (siteBefore 0) (key.reverse ++ more) := by
  have hquiet : key.reverse.length ≤ quiet (siteBefore 0) (key.reverse ++ more) :=
    length_le_quiet (fun c hc => not_site_of_letterOrBar (hkey c (List.mem_reverse.1 hc))) more
  rwa [List.length_reverse] at hquiet

/-- A space after a word, or after other spaces, is no site. -/
theorem not_site_of_space {c : Char} (hc : isSpace c = true) {before : Text}
    (hbefore : ∃ d rest, before = d :: rest ∧ foldCase d ≠ 'r') (after : Text) :
    ¬siteBefore 0 before c after := by
  rintro (⟨rfl, -⟩ | ⟨h, -⟩ | ⟨-, bearer, more, hbearer, hfold⟩)
  · revert hc
    decide
  · simp only [List.mem_cons, List.not_mem_nil, or_false] at h
    rcases h with rfl | rfl <;> revert hc <;> decide
  · obtain ⟨d, rest, rfl, hd⟩ := hbefore
    have hreverse : bearer.reverse.map foldCase = ['r', 'e', 'r', 'a', 'e', 'b'] := by
      rw [List.map_reverse, hfold]
      rfl
    cases hrev : bearer.reverse with
    | nil =>
        rw [hrev] at hreverse
        cases hreverse
    | cons e tail =>
        rw [hrev] at hreverse hbearer
        cases hbearer
        exact hd (List.cons.inj hreverse).1

theorem foldCase_space_ne {c : Char} (h : isSpace c = true) : foldCase c ≠ 'r' := by
  rw [foldCase_of_space h]
  rintro rfl
  revert h
  decide

/-- Spaces after a word only lengthen the gap. -/
theorem spaces_quiet {spaces key : Text} (hspaces : ∀ c ∈ spaces, isSpace c = true)
    (hkey : Keyword key) (more : Text) :
    3 ≤ quiet (siteBefore 0) (spaces ++ (key.reverse ++ more)) := by
  obtain ⟨hlength, d, rest, hreverse, hd⟩ := keyword_reverse hkey
  induction spaces with
  | nil => exact hlength.trans (keyword_quiet (letterOrBar_of_keyword hkey) more)
  | cons c spaces ih =>
      obtain ⟨hc, hspaces⟩ := List.forall_mem_cons.1 hspaces
      have hnot : ∀ after, ¬siteBefore 0 (spaces ++ (key.reverse ++ more)) c after := by
        apply not_site_of_space hc
        cases spaces with
        | nil =>
            rw [hreverse]
            exact ⟨d, rest ++ more, rfl, hd⟩
        | cons e spaces =>
            exact ⟨e, _, rfl, foldCase_space_ne (hspaces e List.mem_cons_self)⟩
      rw [List.cons_append, quiet_cons_of_not hnot]
      exact (ih hspaces).trans (Nat.le_succ _)

/-- No word ends right after a slash, or one character later. -/
theorem not_keySite_of_slash {before more : Text} {c : Char} {after : Text}
    (h : before = '/' :: more ∨ ∃ d, before = d :: '/' :: more) :
    ¬keySite before c after := by
  rintro ⟨-, spaces, key, rest, hbefore, hspaces, hkey⟩
  have hnoslash : ∀ x ∈ spaces ++ key.reverse, x ≠ '/' := by
    intro x hx
    rcases List.mem_append.1 hx with hx | hx
    · rintro rfl
      have := hspaces _ hx
      revert this
      decide
    · rintro rfl
      exact not_mem_of_letterOrBar (letterOrBar_of_keyword hkey _ (List.mem_reverse.1 hx)) (by simp)
  have hlength : 2 ≤ (spaces ++ key.reverse).length := by
    have := (keyword_reverse hkey).1
    rw [List.length_append, List.length_reverse]
    omega
  rw [← List.append_assoc] at hbefore
  obtain ⟨x, y, tail, htail⟩ : ∃ x y tail, spaces ++ key.reverse = x :: y :: tail := by
    match hsplit : spaces ++ key.reverse with
    | [] | [_] =>
        rw [hsplit] at hlength
        simp at hlength
    | x :: y :: tail => exact ⟨x, y, tail, rfl⟩
  rw [htail] at hbefore hnoslash
  rcases h with rfl | ⟨d, rfl⟩
  · cases hbefore
    exact hnoslash '/' (by simp) rfl
  · cases hbefore
    exact hnoslash '/' (by simp) rfl

theorem userinfoChar_plain {c : Char} (h : userinfoChar c = true) :
    c ≠ '@' ∧ isSpace c = false := by
  simp only [userinfoChar, List.mem_cons, List.not_mem_nil, or_false, Bool.not_eq_true',
    Bool.or_eq_false_iff, decide_eq_false_iff_not, not_or] at h
  exact ⟨h.2.2.2.2, h.1⟩

/-- A character of a short secret is no site. -/
theorem not_site_of_userinfo {c : Char} (h : userinfoChar c = true) {before more : Text}
    (hbefore : before = '/' :: more ∨ ∃ d, before = d :: '/' :: more) (after : Text) :
    ¬siteBefore 0 before c after := by
  obtain ⟨hat, hspace⟩ := userinfoChar_plain h
  rintro (⟨h, -⟩ | hkey | ⟨h, -⟩)
  · exact hat h
  · exact not_keySite_of_slash hbefore hkey
  · rw [hspace] at h
    cases h

theorem slashes_quiet (more : Text) : 2 ≤ quiet (siteBefore 0) ('/' :: '/' :: more) := by
  change ['/', '/'].length ≤ quiet (siteBefore 0) (['/', '/'] ++ more)
  apply length_le_quiet
  intro c hc
  have hc : c = '/' := by simpa using hc
  subst hc
  exact not_site_of_plain (by decide) (by decide)

/-- Every site follows three characters that are no sites. -/
theorem site_quiet {before after : Text} {c : Char} (h : siteBefore 0 before c after) :
    3 ≤ quiet (siteBefore 0) before := by
  rcases h with ⟨-, userinfo, more, rfl, hne, hlength, hall⟩ | ⟨-, spaces, key, more, rfl, hspaces,
    hkey⟩ | ⟨-, bearer, more, rfl, hbearer⟩
  · have hslashes := slashes_quiet more
    match userinfo with
    | [] => exact absurd rfl hne
    | [x] =>
        have hx : ∀ after, ¬siteBefore 0 ('/' :: '/' :: more) x after :=
          not_site_of_userinfo (hall x (by simp)) (.inl rfl)
        rw [List.cons_append, List.nil_append, quiet_cons_of_not hx]
        omega
    | [x, y] =>
        have hx : ∀ after, ¬siteBefore 0 (y :: '/' :: '/' :: more) x after :=
          not_site_of_userinfo (hall x (by simp)) (.inr ⟨y, rfl⟩)
        have hy : ∀ after, ¬siteBefore 0 ('/' :: '/' :: more) y after :=
          not_site_of_userinfo (hall y (by simp)) (.inl rfl)
        rw [List.cons_append, List.cons_append, List.nil_append, quiet_cons_of_not hx,
          quiet_cons_of_not hy]
        omega
    | _ :: _ :: _ :: _ =>
        simp only [List.length_cons] at hlength
        omega
  · exact spaces_quiet hspaces hkey more
  · have hsix : bearer.length = 6 := by
      have := congrArg List.length hbearer
      rwa [List.length_map] at this
    have := keyword_quiet (letterOrBar_of_bearer hbearer) more
    omega

/-! ## The patterns pay -/

section Weight

variable {weight : Char → Nat} {alnum : Char → Bool}

/-- A measure of texts in which the characters of the mask are as light as any. -/
structure LightMask (weight : Char → Nat) : Prop where
  pos : ∀ c, 1 ≤ weight c
  light : ∀ c ∈ ['*', ':', '=', ' '], weight c = 1

theorem LightMask.mask (h : LightMask weight) : cost weight mask = 3 := by
  have hstar := h.light '*' (by decide)
  simp [Jobs.mask, hstar]

theorem LightMask.pos_of_ne_nil (h : LightMask weight) {text : Text} (hne : text ≠ []) :
    1 ≤ cost weight text := by
  have hlength := List.length_pos_iff.2 hne
  exact hlength.trans_le (length_le_cost weight h.pos text)

theorem siteCount_singleton {site : Site Char} {before after : Text} {c : Char}
    (h : site before c after) : siteCount site before [c] after = 1 :=
  siteCount_cons_of_site h

/-- A secret of one or two characters is followed by a site. -/
theorem userinfo_cost (h : LightMask weight) {userinfo before more after : Text}
    (hne : userinfo ≠ []) (hall : ∀ c ∈ userinfo, userinfoChar c = true)
    (hbefore : before = userinfo.reverse ++ '/' :: '/' :: more) :
    3 ≤ cost weight userinfo + 2 * siteCount (siteBefore 0) before ['@'] after := by
  by_cases hlength : userinfo.length ≤ 2
  · have hsite : siteBefore 0 before '@' after := by
      refine .inl ⟨rfl, userinfo.reverse, more, hbefore, by simpa using hne, by simpa using hlength,
        ?_⟩
      intro x hx
      exact hall x (List.mem_reverse.1 hx)
    have hpos := h.pos_of_ne_nil hne
    rw [siteCount_singleton hsite]
    omega
  · have hcost := length_le_cost weight h.pos userinfo
    omega

theorem urlUserinfo_seen : SeenBy Blank (siteBefore 0) (siteBefore 1) := by
  rintro before before' c after after' hsees (hs | hs)
  · exact .inr (.inl (keySite_seen _ _ _ _ _ hsees hs))
  · exact .inr (.inr (bearerSite_seen _ _ _ _ _ hsees hs))

theorem mask_not_site : ∀ c ∈ mask ++ ['@'], ∀ before after, ¬siteBefore 1 before c after := by
  intro c hc before after
  have hc : c = '*' ∨ c = '@' := by simpa [mask] using hc
  rintro (⟨h, -⟩ | ⟨h, -⟩) <;> rcases hc with rfl | rfl <;> revert h <;> decide

theorem urlUserinfo_pays (h : LightMask weight) :
    Pays (urlUserinfo alnum) weight 2 Blank (siteBefore 0) (siteBefore 1) where
  seen := urlUserinfo_seen
  pays := by
    intro before before' text m hsees hfind after'
    obtain ⟨scheme, userinfo, hne, hall, hmatched, hreplacement⟩ :=
      (findUserinfo_eq_some hfind).parts
    have hbefore : userinfo.reverse ++ ((scheme ++ [':', '/', '/']).reverse ++ before) =
        userinfo.reverse ++ '/' :: '/' :: ':' :: (scheme.reverse ++ before) := by simp
    have hat : 3 ≤ _ + 2 * siteCount (siteBefore 0) _ ['@'] m.rest :=
      userinfo_cost h hne hall hbefore
    rw [hmatched, hreplacement]
    generalize scheme ++ [':', '/', '/'] = kept at hat
    have hkept := siteCount_le urlUserinfo_seen hsees kept (userinfo ++ ['@'] ++ m.rest)
      (mask ++ ['@'] ++ after')
    have hzero := siteCount_eq_zero mask_not_site (kept.reverse ++ before') after'
    have hmask := h.mask
    rw [siteCount_append _ _ kept, siteCount_append _ _ kept, siteCount_append _ _ userinfo, hzero]
    simp only [cost_append]
    omega
  hides := by
    intro previous text m hfind
    obtain ⟨scheme, userinfo, -, -, -, hreplacement⟩ := (findUserinfo_eq_some hfind).parts
    exact ⟨scheme ++ [':', '/', '/'] ++ mask, '@', by rw [hreplacement, ← List.append_assoc],
      .inr rfl⟩

/-- A text of a separator and a mask has no site once queries are replaced. -/
theorem masked_not_site (before after : Text) :
    siteCount (siteBefore 2) before ('=' :: mask) after = 0 := by
  have hequals : ¬siteBefore 2 before '=' (mask ++ after) := by
    rintro (⟨-, hopen⟩ | ⟨h, -⟩)
    · exact hopen (List.prefix_append _ _)
    · revert h
      decide
  have hstar : ∀ c ∈ mask, ∀ before after, ¬siteBefore 2 before c after := by
    intro c hc before after
    have hc : c = '*' := by simpa [mask] using hc
    rintro (⟨⟨h, -⟩, -⟩ | ⟨h, -⟩) <;> subst hc <;> revert h <;> decide
  rw [siteCount_cons_of_not hequals, siteCount_eq_zero hstar]

theorem keySite_of_keyword {key before after : Text} {c : Char} (hkey : Keyword key)
    (hc : c ∈ [':', '=']) {gap : Text} (hgap : ∀ x ∈ gap, isSpace x = true) :
    keySite (gap.reverse ++ (key.reverse ++ before)) c after :=
  ⟨hc, gap.reverse, key, before, rfl, fun x hx => hgap x (List.mem_reverse.1 hx), hkey⟩

theorem querySecret_seen : SeenBy Blank (siteBefore 1) (siteBefore 2) := by
  rintro before before' c after after' hsees (⟨hs, -⟩ | hs)
  · exact .inl (keySite_seen _ _ _ _ _ hsees hs)
  · exact .inr (bearerSite_seen _ _ _ _ _ hsees hs)

theorem querySecret_pays (h : LightMask weight) :
    Pays querySecret weight 2 Blank (siteBefore 1) (siteBefore 2) where
  seen := querySecret_seen
  pays := by
    intro before before' text m hsees hfind after'
    obtain ⟨c, key, secret, -, hkey, hne, hmatched, hreplacement⟩ :=
      (findQuerySecret_eq_some hfind).parts
    have hkept := siteCount_le querySecret_seen hsees (c :: key) ('=' :: secret ++ m.rest)
      ('=' :: mask ++ after')
    have hsite : siteBefore 1 ((c :: key).reverse ++ before) '=' (secret ++ m.rest) := by
      refine .inl ?_
      have hsite : keySite ([].reverse ++ (key.reverse ++ c :: before)) '=' (secret ++ m.rest) :=
        keySite_of_keyword hkey (by decide) (by simp)
      simpa using hsite
    have hsecret := h.pos_of_ne_nil hne
    have hmask := h.mask
    rw [hmatched, hreplacement, siteCount_append _ _ (c :: key), siteCount_append _ _ (c :: key),
      masked_not_site, siteCount_cons_of_site hsite]
    simp only [cost_append, cost_cons]
    omega
  hides := by
    intro previous text m hfind
    obtain ⟨c, key, secret, -, -, -, -, hreplacement⟩ := (findQuerySecret_eq_some hfind).parts
    exact ⟨c :: key ++ ['=', '*', '*'], '*', by rw [hreplacement]; simp [mask], .inl rfl⟩

theorem keyValueSecret_seen : SeenBy Blank (siteBefore 2) (siteBefore 3) := by
  intro before before' c after after' hsees hs
  exact .inr (bearerSite_seen before before' c after after' hsees hs)

/-- The separator of a match is a site, or its value is not shorter than the mask. -/
theorem separator_cost (h : LightMask weight) {before value gap' rest : Text} {separator : Char}
    (hsite : ∀ after, keySite before separator after) (hne : value ≠ [])
    (hvalue : mask <+: gap' ++ (value ++ rest) → mask <+: value) :
    3 ≤ cost weight value + 2 * siteCount (siteBefore 2) before (separator :: (gap' ++ value))
      rest := by
  by_cases hmask : mask <+: gap' ++ (value ++ rest)
  · obtain ⟨more, rfl⟩ := hvalue hmask
    have hcost := h.mask
    rw [cost_append]
    omega
  · have hopen : siteBefore 2 before separator (gap' ++ value ++ rest) := by
      refine .inl ⟨hsite _, ?_⟩
      rwa [List.append_assoc]
    have hpos := h.pos_of_ne_nil hne
    rw [siteCount_cons_of_site hopen]
    omega

theorem keyValueSecret_pays (h : LightMask weight) :
    Pays (keyValueSecret alnum) weight 2 Blank (siteBefore 2) (siteBefore 3) where
  seen := keyValueSecret_seen
  pays := by
    intro before before' text m hsees hfind after'
    obtain ⟨key, gap, separator, gap', value, hkey, hgap, hseparator, hne, hvalue, hmatched,
      hreplacement⟩ := (findKeyValueSecret_eq_some hfind).parts
    have hkept := siteCount_le keyValueSecret_seen hsees key
      (gap ++ separator :: (gap' ++ value) ++ m.rest) ('=' :: mask ++ after')
    have hzero : siteCount (siteBefore 3) (key.reverse ++ before') ('=' :: mask) after' = 0 := by
      have hle := siteCount_le keyValueSecret_seen (Sees.refl Blank (key.reverse ++ before'))
        ('=' :: mask) after' after'
      rw [masked_not_site] at hle
      exact Nat.le_zero.1 hle
    have hsite : ∀ after, keySite (gap.reverse ++ (key.reverse ++ before)) separator after :=
      fun after => keySite_of_keyword hkey hseparator hgap
    have hsep := separator_cost h hsite hne hvalue
    have hmask := h.mask
    have hlight : weight '=' = 1 := h.light '=' (by decide)
    have hsepPos := h.pos separator
    rw [hmatched, hreplacement, siteCount_append _ _ key, siteCount_append _ _ key,
      siteCount_append _ _ gap, hzero]
    simp only [cost_append, cost_cons]
    omega
  hides := by
    intro previous text m hfind
    obtain ⟨key, gap, separator, gap', value, -, -, -, -, -, -, hreplacement⟩ :=
      (findKeyValueSecret_eq_some hfind).parts
    exact ⟨key ++ ['=', '*', '*'], '*', by rw [hreplacement]; simp [mask], .inl rfl⟩

theorem bearerSecret_pays (h : LightMask weight) :
    Pays (bearerSecret alnum) weight 2 Blank (siteBefore 3) fun _ _ _ => False where
  seen := by
    rintro before before' c after after' - ⟨⟩
  pays := by
    intro before before' text m hsees hfind after'
    obtain ⟨bearer, space, secret, hbearer, hspace, hne, hmatched, hreplacement⟩ :=
      (findBearerSecret_eq_some hfind).parts
    have hsite : siteBefore 3 (bearer.reverse ++ before) space (secret ++ m.rest) :=
      ⟨hspace, bearer, before, rfl, hbearer⟩
    have hnone : siteCount (fun _ _ _ => False) before' m.replacement after' = 0 :=
      siteCount_eq_zero (by simp) before' after'
    have hsecret := h.pos_of_ne_nil hne
    have hmask := h.mask
    have hlight : weight ' ' = 1 := h.light ' ' (by decide)
    have hspacePos := h.pos space
    rw [hnone, hmatched, hreplacement, siteCount_append _ _ bearer, siteCount_cons_of_site hsite]
    simp only [cost_append, cost_cons]
    omega
  hides := by
    intro previous text m hfind
    obtain ⟨bearer, space, secret, -, -, -, -, hreplacement⟩ :=
      (findBearerSecret_eq_some hfind).parts
    exact ⟨bearer ++ [' ', '*', '*'], '*', by rw [hreplacement]; simp [mask], .inl rfl⟩

/-- Redacting a text lengthens it by half at most. -/
theorem redact_cost (h : LightMask weight) (hnul : weight '?' ≤ weight '\x00') (text : Text) :
    2 * cost weight (redact alnum text) ≤ 3 * cost weight text := by
  have hreplaced : cost weight (replaceNul text) ≤ cost weight text := by
    induction text with
    | nil => exact le_rfl
    | cons c text ih =>
        have hc : weight (if c = '\x00' then '?' else c) ≤ weight c := by
          split
          · next hc =>
              rw [hc]
              exact hnul
          · exact le_rfl
        rw [replaceNul, List.map_cons, cost_cons, cost_cons]
        exact Nat.add_le_add hc ih
  have hlength := length_le_cost weight h.pos (replaceNul text)
  have hsites := siteCount_mul_le (fun hs => site_quiet hs) (replaceNul text) []
  have huserinfo := (@urlUserinfo_pays weight alnum h).sub (replaceNul text)
  have hquery := (querySecret_pays h).sub ((urlUserinfo alnum).sub (replaceNul text))
  have hkey := (@keyValueSecret_pays weight alnum h).sub
    (querySecret.sub ((urlUserinfo alnum).sub (replaceNul text)))
  have hbearer := (@bearerSecret_pays weight alnum h).sub
    ((keyValueSecret alnum).sub (querySecret.sub ((urlUserinfo alnum).sub (replaceNul text))))
  unfold redact
  omega

end Weight

end WheelForge.Jobs
