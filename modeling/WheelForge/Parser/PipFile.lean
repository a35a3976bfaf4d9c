import WheelForge.Parser.Merging

/-!
# How pip reads a requirements file

The preprocessing of pip (lines, continuation by a backslash, comments, environment variables, and
the options that end the arguments of a line), and what pip takes for a URL, a path or an archive
when it reads the arguments as a requirement (`PlainRequirement`).

`preprocess_of_passes` says which lines come out as they are. The extension that pip sees is decided
behind the last character that is not part of it (`archiveExtension_append`).
-/

set_option autoImplicit false

namespace WheelForge.Parser

open WheelForge.Python
open WheelForge.Pep440

/-! ## Preprocessing -/

/-- `join_lines` with the parts of the line that is being continued. -/
def joinContinued : List Text → List Text → List Text
  | [], [] => []
  | parts, [] => [parts.flatten]
  | parts, line :: rest =>
      if line.getLast? ≠ some '\\' ∨ commentAtStart line then
        let line := if commentAtStart line then ' ' :: line else line
        (parts ++ [line]).flatten :: joinContinued [] rest
      else joinContinued (parts ++ [stripBackslashes line]) rest
where
  /-- `COMMENT_RE.match(line)`. -/
  commentAtStart (line : Text) : Bool :=
    match line.dropWhile isSpace with
    | '#' :: rest => restOfLine rest
    | _ => false
  /-- `line.strip("\\")`. -/
  stripBackslashes (line : Text) : Text := (line.dropWhile (· = '\\')).rdropWhile (· = '\\')

/-- `COMMENT_RE.sub("", line).strip()`. -/
def ignoreComment (line : Text) : Text :=
  strip (match pipFileComment line with
    | some index => rstrip (line.take index)
    | none => line)

/-- `expand_env_variables` on one line. -/
def expandVariables (getenv : Text → Option Text) (line : Text) : Text :=
  (environmentVariables line).foldl (fun line name =>
    match getenv name with
    | none | some [] => line
    | some value => replace ("$\x7b".toList ++ name ++ "\x7d".toList) value line) line

/-- `preprocess(content)`. -/
def preprocess (getenv : Text → Option Text) (content : Text) : List Text :=
  (((joinContinued [] (splitLines content)).map ignoreComment).filter (· ≠ [])).map
    (expandVariables getenv)

/-- `break_args_options(line)`: the arguments and the options of a line. -/
def breakArgsOptions (line : Text) : Text × Text :=
  let tokens := line.splitOn ' '
  let args := tokens.takeWhile fun token => token.head? ≠ some '-'
  ([' '].intercalate args, [' '].intercalate (tokens.drop args.length))

/-! ## Requirements -/

/-- `lower()`, as far as schemes and extensions can tell: beyond ASCII it yields only a `k` and an `i`
with a combining dot. -/
def lower (text : Text) : Text := text.map Char.toLower

/-- `scheme_chars` of `urllib.parse`. -/
def schemeChar (c : Char) : Bool :=
  ('a' ≤ c && c ≤ 'z') || ('A' ≤ c && c ≤ 'Z') || ('0' ≤ c && c ≤ '9') || c ∈ ['+', '-', '.']

/-- `urlsplit(text).scheme`. -/
def urlScheme (text : Text) : Text :=
  let url := (text.dropWhile fun c => c.toNat ≤ 0x20).filter fun c => c ∉ ['\t', '\r', '\n']
  let scheme := url.takeWhile (· ≠ ':')
  if ':' ∈ url ∧ scheme ≠ [] ∧ (scheme.head?.any Char.isAlpha) ∧ scheme.all schemeChar then lower scheme
  else []

/-- The schemes of URLs and of version control systems. -/
def urlSchemes : List Text :=
  ["http", "https", "file", "ftp", "bzr+http", "bzr+https", "bzr+ssh", "bzr+sftp", "bzr+ftp",
    "bzr+lp", "bzr+file", "git+http", "git+https", "git+ssh", "git+git", "git+file", "hg+file",
    "hg+http", "hg+https", "hg+ssh", "hg+static-http", "svn+ssh", "svn+http", "svn+https",
    "svn+svn", "svn+file"].map String.toList

/-- `is_url`. -/
def isUrl (args : Text) : Bool := urlScheme args ∈ urlSchemes

/-- The text before the marker, of arguments that are no URL. -/
def requirementName (args : Text) : Text := strip (args.takeWhile (· ≠ ';'))

/-- `_looks_like_path`. -/
def looksLikePath (name : Text) : Bool := '/' ∈ name || name.head? = some '.'

/-- Extras in brackets: `\[[^\]]+\]`. -/
def isExtras (text : Text) : Bool :=
  text.head? = some '[' && text.getLast? = some ']' && 2 < text.length &&
    ']' ∉ text.tail.dropLast

/-- The path of `_strip_extras`, which matches `^(.+)(\[[^\]]+\])$` greedily. -/
def stripExtras (path : Text) : Text :=
  let bracket := (List.range path.length).reverse.find? fun i =>
    0 < i && '\n' ∉ path.take i && isExtras (path.drop i)
  match bracket with
  | some i => path.take i
  | none => path

/-- `posixpath.splitext`, of a name without a slash. -/
def splitExtension (name : Text) : Text × Text :=
  let stem := (name.rdropWhile (· ≠ '.')).dropLast
  if stem.all (· = '.') then (name, []) else (stem, name.drop stem.length)

/-- The extension of `splitext`, which takes off `.tar` too. -/
def archiveExtension (name : Text) : Text :=
  let base := (splitExtension name).1
  let ext := (splitExtension name).2
  if ".tar".toList <:+ lower base then base.drop (base.length - 4) ++ ext else ext

/-- `ARCHIVE_EXTENSIONS`. -/
def archiveExtensions : List Text :=
  [".zip", ".whl", ".tar.bz2", ".tbz", ".tar.gz", ".tgz", ".tar", ".tar.xz", ".txz", ".tlz",
    ".tar.lz", ".tar.lzma"].map String.toList

/-- `is_archive_file`. -/
def isArchiveFile (name : Text) : Bool := lower (archiveExtension name) ∈ archiveExtensions

/-- pip takes the arguments of a line for a name with clauses and a marker: they are no URL, and
before the marker there is neither a path nor an archive nor the `@` of a direct reference. The
directory that pip puts in front of a name that is no path has no part in its extension. -/
structure PlainRequirement (args : Text) : Prop where
  url : isUrl args = false
  path : looksLikePath (requirementName args) = false
  archive : isArchiveFile (stripExtras (requirementName args)) = false
  reference : '@' ∉ requirementName args

example : isArchiveFile "demo==1.0+a.tar".toList = true := by decide

-- `.tar` is taken off before `.zip` too, and there is no such archive
example : isArchiveFile "demo==1.0+a.tar.zip".toList = false := by decide

/-! ### Extensions -/

section Extensions

variable {a b : Text}

theorem prefix_stripExtras (path : Text) : stripExtras path <+: path := by
  unfold stripExtras
  dsimp only
  split
  · exact List.take_prefix _ _
  · exact List.prefix_refl _

theorem stripExtras_of_last {path : Text} (h : path.getLast? ≠ some ']') :
    stripExtras path = path := by
  unfold stripExtras
  dsimp only
  split
  · next i hfind =>
      exfalso
      have hi := List.mem_of_find?_eq_some hfind
      have hlt : i < path.length := by simpa using hi
      have hfound := List.find?_some hfind
      simp only [isExtras, Bool.and_eq_true, decide_eq_true_eq] at hfound
      apply h
      rw [← hfound.2.1.1.2, List.getLast?_drop, if_neg (by omega)]
  · rfl

theorem splitExtension_of_notMem (h : '.' ∉ a) : splitExtension a = (a, []) := by
  have hdrop : a.rdropWhile (· ≠ '.') = [] := by
    rw [List.rdropWhile_eq_nil_iff]
    intro c hc
    exact decide_eq_true fun heq => h (heq ▸ hc)
  unfold splitExtension
  rw [hdrop]
  rfl

/-- The last dot begins the extension, when something else stands before it. -/
theorem splitExtension_append {stem : Text} (hdot : '.' ∉ b) {c : Char} (hc : c ∈ stem)
    (hne : c ≠ '.') : splitExtension (stem ++ '.' :: b) = (stem, '.' :: b) := by
  have hdrop : (stem ++ '.' :: b).rdropWhile (· ≠ '.') = stem ++ ['.'] := by
    rw [show stem ++ '.' :: b = (stem ++ ['.']) ++ b by simp]
    induction b using List.reverseRecOn with
    | nil => simp
    | append_singleton b d ih =>
        have hd : d ≠ '.' := fun heq => hdot (by simp [heq])
        have hb : '.' ∉ b := fun hmem => hdot (by simp [hmem])
        have hpos : decide (d ≠ '.') = true := decide_eq_true hd
        rw [← List.append_assoc, List.rdropWhile_concat_pos _ _ d hpos]
        exact ih hb
  have hall : stem.all (· = '.') = false := by
    rw [List.all_eq_false]
    exact ⟨c, hc, by simpa using hne⟩
  unfold splitExtension
  rw [hdrop, List.dropLast_concat]
  dsimp only
  rw [hall, List.drop_left]
  rfl

theorem toLower_eq_dot {c : Char} (h : c.toLower = '.') : c = '.' := by
  by_cases hupper : 'A' ≤ c ∧ c ≤ 'Z'
  · have hnat := toLower_toNat hupper
    have hge : 65 ≤ c.toNat := hupper.1
    rw [h] at hnat
    have hdot : '.'.toNat = 46 := by decide
    omega
  · have hval : ¬(c.val ≥ 'A'.val ∧ c.val ≤ 'Z'.val) := hupper
    unfold Char.toLower at h
    rwa [dif_neg hval] at h

theorem dot_notMem_lower (h : '.' ∉ a) : '.' ∉ lower a := by
  intro hmem
  obtain ⟨c, hc, hlower⟩ := List.mem_map.1 hmem
  exact h (toLower_eq_dot hlower ▸ hc)

theorem not_tar_of_notMem (h : '.' ∉ a) : ¬".tar".toList <:+ lower a :=
  fun hsuffix => dot_notMem_lower h (hsuffix.subset (by decide))

theorem archiveExtension_of_notMem (h : '.' ∉ a) : archiveExtension a = [] := by
  unfold archiveExtension
  rw [splitExtension_of_notMem h]
  dsimp only
  rw [if_neg (not_tar_of_notMem h)]

theorem isArchiveFile_of_notMem (h : '.' ∉ a) : isArchiveFile a = false := by
  unfold isArchiveFile
  rw [archiveExtension_of_notMem h]
  decide

/-- Text without a dot in front of a name has no part in its extension. -/
theorem archiveExtension_append (ha : '.' ∉ a) (hb : b.head? ≠ some '.') :
    archiveExtension (a ++ b) = archiveExtension b := by
  by_cases hdot : '.' ∈ b
  · -- the last dot of `b`
    obtain ⟨t, s, hb', ht⟩ := List.eq_append_cons_of_mem (List.mem_reverse.2 hdot)
    have hsplit : b = s.reverse ++ '.' :: t.reverse := by
      rw [← b.reverse_reverse, hb']
      simp
    have ht' : '.' ∉ t.reverse := fun hmem => ht (List.mem_reverse.1 hmem)
    generalize s.reverse = stem at hsplit
    generalize t.reverse = rest at hsplit ht'
    subst hsplit
    cases stem with
    | nil => exact absurd rfl hb
    | cons c cs =>
        have hc : c ≠ '.' := fun heq => hb (by simp [heq])
        have htar : ".tar".toList <:+ lower (a ++ c :: cs) ↔ ".tar".toList <:+ lower (c :: cs) := by
          have hlower : lower (a ++ c :: cs) = lower a ++ lower (c :: cs) := List.map_append
          rw [hlower]
          constructor
          · rintro ⟨u, hu⟩
            rcases List.append_eq_append_iff.1 hu with ⟨x, hx, htail⟩ | ⟨x, hx, htail⟩
            · cases x with
              | nil => exact ⟨[], htail⟩
              | cons d ds =>
                  -- the dot of `.tar` stands in the dotless text
                  obtain rfl : '.' = d := (List.cons.inj htail).1
                  exact absurd (by rw [hx]; simp) (dot_notMem_lower ha)
            · exact ⟨x, htail.symm⟩
          · exact fun hsuffix => hsuffix.trans (List.suffix_append _ _)
        unfold archiveExtension
        rw [← List.append_assoc, splitExtension_append ht' (c := c) (by simp) hc,
          splitExtension_append ht' (c := c) (by simp) hc]
        dsimp only
        by_cases hbase : ".tar".toList <:+ lower (c :: cs)
        · rw [if_pos hbase, if_pos (htar.2 hbase)]
          have hlength : 4 ≤ (c :: cs).length := by
            have := hbase.length_le
            simpa [lower] using this
          have hsub : (a ++ c :: cs).length - 4 = a.length + ((c :: cs).length - 4) := by
            rw [List.length_append]
            omega
          rw [hsub, List.drop_length_add_append]
        · rw [if_neg hbase, if_neg fun h => hbase (htar.1 h)]
  · have hab : '.' ∉ a ++ b := by
      intro hmem
      exact (List.mem_append.1 hmem).elim ha hdot
    rw [archiveExtension_of_notMem hab, archiveExtension_of_notMem hdot]

end Extensions

/-! ## Lines that pass unchanged -/

/-- A line of which no step of the preprocessing changes anything. -/
structure Passes (line : Text) : Prop where
  nonempty : line ≠ []
  oneLine : OneLine line
  trimmed : Trimmed line
  continued : line.getLast? ≠ some '\\'
  comment : pipFileComment line = none
  options : ∀ token ∈ line.splitOn ' ', token.head? ≠ some '-'
  environment : environmentVariables line = []

section Passing

variable {line : Text} {lines : List Text}

theorem commentAtStart_of_none (htrimmed : Trimmed line) (h : pipFileComment line = none) :
    joinContinued.commentAtStart line = false := by
  have hdrop : line.dropWhile isSpace = line := by
    cases line with
    | nil => rfl
    | cons c cs =>
        have hc := htrimmed.1 c rfl
        simp [hc]
  unfold joinContinued.commentAtStart
  rw [hdrop]
  split
  · next rest =>
      by_contra hrest
      have hrest : restOfLine rest = true := by simpa using hrest
      unfold pipFileComment commentFrom at h
      simp [hrest] at h
  · rfl

theorem joinContinued_of_passes (h : ∀ line ∈ lines, Passes line) :
    joinContinued [] lines = lines := by
  induction lines with
  | nil => rfl
  | cons line rest ih =>
      have hline := h line (by simp)
      have hcomment := commentAtStart_of_none hline.trimmed hline.comment
      unfold joinContinued
      rw [if_pos (.inl hline.continued), hcomment, ih fun l hl => h l (by simp [hl])]
      simp

theorem ignoreComment_of_passes (h : Passes line) : ignoreComment line = line := by
  unfold ignoreComment
  rw [h.comment]
  exact strip_of_trimmed h.trimmed

theorem expandVariables_of_passes (h : Passes line) (getenv : Text → Option Text) :
    expandVariables getenv line = line := by
  unfold expandVariables
  rw [h.environment]
  rfl

/-- Joined lines that pass come out of the preprocessing as they are. -/
theorem preprocess_of_passes (h : ∀ line ∈ lines, Passes line) (getenv : Text → Option Text) :
    preprocess getenv (joinLines lines) = lines := by
  unfold preprocess
  cases lines with
  | nil => rfl
  | cons first rest =>
      rw [splitLines_joinLines (by simp) fun l hl => (h l hl).oneLine, joinContinued_of_passes h]
      have hignore : (first :: rest).map ignoreComment = first :: rest := by
        have hid : (first :: rest).map ignoreComment = (first :: rest).map id :=
          List.map_congr_left fun l hl => ignoreComment_of_passes (h l hl)
        rw [hid, List.map_id]
      have hfilter : (first :: rest).filter (· ≠ []) = first :: rest := by
        rw [List.filter_eq_self]
        intro l hl
        exact decide_eq_true (h l hl).nonempty
      have hexpand : (first :: rest).map (expandVariables getenv) = (first :: rest).map id :=
        List.map_congr_left fun l hl => expandVariables_of_passes (h l hl) getenv
      rw [hignore, hfilter, hexpand, List.map_id]

/-- A line without option tokens is all arguments. -/
theorem breakArgsOptions_of_passes (h : Passes line) : breakArgsOptions line = (line, []) := by
  have hall : (line.splitOn ' ').takeWhile (fun token => token.head? ≠ some '-') =
      line.splitOn ' ' := by
    rw [List.takeWhile_eq_self_iff]
    intro token htoken
    exact decide_eq_true (h.options token htoken)
  unfold breakArgsOptions
  dsimp only
  rw [hall, List.intercalate_splitOn, List.drop_length]
  rfl

end Passing

/-! ## What comes out holds no line boundary -/

section OneLine

variable {line a b : Text}

theorem joinContinued_cons (parts : List Text) (line : Text) (rest : List Text) :
    joinContinued parts (line :: rest) =
      if line.getLast? ≠ some '\\' ∨ joinContinued.commentAtStart line then
        (parts ++ [if joinContinued.commentAtStart line then ' ' :: line else line]).flatten ::
          joinContinued [] rest
      else joinContinued (parts ++ [joinContinued.stripBackslashes line]) rest := by
  cases parts <;> rfl

theorem oneLine_joinContinued {parts lines : List Text} (hparts : ∀ part ∈ parts, OneLine part)
    (hlines : ∀ l ∈ lines, OneLine l) : ∀ l ∈ joinContinued parts lines, OneLine l := by
  induction lines generalizing parts with
  | nil =>
      intro l hl
      cases parts with
      | nil => cases hl
      | cons part rest =>
          simp only [joinContinued, List.mem_singleton] at hl
          subst hl
          exact oneLine_flatten hparts
  | cons line rest ih =>
      have hline := hlines line (by simp)
      have hrest : ∀ l ∈ rest, OneLine l := fun l hl => hlines l (by simp [hl])
      intro l hl
      rw [joinContinued_cons] at hl
      split at hl
      · rcases List.mem_cons.1 hl with rfl | hl
        · apply oneLine_flatten
          intro part hpart
          rcases List.mem_append.1 hpart with hpart | hpart
          · exact hparts part hpart
          · rw [List.mem_singleton.1 hpart]
            split
            · exact OneLine.append (a := [' ']) (by decide) hline
            · exact hline
        · exact ih (by simp) hrest l hl
      · refine ih ?_ hrest l hl
        intro part hpart
        rcases List.mem_append.1 hpart with hpart | hpart
        · exact hparts part hpart
        · rw [List.mem_singleton.1 hpart]
          apply hline.sublist
          exact (List.rdropWhile_prefix _ _).sublist.trans (List.dropWhile_sublist _)

theorem oneLine_ignoreComment (h : OneLine line) : OneLine (ignoreComment line) := by
  unfold ignoreComment
  split
  · exact h.sublist ((strip_sublist _).trans ((rstrip_sublist _).trans (List.take_sublist _ _)))
  · exact h.sublist (strip_sublist _)

/-- Without environment variables every resulting line is one line. -/
theorem oneLine_preprocess {content : Text} (h : line ∈ preprocess (fun _ => none) content) :
    OneLine line := by
  obtain ⟨stripped, hstripped, rfl⟩ := List.mem_map.1 h
  obtain ⟨joined, hjoined, rfl⟩ := List.mem_map.1 (List.mem_filter.1 hstripped).1
  have hjoin : OneLine joined := oneLine_joinContinued (by simp)
    (fun l hl => oneLine_of_splitLines hl) joined hjoined
  have hexpand : ∀ (names : List Text) (text : Text),
      names.foldl (fun line _ => line) text = text := by
    intro names text
    induction names with
    | nil => rfl
    | cons _ _ ih => exact ih
  unfold expandVariables
  rw [hexpand]
  exact oneLine_ignoreComment hjoin

theorem oneLine_args (h : OneLine line) : OneLine (breakArgsOptions line).1 := by
  intro c hc
  rcases mem_intercalate hc with rfl | ⟨token, htoken, hc⟩
  · decide
  · have hmem : token ∈ line.splitOn ' ' := (List.takeWhile_sublist _).subset htoken
    have hline : c ∈ line := by
      have hjoin : [' '].intercalate (line.splitOn ' ') = line := List.intercalate_splitOn ' '
      rw [← hjoin]
      exact mem_intercalate_of_mem hmem hc
    exact h c hline

end OneLine

end WheelForge.Parser
