import Mathlib.Data.List.Infix
import Mathlib.Data.List.DropRight
import Mathlib.Tactic.Common

/-!
# Python text operations

The methods of Python's `str` that work on characters, on lists of characters: white space and
stripping, lines, searching and replacing, and the name of a POSIX path. Each operation has the lemma that says when it leaves a
text unchanged, and `lines_join` says that joining separates what `splitlines` separates.
-/

set_option autoImplicit false

namespace WheelForge.Python

/-- The characters of a string. -/
abbrev Text := List Char

instance : LawfulBEq Text := inferInstance

/-! ## White space -/

/-- `c.isspace()`, which is also what `\s` matches. -/
def isSpace (c : Char) : Bool :=
  c.toNat ∈ [0x9, 0xa, 0xb, 0xc, 0xd, 0x1c, 0x1d, 0x1e, 0x1f, 0x20, 0x85, 0xa0, 0x1680, 0x2000,
    0x2001, 0x2002, 0x2003, 0x2004, 0x2005, 0x2006, 0x2007, 0x2008, 0x2009, 0x200a, 0x2028, 0x2029,
    0x202f, 0x205f, 0x3000]

/-- `text.rstrip()`. -/
def rstrip (text : Text) : Text := text.rdropWhile isSpace

/-- `text.strip()`. -/
def strip (text : Text) : Text := rstrip (text.dropWhile isSpace)

/-- Neither the first nor the last character is white space. -/
def Trimmed (text : Text) : Prop :=
  (∀ c ∈ text.head?, isSpace c = false) ∧ ∀ c ∈ text.getLast?, isSpace c = false

theorem rstrip_of_last {text : Text} (h : ∀ c ∈ text.getLast?, isSpace c = false) :
    rstrip text = text := by
  unfold rstrip
  rw [List.rdropWhile_eq_self_iff]
  intro hne
  have hc := h (text.getLast hne) (List.getLast_mem_getLast? hne)
  simp [hc]

theorem strip_of_trimmed {text : Text} (h : Trimmed text) : strip text = text := by
  unfold strip
  have hhead : text.dropWhile isSpace = text := by
    cases text with
    | nil => rfl
    | cons c cs =>
        have hc := h.1 c rfl
        simp [hc]
  rw [hhead]
  exact rstrip_of_last h.2

theorem rstrip_sublist (text : Text) : (rstrip text).Sublist text :=
  (List.rdropWhile_prefix _ _).sublist

theorem strip_sublist (text : Text) : (strip text).Sublist text :=
  (rstrip_sublist _).trans (List.dropWhile_sublist _)

/-! ## Joined texts -/

/-- Members of joined lists. -/
theorem mem_intercalate {α : Type} {sep d : α} {parts : List (List α)} (h : d ∈ [sep].intercalate parts) :
    d = sep ∨ ∃ part ∈ parts, d ∈ part := by
  induction parts with
  | nil => simp at h
  | cons part rest ih =>
      cases rest with
      | nil =>
          right
          simpa using h
      | cons next rest =>
          rw [List.intercalate_cons_cons] at h
          simp only [List.mem_append, List.mem_singleton] at h
          rcases h with (h | h) | h
          · exact .inr ⟨part, by simp, h⟩
          · exact .inl h
          · rcases ih h with h | ⟨part', hpart, h⟩
            · exact .inl h
            · exact .inr ⟨part', by simp [hpart], h⟩

theorem mem_intercalate_of_mem {α : Type} {sep d : α} {part : List α} {parts : List (List α)}
    (hpart : part ∈ parts) (hd : d ∈ part) : d ∈ [sep].intercalate parts := by
  induction parts with
  | nil => cases hpart
  | cons first rest ih =>
      cases rest with
      | nil =>
          rw [List.mem_singleton.1 hpart] at hd
          simpa using hd
      | cons next rest =>
          rw [List.intercalate_cons_cons]
          simp only [List.mem_append]
          rcases List.mem_cons.1 hpart with rfl | hpart
          · exact .inl (.inl hd)
          · exact .inr (ih hpart)

/-! ## Lines -/

/-- The characters at which `splitlines` ends a line. -/
def isLineBoundary (c : Char) : Bool :=
  c.toNat ∈ [0xa, 0xb, 0xc, 0xd, 0x1c, 0x1d, 0x1e, 0x85, 0x2028, 0x2029]

/-- The text holds no line boundary. -/
def OneLine (text : Text) : Prop := ∀ c ∈ text, isLineBoundary c = false

instance (text : Text) : Decidable (OneLine text) := List.decidableBAll _ _

theorem OneLine.sublist {a b : Text} (h : OneLine b) (hsub : a.Sublist b) : OneLine a :=
  fun c hc => h c (hsub.subset hc)

theorem OneLine.append {a b : Text} (ha : OneLine a) (hb : OneLine b) : OneLine (a ++ b) := by
  intro c hc
  rcases List.mem_append.1 hc with hc | hc
  · exact ha c hc
  · exact hb c hc

theorem oneLine_flatten {parts : List Text} (h : ∀ part ∈ parts, OneLine part) :
    OneLine parts.flatten := by
  intro c hc
  obtain ⟨part, hpart, hc⟩ := List.mem_flatten.1 hc
  exact h part hpart c hc

/-- `splitlines` with the characters of the current line read so far, in reverse; `afterReturn` says
that the last line was ended by `\r`. -/
def splitLinesFrom : Text → Bool → Text → List Text
  | [], _, [] => []
  | line, _, [] => [line.reverse]
  | line, afterReturn, c :: rest =>
      if afterReturn && c = '\n' then splitLinesFrom line false rest
      else if isLineBoundary c then line.reverse :: splitLinesFrom [] (c = '\r') rest
      else splitLinesFrom (c :: line) false rest

/-- `text.splitlines()`. -/
def splitLines (text : Text) : List Text := splitLinesFrom [] false text

/-- `"\n".join(lines) + "\n"`. -/
def joinLines (lines : List Text) : Text := ['\n'].intercalate lines ++ ['\n']

theorem splitLinesFrom_line {line : Text} (h : OneLine line) (seen rest : Text)
    (afterReturn : Bool) (hfirst : afterReturn = true → line ≠ []) :
    splitLinesFrom seen afterReturn (line ++ '\n' :: rest) =
      (seen.reverse ++ line) :: splitLinesFrom [] false rest := by
  induction line generalizing seen afterReturn with
  | nil =>
      have hreturn : afterReturn = false := by
        cases afterReturn with
        | false => rfl
        | true => exact absurd rfl (hfirst rfl)
      subst hreturn
      cases seen <;> simp [splitLinesFrom, isLineBoundary]
  | cons c cs ih =>
      have hc : isLineBoundary c = false := h c (by simp)
      have hnewline : c ≠ '\n' := by
        rintro rfl
        simp [isLineBoundary] at hc
      have hrest : OneLine cs := fun d hd => h d (by simp [hd])
      have hstep : splitLinesFrom seen afterReturn (c :: (cs ++ '\n' :: rest)) =
          splitLinesFrom (c :: seen) false (cs ++ '\n' :: rest) := by
        cases seen <;> simp [splitLinesFrom, hc, hnewline]
      rw [List.cons_append, hstep, ih hrest (c :: seen) false (by simp)]
      simp

/-- `splitlines` gives back the lines that were joined. -/
theorem splitLines_joinLines {lines : List Text} (hne : lines ≠ [])
    (h : ∀ line ∈ lines, OneLine line) : splitLines (joinLines lines) = lines := by
  unfold splitLines joinLines
  induction lines with
  | nil => exact absurd rfl hne
  | cons line rest ih =>
      have hline := h line (by simp)
      cases rest with
      | nil =>
          have := splitLinesFrom_line hline [] [] false (by simp)
          simpa [splitLinesFrom] using this
      | cons next rest =>
          have hrest := ih (by simp) fun l hl => h l (by simp [hl])
          have := splitLinesFrom_line hline [] (['\n'].intercalate (next :: rest) ++ ['\n']) false
            (by simp)
          rw [List.intercalate_cons_cons, List.append_assoc, List.append_assoc]
          rw [List.singleton_append, this, hrest]
          rfl

/-- `splitlines` gives back lines that each end in a line feed. -/
theorem splitLines_terminated {lines : List Text} (h : ∀ line ∈ lines, OneLine line) :
    splitLines (lines.flatMap (· ++ ['\n'])) = lines := by
  unfold splitLines
  induction lines with
  | nil => rfl
  | cons line rest ih =>
      have hrest := ih fun l hl => h l (List.mem_cons_of_mem _ hl)
      have hline := splitLinesFrom_line (h line List.mem_cons_self) []
        (rest.flatMap (· ++ ['\n'])) false (by simp)
      rw [List.flatMap_cons, List.append_assoc, List.singleton_append, hline, hrest]
      rfl

/-- A line that `splitlines` returns holds no line boundary. -/
theorem oneLine_of_splitLinesFrom {text seen line : Text} {afterReturn : Bool}
    (hseen : OneLine seen) (h : line ∈ splitLinesFrom seen afterReturn text) : OneLine line := by
  induction text generalizing seen afterReturn with
  | nil =>
      cases seen with
      | nil => simp [splitLinesFrom] at h
      | cons c cs =>
          simp only [splitLinesFrom, List.mem_singleton] at h
          subst h
          intro d hd
          exact hseen d (List.mem_reverse.1 hd)
  | cons c cs ih =>
      have hunfold : splitLinesFrom seen afterReturn (c :: cs) =
          if afterReturn && c = '\n' then splitLinesFrom seen false cs
          else if isLineBoundary c then seen.reverse :: splitLinesFrom [] (c = '\r') cs
          else splitLinesFrom (c :: seen) false cs := by
        cases seen <;> rfl
      rw [hunfold] at h
      split at h
      · exact ih hseen h
      · split at h
        · rcases List.mem_cons.1 h with rfl | h
          · intro d hd
            exact hseen d (by simpa using hd)
          · exact ih (fun d hd => by simp at hd) h
        · next hc =>
            apply ih _ h
            intro d hd
            rcases List.mem_cons.1 hd with rfl | hd
            · simpa using hc
            · exact hseen d hd

theorem oneLine_of_splitLines {text line : Text} (h : line ∈ splitLines text) : OneLine line :=
  oneLine_of_splitLinesFrom (by simp [OneLine]) h

theorem fromUTF8_toUTF8 (s : String) : String.fromUTF8? s.toUTF8 = some s := by
  unfold String.fromUTF8?
  split
  · rfl
  · next h => exact absurd s.isValidUTF8 h

/-! ## Replacing -/

/-- `replace` with the number of characters of an occurrence still to drop. -/
def replaceFrom (old new : Text) : Nat → Text → Text
  | _, [] => []
  | skip + 1, _ :: rest => replaceFrom old new skip rest
  | 0, c :: rest =>
      if old <+: c :: rest then new ++ replaceFrom old new (old.length - 1) rest
      else c :: replaceFrom old new 0 rest

/-- `text.replace(old, new)` with a nonempty `old`. -/
def replace (old new text : Text) : Text := replaceFrom old new 0 text

/-! ## Infixes -/

/-- A needle without the character `c` lies on one side of it. -/
theorem infix_append_cons {needle a b : Text} {c : Char} (hc : c ∉ needle)
    (h : needle <:+: a ++ c :: b) : needle <:+: a ∨ needle <:+: b := by
  obtain ⟨s, t, h⟩ := h
  rw [List.append_assoc] at h
  rcases List.append_eq_append_iff.1 h with ⟨as, ha, hb⟩ | ⟨bs, hs, hb⟩
  · rcases List.append_eq_append_iff.1 hb with ⟨cs, hcs, ht⟩ | ⟨cs, hcs, ht⟩
    · exact .inl ⟨s, cs, by rw [ha, hcs, List.append_assoc]⟩
    · cases cs with
      | nil => exact .inl ⟨s, [], by simp [ha, hcs]⟩
      | cons d ds =>
          simp only [List.cons_append, List.cons.injEq] at ht
          exact absurd (by simp [hcs, ← ht.1]) hc
  · cases bs with
    | nil =>
        simp only [List.nil_append] at hb
        cases needle with
        | nil => exact .inl (by simp)
        | cons d ds =>
            simp only [List.cons_append, List.cons.injEq] at hb
            exact absurd (by simp [← hb.1]) hc
    | cons d ds =>
        simp only [List.cons_append, List.cons.injEq] at hb
        exact .inr ⟨ds, t, by simp [hb.2]⟩

/-! ## Paths -/

/-- `Path(path).name`: the last component that is neither empty nor a dot. -/
def pathName (path : String) : String :=
  String.ofList
    (((path.toList.splitOn '/').filter fun part => part ≠ [] ∧ part ≠ ['.']).getLast?.getD [])

end WheelForge.Python
