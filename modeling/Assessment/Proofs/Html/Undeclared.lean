import Mathlib.Data.List.Infix
import Assessment.Html.Tree

/-!
# Proofs: HTML that is always read

Only a marked section can make HTML unreadable, and it starts with an opening bracket and an exclamation
mark. Every reader leaves a suffix of the text that it is given, so where these two characters do not
meet in the whole text, they do not meet wherever the reading goes on (`exists_parse_of_undeclared`).
-/

namespace Assessment.Html

open Assessment.Text

/-- The text holds no declaration, comment or marked section: nowhere does an exclamation mark follow an
opening bracket. -/
def Undeclared (s : List Char) : Prop := ¬ ['<', '!'] <:+: s

theorem Undeclared.of_suffix {s rest : List Char} (h : Undeclared s) (hrest : rest <:+ s) :
    Undeclared rest := fun hoccurs => h (hoccurs.trans hrest.isInfix)

theorem Undeclared.head?_ne {s : List Char} (h : Undeclared ('<' :: s)) : s.head? ≠ some '!' := by
  cases s with
  | nil => simp
  | cons c s =>
    rintro hc
    cases hc
    exact h ⟨[], s, rfl⟩

/-! ## What is left of a text -/

theorem suffix_of_cutAtChar? {mark : Char} {s before rest : List Char}
    (h : cutAtChar? mark s = some (before, rest)) : rest <:+ s := by
  rw [cutAtChar?_append h]
  exact (List.suffix_cons ..).trans (List.suffix_append ..)

theorem suffix_of_after? {start s rest : List Char} (h : after? start s = some rest) : rest <:+ s :=
  after?_eq_some_iff.1 h ▸ List.suffix_append ..

namespace StartTag

theorem skipSeparators_suffix (s : List Char) : skipSeparators s <:+ s := by
  induction s with
  | nil => exact List.suffix_rfl
  | cons c s ih =>
    unfold skipSeparators
    split
    · exact ih.trans (List.suffix_cons ..)
    · exact List.suffix_rfl

theorem suffix_of_valueAfterSigns? {again : Bool} {s value rest : List Char}
    (h : valueAfterSigns? again s = some (value, rest)) : rest <:+ s := by
  have hstart := List.dropWhile_suffix isBlank (l := s)
  simp only [valueAfterSigns?] at h
  split at h
  · cases h
    exact List.nil_suffix
  · next c t ht =>
    split at h
    · split at h
      · next found hfound =>
        cases h
        rw [ht] at hstart
        exact (suffix_of_cutAtChar? hfound).trans ((List.suffix_cons ..).trans hstart)
      · split at h
        · cases h
          exact List.suffix_rfl
        · split at h
          · cases h
            exact (List.dropWhile_suffix _).trans hstart
          · cases h
    · cases h
      exact (List.dropWhile_suffix _).trans hstart

theorem suffix_of_value? {s value rest : List Char} (h : value? s = some (value, rest)) :
    rest <:+ s := by
  unfold value? at h
  split at h
  · next t ht =>
    have hstart := List.dropWhile_suffix isBlank (l := s)
    rw [ht] at hstart
    exact (suffix_of_valueAfterSigns? h).trans <|
      (List.dropWhile_suffix _).trans ((List.suffix_cons ..).trans hstart)
  · cases h

theorem readAttribute_suffix (c : Char) (s : List Char) : (readAttribute c s).rest <:+ s := by
  have hname := List.dropWhile_suffix isAttributePart (l := s)
  unfold readAttribute
  dsimp only
  split
  · next h => exact (skipSeparators_suffix _).trans ((suffix_of_value? h).trans hname)
  · exact (skipSeparators_suffix _).trans hname

theorem attributes_suffix (boundary : Bool) (s : List Char) : (attributes boundary s).2 <:+ s := by
  fun_induction attributes boundary s with
  | case1 => exact List.suffix_rfl
  | case2 boundary c s _ first more ih =>
    exact ih.trans ((readAttribute_suffix c s).trans (List.suffix_cons ..))
  | case3 => exact List.suffix_rfl

/-- A start tag is found or is unfinished, and it leaves a suffix of the text. -/
theorem read_leaves (s : List Char) :
    read s = .unfinished ∨ ∃ token rest, read s = .found token rest ∧ rest <:+ s := by
  have hname := List.dropWhile_suffix isTagNameChar (l := s)
  unfold read
  dsimp only
  generalize hb : (decide ((skipSeparators (s.dropWhile isTagNameChar)).length <
    (s.dropWhile isTagNameChar).length) ||
      ((s.takeWhile isTagNameChar).getLast?.map isQuote).getD false) = boundary
  have hattributes := (attributes_suffix boundary (skipSeparators (s.dropWhile isTagNameChar))).trans
    ((skipSeparators_suffix _).trans hname)
  split
  · next rest hr =>
    rw [hr] at hattributes
    exact .inr ⟨_, _, rfl, (List.suffix_cons ..).trans hattributes⟩
  · next rest hr =>
    rw [hr] at hattributes
    exact .inr ⟨_, _, rfl, (List.suffix_cons ..).trans ((List.suffix_cons ..).trans hattributes)⟩
  · exact .inl rfl
  · next c rest _ _ hr =>
    rw [hr] at hattributes
    split
    · exact .inl rfl
    · exact .inr ⟨_, _, rfl, hattributes⟩

end StartTag

namespace Markup

/-- Markup that is no declaration is found or is unfinished, and it leaves a suffix of the text. -/
theorem read_leaves {s : List Char} (h : s.head? ≠ some '!') :
    read s = .unfinished ∨ ∃ token rest, read s = .found token rest ∧ rest <:+ s := by
  unfold read
  split
  · exact .inl rfl
  · next t =>
    unfold readEndTag
    split
    · next hcut => exact .inr ⟨_, _, rfl, (suffix_of_cutAtChar? hcut).trans (List.suffix_cons ..)⟩
    · exact .inl rfl
  · next t =>
    unfold readInstruction
    split
    · next hcut => exact .inr ⟨_, _, rfl, (suffix_of_cutAtChar? hcut).trans (List.suffix_cons ..)⟩
    · exact .inl rfl
  · exact absurd rfl h
  · split
    · exact StartTag.read_leaves _
    · exact .inr ⟨_, _, rfl, List.suffix_rfl⟩

end Markup

namespace Reference

theorem afterEnd_suffix (s : List Char) : afterEnd s <:+ s := by
  unfold afterEnd
  split
  · exact List.suffix_cons ..
  · exact List.suffix_rfl

theorem suffix_of_digits? {base n : Nat} {isDigit : Char → Bool} {s rest : List Char}
    (h : digits? base isDigit s = some (n, rest)) : rest <:+ s := by
  have hdigits := List.dropWhile_suffix isDigit (l := s)
  simp only [digits?] at h
  split at h
  · cases h
  · next c r hr =>
    rw [hr] at hdigits
    split at h
    · cases h
    · cases h
      exact (afterEnd_suffix _).trans hdigits

theorem suffix_of_number? {n : Nat} {s rest : List Char} (h : number? s = some (n, rest)) :
    rest <:+ s := by
  unfold number? at h
  split at h
  · exact (suffix_of_digits? h).trans (List.suffix_cons ..)
  · exact (suffix_of_digits? h).trans (List.suffix_cons ..)
  · exact suffix_of_digits? h

theorem suffix_of_name? {name s rest : List Char} (h : name? s = some (name, rest)) : rest <:+ s := by
  have hname := List.dropWhile_suffix isNameChar (l := s)
  simp only [name?] at h
  split at h
  · cases h
  · split at h
    · split at h
      · next c r hr =>
        cases h
        rw [hr] at hname
        exact (afterEnd_suffix _).trans hname
      · split at h
        · cases h
        · cases h
          exact List.drop_suffix ..
    · cases h

end Reference

/-! ## Steps of the reading -/

/-- The step leaves a suffix of the text, if it does not reject the text. -/
inductive Step.Leaves (s : List Char) : Step → Prop where
  | read (token : Token) {rest : List Char} (h : rest <:+ s) : Leaves s (.read token rest)
  | halt (text : List Char) {rest : List Char} (h : rest <:+ s) : Leaves s (.halt text rest)

namespace Step

theorem unfinishedChunk_suffix (s : List Char) : (unfinishedChunk s).2 <:+ s := by
  unfold unfinishedChunk
  split
  · next h => exact suffix_of_cutAtChar? h
  · split
    · exact List.dropWhile_suffix _
    · exact List.suffix_rfl

theorem leaves_atMarkup {last : Bool} {s : List Char} (h : s.head? ≠ some '!') :
    (atMarkup last s).Leaves ('<' :: s) := by
  unfold atMarkup
  split
  · next hempty => exact .halt _ (by simp [List.isEmpty_iff.1 hempty])
  · obtain hread | ⟨token, rest, hread, hrest⟩ := Markup.read_leaves h
    · rw [hread]
      dsimp only
      split
      · exact .read _ ((unfinishedChunk_suffix s).trans (List.suffix_cons ..))
      · exact .halt _ List.suffix_rfl
    · rw [hread]
      exact .read _ (hrest.trans (List.suffix_cons ..))

theorem leaves_atReference (last : Bool) (s : List Char) : (atReference last s).Leaves ('&' :: s) := by
  unfold atReference
  split
  · exact .halt _ List.suffix_rfl
  · next t =>
    have ht : t <:+ '&' :: '#' :: t := (List.suffix_cons ..).trans (List.suffix_cons ..)
    split
    · next hnumber => exact .read _ ((Reference.suffix_of_number? hnumber).trans ht)
    · split
      · exact .halt _ ht
      · exact .halt _ List.suffix_rfl
  · next c t _ =>
    have ht : c :: t <:+ '&' :: c :: t := List.suffix_cons ..
    split
    · next hname => exact .read _ ((Reference.suffix_of_name? hname).trans ht)
    · split
      · split
        · exact .halt _ ht
        · exact .halt _ List.suffix_rfl
      · exact .read _ ht

theorem leaves_inMarkup {last : Bool} {s : List Char} (h : Undeclared s) :
    (inMarkup last s).Leaves s := by
  unfold inMarkup
  split
  · exact .halt _ List.suffix_rfl
  · exact leaves_atMarkup h.head?_ne
  · exact leaves_atReference _ _
  · exact .read _ ((List.dropWhile_suffix _).trans (List.suffix_cons ..))

theorem leaves_inRaw (name s : List Char) : (inRaw name s).Leaves s := by
  unfold inRaw
  split
  · exact .halt _ List.suffix_rfl
  · next from? hsplit =>
    have hfrom : from? <:+ s := splitWhere?_append hsplit ▸ List.suffix_append ..
    split
    · next t hafter =>
      split
      · next hcut =>
        exact .read _ ((suffix_of_cutAtChar? hcut).trans ((suffix_of_after? hafter).trans hfrom))
      · exact .halt _ List.suffix_rfl
    · exact .halt _ List.suffix_rfl
  · next hsplit => exact .read _ (splitWhere?_append hsplit ▸ List.suffix_append ..)

/-- A step in a text without declarations does not reject it. -/
theorem leaves_next {last : Bool} {raw : Option (List Char)} {s : List Char} (h : Undeclared s) :
    (next last raw s).Leaves s := by
  unfold next
  split
  · exact leaves_inRaw _ _
  · exact leaves_inMarkup h

end Step

/-! ## Whole readings -/

/-- A text without declarations is read to where the reading halts. -/
theorem exists_run {last : Bool} {raw : Option (List Char)} {s : List Char} (h : Undeclared s) :
    ∃ r, run last raw s = some r ∧ r.rest <:+ s := by
  fun_induction run last raw s with
  | case1 raw s token rest hnext ih =>
    have hleaves := @Step.leaves_next last raw s h
    rw [hnext] at hleaves
    obtain ⟨_, hrest⟩ := hleaves
    obtain ⟨r, hr, hleft⟩ := ih (h.of_suffix hrest)
    exact ⟨{ r with tokens := token :: r.tokens }, by rw [hr]; rfl, hleft.trans hrest⟩
  | case2 raw s text rest hnext =>
    have hleaves := @Step.leaves_next last raw s h
    rw [hnext] at hleaves
    obtain _ | ⟨_, hrest⟩ := hleaves
    exact ⟨_, rfl, hrest⟩
  | case3 raw s hnext =>
    have hleaves := @Step.leaves_next last raw s h
    rw [hnext] at hleaves
    cases hleaves

/-- A text without declarations is always read. -/
theorem exists_parse_of_undeclared {s : List Char} (h : Undeclared s) :
    ∃ nodes, parse s = some nodes := by
  obtain ⟨first, hfirst, hrest⟩ := @exists_run false none s h
  obtain ⟨second, hsecond, -⟩ := @exists_run true first.raw _ (h.of_suffix hrest)
  unfold parse tokenize
  simp [hfirst, hsecond]

end Assessment.Html
