import Mathlib.Data.List.TakeWhile
import Assessment.Text.Blank
import Assessment.Text.Cut

/-!
# Proofs: white space

A text without its white space, what trimming leaves of a text, and the words of a text.
-/

namespace Assessment.Text

/-- The text without any white space. -/
def withoutBlanks (s : List Char) : List Char := s.filter fun c => !isBlank c

@[simp] theorem withoutBlanks_append (s t : List Char) :
    withoutBlanks (s ++ t) = withoutBlanks s ++ withoutBlanks t := List.filter_append ..

theorem not_isBlank_of_le {c : Char} (hlow : 0x21 ≤ c.toNat) (hhigh : c.toNat ≤ 0x84) :
    isBlank c = false := by
  simp only [isBlank, blankRanges, Ranges.mem, List.any_cons, List.any_nil, Bool.or_false,
    Bool.or_eq_false_iff, Bool.and_eq_false_imp, decide_eq_true_eq, decide_eq_false_iff_not]
  omega

theorem toNat_of_isAlpha {c : Char} (h : c.isAlpha = true) :
    (0x41 ≤ c.toNat ∧ c.toNat ≤ 0x5A) ∨ (0x61 ≤ c.toNat ∧ c.toNat ≤ 0x7A) := by
  rcases Bool.or_eq_true_iff.1 h with hupper | hlower
  · exact .inl (of_decide_eq_true (p := 0x41 ≤ c.toNat ∧ c.toNat ≤ 0x5A) hupper)
  · obtain ⟨hlow, hhigh⟩ := Bool.and_eq_true_iff.1 hlower
    exact .inr ⟨of_decide_eq_true hlow, of_decide_eq_true hhigh⟩

theorem isBlank_of_isAlpha {c : Char} (h : c.isAlpha = true) : isBlank c = false := by
  rcases toNat_of_isAlpha h with ⟨hlow, hhigh⟩ | ⟨hlow, hhigh⟩
  · exact not_isBlank_of_le (Nat.le_trans (by decide) hlow) (Nat.le_trans hhigh (by decide))
  · exact not_isBlank_of_le (Nat.le_trans (by decide) hlow) (Nat.le_trans hhigh (by decide))

theorem withoutBlanks_of_isBlankText {s : List Char} (h : isBlankText s) :
    withoutBlanks s = [] := by
  rw [withoutBlanks, List.filter_eq_nil_iff]
  intro c hc
  simp [List.all_eq_true.1 h c hc]

theorem withoutBlanks_dropWhile (s : List Char) :
    withoutBlanks (s.dropWhile isBlank) = withoutBlanks s := by
  induction s with
  | nil => rfl
  | cons c s ih =>
    by_cases hc : isBlank c
    · rw [List.dropWhile_cons_of_pos hc, ih]
      simp [withoutBlanks, hc]
    · rw [List.dropWhile_cons_of_neg hc]

/-! ## The end of a text -/

theorem trimEnd_append_of_isBlankText {t : List Char} (h : isBlankText t) (s : List Char) :
    trimEnd (s ++ t) = trimEnd s := by
  have hall : ∀ c ∈ t.reverse, isBlank c := fun c hc =>
    List.all_eq_true.1 h c (List.mem_reverse.1 hc)
  rw [trimEnd, List.reverse_append, List.dropWhile_append_of_pos hall, trimEnd]

/-- White space is taken from the last part of a text that holds anything else. -/
theorem trimEnd_append {t : List Char} (h : ¬ isBlankText t) (s : List Char) :
    trimEnd (s ++ t) = s ++ trimEnd t := by
  have hsome : ¬ (t.reverse.dropWhile isBlank).isEmpty := by
    rw [List.isEmpty_iff, List.dropWhile_eq_nil_iff]
    intro hall
    exact h (List.all_eq_true.2 fun c hc => hall c (List.mem_reverse.2 hc))
  rw [trimEnd, List.reverse_append, List.dropWhile_append, if_neg hsome, List.reverse_append,
    List.reverse_reverse, trimEnd]

/-- A text is what is left of it when its end is trimmed, with white space after it. -/
theorem exists_trimEnd (s : List Char) : ∃ blanks, s = trimEnd s ++ blanks ∧ isBlankText blanks := by
  refine ⟨(s.reverse.takeWhile isBlank).reverse, ?_, ?_⟩
  · rw [trimEnd, ← List.reverse_append, List.takeWhile_append_dropWhile, List.reverse_reverse]
  · rw [isBlankText, List.all_reverse, List.all_eq_true]
    intro c hc
    exact List.mem_takeWhile_imp hc

/-- What is left of a text when it is trimmed was there before. -/
theorem trim_subset (s : List Char) : trim s ⊆ s := fun _ hc =>
  (List.dropWhile_sublist isBlank).subset (List.mem_reverse.1
    ((List.dropWhile_sublist isBlank).subset (List.mem_reverse.1 hc)))

/-! ## Trimmed texts -/

/-- The text is not empty, and no white space is at its ends. -/
structure Trimmed (s : List Char) : Prop where
  /-- What comes first is no white space. -/
  first : ∃ c t, s = c :: t ∧ isBlank c = false
  /-- What comes last is no white space. -/
  last : ∃ t c, s = t ++ [c] ∧ isBlank c = false

theorem exists_cons_dropWhile {s : List Char} (h : s.dropWhile isBlank ≠ []) :
    ∃ c t, s.dropWhile isBlank = c :: t ∧ isBlank c = false := by
  cases hdrop : s.dropWhile isBlank with
  | nil => exact absurd hdrop h
  | cons c t =>
    have hhead := List.head_dropWhile_not isBlank h
    simp only [hdrop, List.head_cons] at hhead
    exact ⟨c, t, rfl, hhead⟩

namespace Trimmed

theorem ne_nil {s : List Char} (h : Trimmed s) : s ≠ [] := by
  obtain ⟨c, t, rfl, -⟩ := h.first
  exact List.cons_ne_nil c t

theorem trim {s : List Char} (h : Trimmed s) : trim s = s := by
  obtain ⟨c, t, hfirst, hc⟩ := h.first
  obtain ⟨u, d, hlast, hd⟩ := h.last
  have hstart : trimStart s = s := by
    rw [hfirst, trimStart, List.dropWhile_cons_of_neg (ne_true_of_eq_false hc)]
  rw [Text.trim, hstart, trimEnd, hlast, List.reverse_concat,
    List.dropWhile_cons_of_neg (ne_true_of_eq_false hd), List.reverse_cons, List.reverse_reverse]

/-- What is left of a text that is not blank is trimmed. -/
theorem of_trim {s : List Char} (h : Text.trim s ≠ []) : Trimmed (Text.trim s) := by
  obtain ⟨blanks, hstart, -⟩ := exists_trimEnd (trimStart s)
  have hdrop : trimStart s ≠ [] := by
    intro hnil
    rw [Text.trim, hnil] at h
    exact h rfl
  have hreverse : (trimStart s).reverse.dropWhile isBlank ≠ [] := fun hnil =>
    h (congrArg List.reverse hnil)
  obtain ⟨c, t, hcons, hc⟩ := exists_cons_dropWhile hdrop
  obtain ⟨d, u, hlast, hd⟩ := exists_cons_dropWhile hreverse
  refine ⟨?_, u.reverse, d, ?_, hd⟩
  · cases htrim : Text.trim s with
    | nil => exact absurd htrim h
    | cons e v =>
      have hsame : c :: t = (e :: v) ++ blanks := by
        rw [← htrim, ← hcons]
        exact hstart
      exact ⟨e, v, rfl, (List.cons.inj hsame).1 ▸ hc⟩
  · rw [Text.trim, trimEnd, hlast, List.reverse_cons]

end Trimmed

/-! ## Words -/

/-- The text is one word. -/
structure IsWord (w : List Char) : Prop where
  /-- It is not empty. -/
  ne_nil : w ≠ []
  /-- It holds no white space. -/
  solid : ∀ c ∈ w, isBlank c = false

theorem IsWord.trimmed {w : List Char} (h : IsWord w) : Trimmed w where
  first := by
    cases w with
    | nil => exact absurd rfl h.ne_nil
    | cons c w => exact ⟨c, w, rfl, h.solid c List.mem_cons_self⟩
  last := by
    refine ⟨w.dropLast, w.getLast h.ne_nil, (List.dropLast_concat_getLast h.ne_nil).symm, ?_⟩
    exact h.solid _ (List.getLast_mem h.ne_nil)

theorem isWord_of_mem_wordsFrom {word s w : List Char} (hword : ∀ c ∈ word, isBlank c = false)
    (h : w ∈ wordsFrom word s) : IsWord w := by
  have hread : word.isEmpty = false → IsWord word.reverse := by
    intro hsome
    refine ⟨?_, fun c hc => hword c (List.mem_reverse.1 hc)⟩
    rw [Ne, List.reverse_eq_nil_iff, ← List.isEmpty_iff, hsome]
    exact Bool.false_ne_true
  induction s generalizing word with
  | nil =>
    rw [wordsFrom] at h
    split at h
    · cases h
    · next hsome =>
      rw [List.mem_singleton.1 h]
      exact hread (eq_false_of_ne_true hsome)
  | cons c s ih =>
    have hnone : ∀ d ∈ ([] : List Char), isBlank d = false := fun _ hd => absurd hd List.not_mem_nil
    have hskip : w ∈ wordsFrom [] s → IsWord w := fun hw =>
      ih hnone hw fun hempty => by cases hempty
    rw [wordsFrom] at h
    split at h
    · split at h
      · exact hskip h
      · next hsome =>
        rcases List.mem_cons.1 h with rfl | h
        · exact hread (eq_false_of_ne_true hsome)
        · exact hskip h
    · next hc =>
      have hlonger : ∀ d ∈ c :: word, isBlank d = false :=
        List.forall_mem_cons.2 ⟨eq_false_of_ne_true hc, hword⟩
      refine ih hlonger h fun _ => ⟨by simp, fun d hd => hlonger d (List.mem_reverse.1 hd)⟩

/-- The words of a text are words. -/
theorem isWord_of_mem_words {s w : List Char} (h : w ∈ words s) : IsWord w :=
  isWord_of_mem_wordsFrom (fun _ hc => absurd hc List.not_mem_nil) h

theorem wordsFrom_append {u : List Char} (hu : ∀ c ∈ u, isBlank c = false) (word s : List Char) :
    wordsFrom word (u ++ s) = wordsFrom (u.reverse ++ word) s := by
  induction u generalizing word with
  | nil => rfl
  | cons c u ih =>
    obtain ⟨hc, hu⟩ := List.forall_mem_cons.1 hu
    rw [List.cons_append, wordsFrom, if_neg (ne_true_of_eq_false hc), ih hu, List.reverse_cons,
      List.append_assoc]
    rfl

theorem wordsFrom_append_cons {c : Char} (hc : isBlank c = true) (word s t : List Char) :
    wordsFrom word (s ++ c :: t) = wordsFrom word s ++ words t := by
  induction s generalizing word with
  | nil => cases hword : word.isEmpty <;> simp [wordsFrom, words, hc, hword]
  | cons d s ih =>
    rw [List.cons_append, wordsFrom, wordsFrom, ih, ih]
    split
    · split
      · rfl
      · rfl
    · rfl

/-- White space separates the words of a text. -/
theorem words_append_cons {c : Char} (hc : isBlank c = true) (s t : List Char) :
    words (s ++ c :: t) = words s ++ words t := wordsFrom_append_cons hc [] s t

/-- The words of words with spaces between them are these words. -/
theorem words_joinWith {ws : List (List Char)} (h : ∀ w ∈ ws, IsWord w) :
    words (joinWith [' '] ws) = ws := by
  unfold words
  induction ws with
  | nil => rfl
  | cons w ws ih =>
    obtain ⟨⟨hne, hsolid⟩, hws⟩ := List.forall_mem_cons.1 h
    have hsome : w.reverse.isEmpty = false := by
      rw [List.isEmpty_eq_false_iff, Ne, List.reverse_eq_nil_iff]
      exact hne
    cases ws with
    | nil =>
      have happend := wordsFrom_append hsolid [] []
      rw [List.append_nil, List.append_nil] at happend
      rw [joinWith, happend, wordsFrom, if_neg (ne_true_of_eq_false hsome), List.reverse_reverse]
    | cons next rest =>
      have hspace : isBlank ' ' = true := by decide
      rw [joinWith, List.append_assoc, wordsFrom_append hsolid, List.append_nil, List.singleton_append,
        wordsFrom, if_pos hspace, if_neg (ne_true_of_eq_false hsome), ih hws, List.reverse_reverse]

/-- The only word of a word is that word. -/
theorem IsWord.words {w : List Char} (h : IsWord w) : words w = [w] :=
  words_joinWith (List.forall_mem_singleton.2 h)

end Assessment.Text
