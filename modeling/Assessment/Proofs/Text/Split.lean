import Mathlib.Data.List.TakeWhile
import Assessment.Text.Cut
import Assessment.Proofs.Text.Scan

/-!
# Proofs: the parts of a text

A text is split at a character into parts that do not hold it, and parts that do not hold it are what
the text that joins them is split into (`splitOn_joinWith`). A text that is joined or edited holds the
characters of what it was made of.
-/

namespace Assessment.Text

variable {mark : Char}

theorem splitOn_ne_nil (mark : Char) (s : List Char) : splitOn mark s ≠ [] := by
  cases s with
  | nil => exact List.cons_ne_nil _ _
  | cons c s =>
    rw [splitOn]
    split
    · exact List.cons_ne_nil _ _
    · split
      · exact List.cons_ne_nil _ _
      · exact List.cons_ne_nil _ _

/-- A text without the character is one part. -/
theorem splitOn_of_not_mem {s : List Char} (h : mark ∉ s) : splitOn mark s = [s] := by
  induction s with
  | nil => rfl
  | cons c s ih =>
    rw [List.mem_cons, not_or] at h
    rw [splitOn, if_neg (Ne.symm h.1), ih h.2]

/-- A text is split at each occurrence of the character by itself. -/
theorem splitOn_append_cons (mark : Char) (s t : List Char) :
    splitOn mark (s ++ mark :: t) = splitOn mark s ++ splitOn mark t := by
  induction s with
  | nil => exact if_pos rfl
  | cons c s ih =>
    rw [List.cons_append, splitOn, ih, splitOn]
    by_cases hc : c = mark
    · rw [if_pos hc, if_pos hc, List.cons_append]
    · obtain ⟨part, parts, hparts⟩ := List.exists_cons_of_ne_nil (splitOn_ne_nil mark s)
      rw [if_neg hc, if_neg hc, hparts]
      rfl

/-- The parts hold characters of the text, and not the one it was split at. -/
theorem mem_of_mem_splitOn {s part : List Char} (h : part ∈ splitOn mark s) {c : Char} (hc : c ∈ part) :
    c ∈ s ∧ c ≠ mark := by
  induction s generalizing part with
  | nil =>
    rw [List.mem_singleton.1 h] at hc
    cases hc
  | cons d s ih =>
    obtain ⟨first, parts, hparts⟩ := List.exists_cons_of_ne_nil (splitOn_ne_nil mark s)
    rw [hparts] at ih
    rw [splitOn, hparts] at h
    have hstep : ∀ {other : List Char}, other ∈ first :: parts → c ∈ other → c ∈ d :: s ∧ c ≠ mark :=
      fun hother hmem => (ih hother hmem).imp_left (List.mem_cons_of_mem d)
    split at h
    · rcases List.mem_cons.1 h with rfl | h
      · cases hc
      · exact hstep h hc
    · next hd =>
      rcases List.mem_cons.1 h with rfl | h
      · rcases List.mem_cons.1 hc with rfl | hc
        · exact ⟨List.mem_cons_self, hd⟩
        · exact hstep List.mem_cons_self hc
      · exact hstep (List.mem_cons_of_mem _ h) hc

/-- What is joined at a character that it does not hold is split there again. -/
theorem splitOn_joinWith {parts : List (List Char)} (hparts : parts ≠ [])
    (h : ∀ part ∈ parts, mark ∉ part) : splitOn mark (joinWith [mark] parts) = parts := by
  induction parts with
  | nil => exact absurd rfl hparts
  | cons part parts ih =>
    obtain ⟨hpart, hrest⟩ := List.forall_mem_cons.1 h
    cases parts with
    | nil => exact splitOn_of_not_mem hpart
    | cons next parts =>
      have hjoin : joinWith [mark] (part :: next :: parts) =
          part ++ mark :: joinWith [mark] (next :: parts) := by
        rw [joinWith, List.append_assoc, List.singleton_append]
      rw [hjoin, splitOn_append_cons, splitOn_of_not_mem hpart, ih (List.cons_ne_nil _ _) hrest,
        List.singleton_append]

/-- A text is what comes before the last occurrence of a character, with that, and a last part. -/
theorem exists_last_part (mark : Char) (s : List Char) :
    ∃ start last, s = start ++ last ∧ (s.reverse.dropWhile (· != mark)).reverse = start ∧
      mark ∉ last ∧ (start = [] ∨ ∃ before, start = before ++ [mark]) := by
  refine ⟨_, (s.reverse.takeWhile (· != mark)).reverse, ?_, rfl, ?_, ?_⟩
  · rw [← List.reverse_append, List.takeWhile_append_dropWhile, List.reverse_reverse]
  · intro hmem
    have hne := List.all_eq_true.1 List.all_takeWhile _ (List.mem_reverse.1 hmem)
    exact bne_iff_ne.1 hne rfl
  · cases hrest : s.reverse.dropWhile (· != mark) with
    | nil => exact .inl rfl
    | cons c rest =>
      have hc : c = mark := by
        have hsome : s.reverse.dropWhile (· != mark) ≠ [] := by simp [hrest]
        have hhead := List.head_dropWhile_not (· != mark) hsome
        simpa [hrest] using hhead
      exact .inr ⟨rest.reverse, by rw [List.reverse_cons, hc]⟩

theorem beforeChar_of_not_mem {s : List Char} (h : mark ∉ s) : beforeChar mark s = s :=
  List.takeWhile_eq_self_iff.2 fun _ hc => bne_iff_ne.2 (ne_of_mem_of_not_mem hc h)

theorem beforeChar_cons_of_ne {stop c : Char} (h : c ≠ stop) (s : List Char) :
    beforeChar stop (c :: s) = c :: beforeChar stop s :=
  List.takeWhile_cons_of_pos (bne_iff_ne.2 h)

theorem beforeChar_cons_self (stop : Char) (s : List Char) : beforeChar stop (stop :: s) = [] :=
  List.takeWhile_cons_of_neg (by simp)

/-- Cutting a text does not change what it begins with, unless that is where it is cut. -/
theorem head?_beforeChar {stop c : Char} (hc : c ≠ stop) {s : List Char} :
    (beforeChar stop s).head? = some c ↔ s.head? = some c := by
  cases s with
  | nil => rfl
  | cons d s =>
    by_cases hd : d = stop
    · rw [hd, beforeChar_cons_self]
      exact iff_of_false nofun fun heq => hc (Option.some.inj heq).symm
    · rw [beforeChar_cons_of_ne hd, List.head?_cons, List.head?_cons]

/-- The parts of a text that ends early are the first parts of the whole text, and the last of them ends
early. -/
theorem splitOn_beforeChar {stop : Char} (hne : stop ≠ mark) (s : List Char) :
    ∃ n, splitOn mark (beforeChar stop s) = ((splitOn mark s).take (n + 1)).map (beforeChar stop) := by
  induction s with
  | nil => exact ⟨0, rfl⟩
  | cons c s ih =>
    obtain ⟨n, ih⟩ := ih
    obtain ⟨part, parts, hparts⟩ := List.exists_cons_of_ne_nil (splitOn_ne_nil mark s)
    rw [splitOn, hparts]
    by_cases hstop : c = stop
    · refine ⟨0, ?_⟩
      rw [hstop, if_neg hne, beforeChar_cons_self, List.take_succ_cons, List.take_zero,
        List.map_singleton, beforeChar_cons_self]
      rfl
    · rw [beforeChar_cons_of_ne hstop, splitOn, ih, hparts]
      by_cases hmark : c = mark
      · exact ⟨n + 1, by rw [if_pos hmark, if_pos hmark]; rfl⟩
      · refine ⟨n, ?_⟩
        rw [if_neg hmark, if_neg hmark, List.take_succ_cons, List.take_succ_cons, List.map_cons,
          List.map_cons, beforeChar_cons_of_ne hstop]

/-- A part that is longer in the whole text goes on where the text was cut. -/
theorem prefix_of_beforeChar {stop : Char} {s start : List Char} (h : beforeChar stop s = start)
    (hne : s ≠ start) : start ++ [stop] <+: s := by
  induction s generalizing start with
  | nil => exact absurd h hne
  | cons c s ih =>
    by_cases hc : c = stop
    · rw [hc, beforeChar_cons_self] at h
      rw [← h, hc]
      exact ⟨s, rfl⟩
    · rw [beforeChar_cons_of_ne hc] at h
      subst h
      exact (List.cons_prefix_cons.2 ⟨rfl, ih rfl fun heq => hne (by rw [← heq])⟩)

/-! ## Characters of texts made of texts -/

/-- What holds of the characters of some texts and of the separator holds of those of the joined text. -/
theorem forall_mem_joinWith {p : Char → Prop} {separator : List Char} (hseparator : ∀ c ∈ separator, p c)
    {parts : List (List Char)} (h : ∀ part ∈ parts, ∀ c ∈ part, p c) :
    ∀ c ∈ joinWith separator parts, p c := by
  induction parts with
  | nil => exact fun c hc => absurd hc List.not_mem_nil
  | cons part parts ih =>
    obtain ⟨hpart, hparts⟩ := List.forall_mem_cons.1 h
    cases parts with
    | nil => exact hpart
    | cons next parts =>
      exact List.forall_mem_append.2 ⟨List.forall_mem_append.2 ⟨hpart, hseparator⟩, ih hparts⟩

/-- What holds of the characters of a text that stay and of what is put in holds of those of the new
text. -/
theorem forall_mem_replaceChar {p : Char → Prop} {replacement s : List Char}
    (hreplacement : ∀ c ∈ replacement, p c) (h : ∀ c ∈ s, c ≠ mark → p c) :
    ∀ c ∈ replaceChar mark replacement s, p c := by
  intro c hc
  obtain ⟨d, hd, hcd⟩ := List.mem_flatMap.1 hc
  split at hcd
  · exact hreplacement c hcd
  · next hne =>
    rw [List.mem_singleton.1 hcd]
    exact h d hd hne

theorem not_mem_replaceChar {replacement : List Char} (h : mark ∉ replacement) (s : List Char) :
    mark ∉ replaceChar mark replacement s := by
  have hall : ∀ c ∈ replaceChar mark replacement s, c ≠ mark :=
    forall_mem_replaceChar (fun c hc => ne_of_mem_of_not_mem hc h) fun _ _ hne => hne
  exact fun hmem => hall mark hmem rfl

end Assessment.Text
