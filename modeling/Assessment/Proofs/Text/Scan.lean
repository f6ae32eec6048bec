import Assessment.Text.Cut
import Assessment.Text.Scan

/-!
# Proofs: searching texts

What a search finds in a text of which the beginning is known: how far a run of one kind goes, the first
occurrence of a character, and `Recognizer.findAll` one step at a time.
-/

namespace Assessment.Text

/-- A property of all characters of a text is decided on the text, and not on all characters. -/
instance (priority := high) decidableForallMem (p : Char → Prop) [DecidablePred p] (s : List Char) :
    Decidable (∀ c ∈ s, p c) := List.decidableBAll p s

/-! ## Runs -/

section Runs

variable {α : Type} {p : α → Bool}

/-- There is no run where the first element is of another kind. -/
theorem span_of_head? {rest : List α} (h : ∀ a ∈ rest.head?, p a = false) :
    rest.takeWhile p = [] ∧ rest.dropWhile p = rest := by
  cases rest with
  | nil => exact ⟨rfl, rfl⟩
  | cons a rest =>
    have ha : ¬ p a = true := ne_true_of_eq_false (h a rfl)
    exact ⟨List.takeWhile_cons_of_neg ha, List.dropWhile_cons_of_neg ha⟩

/-- A run goes on up to what does not begin with an element of its kind. -/
theorem span_append {run rest : List α} (hrun : ∀ a ∈ run, p a = true)
    (hrest : ∀ a ∈ rest.head?, p a = false) :
    (run ++ rest).takeWhile p = run ∧ (run ++ rest).dropWhile p = rest := by
  obtain ⟨htake, hdrop⟩ := span_of_head? hrest
  rw [List.takeWhile_append_of_pos hrun, List.dropWhile_append_of_pos hrun, htake, hdrop,
    List.append_nil]
  exact ⟨rfl, rfl⟩

theorem span_append_cons {run : List α} (hrun : ∀ a ∈ run, p a = true) {a : α} (ha : p a = false)
    (rest : List α) :
    (run ++ a :: rest).takeWhile p = run ∧ (run ++ a :: rest).dropWhile p = a :: rest :=
  span_append hrun fun _ hb => Option.some.inj hb ▸ ha

end Runs

/-! ## Characters and texts -/

/-- A text is cut at the first occurrence of a character. -/
theorem cutAtChar?_append_cons {mark : Char} {before : List Char} (h : mark ∉ before)
    (rest : List Char) : cutAtChar? mark (before ++ mark :: rest) = some (before, rest) := by
  induction before with
  | nil => simp [cutAtChar?]
  | cons c before ih =>
    simp only [List.mem_cons, not_or] at h
    simp [cutAtChar?, Ne.symm h.1, ih h.2]

/-- What comes before the first occurrence of a character does not hold it. -/
theorem not_mem_of_cutAtChar? {mark : Char} {s before rest : List Char}
    (h : cutAtChar? mark s = some (before, rest)) : mark ∉ before := by
  induction s generalizing before with
  | nil => cases h
  | cons c s ih =>
    simp only [cutAtChar?] at h
    split at h
    · cases h
      simp
    · next hc =>
      obtain ⟨⟨b, r⟩, hbr, hp⟩ := Option.map_eq_some_iff.1 h
      cases hp
      simp only [List.mem_cons, not_or]
      exact ⟨Ne.symm hc, ih hbr⟩

/-- A non-empty end of a text that is followed by a character has that character last. -/
theorem exists_of_append_eq_concat {before t s : List Char} {last : Char}
    (h : before ++ t = s ++ [last]) (ht : t ≠ []) : ∃ r, t = r ++ [last] ∧ s = before ++ r := by
  rw [← List.dropLast_concat_getLast ht, ← List.append_assoc] at h
  obtain ⟨rfl, hlast⟩ := List.append_inj' h rfl
  refine ⟨t.dropLast, ?_, rfl⟩
  rw [← hlast, List.dropLast_concat_getLast ht]

/-- A beginning that does not hold a character is looked for before that character. -/
theorem after?_append_cons {mark before : List Char} {c : Char} (h : c ∉ mark) (rest : List Char) :
    after? mark (before ++ c :: rest) = (after? mark before).map (· ++ c :: rest) := by
  induction mark generalizing before with
  | nil => rfl
  | cons a mark ih =>
    rw [List.mem_cons, not_or] at h
    cases before with
    | nil => simp [after?, Ne.symm h.1]
    | cons b before =>
      by_cases hab : a = b
      · simp [after?, hab, ih h.2]
      · simp [after?, hab]

/-- A text occurs where it stands. -/
theorem occursIn_append (mark before rest : List Char) : occursIn mark (before ++ mark ++ rest) := by
  unfold occursIn
  induction before with
  | nil =>
    have hafter : after? mark (mark ++ rest) = some rest := after?_eq_some_iff.2 rfl
    rw [List.nil_append]
    cases hs : mark ++ rest with
    | nil => simp [cutAt?, (List.append_eq_nil_iff.1 hs).1]
    | cons c s =>
      rw [hs] at hafter
      simp [cutAt?, hafter]
  | cons c before ih =>
    rw [List.cons_append, List.cons_append, cutAt?]
    split
    · rfl
    · simpa using ih

/-- What a piece is, if it is something recognised. -/
def Piece.found? {α : Type} : Piece α → Option α
  | .char _ => none
  | .found a => some a

/-- What is found among some pieces is one of them. -/
theorem Piece.found_mem {α : Type} {pieces : List (Piece α)} {a : α}
    (h : a ∈ pieces.filterMap Piece.found?) : .found a ∈ pieces := by
  obtain ⟨piece, hpiece, hfound⟩ := List.mem_filterMap.1 h
  cases piece with
  | char c => cases hfound
  | found b =>
    obtain rfl := Option.some.inj hfound
    exact hpiece

namespace Recognizer

variable {α : Type} (p : Recognizer α)

theorem findAll_eq (s : List Char) : p.findAll s = (p.pieces s).filterMap Piece.found? :=
  rfl

@[simp] theorem findAll_nil : p.findAll [] = [] := by
  simp [findAll]

/-- What is recognised at the start is found first. -/
theorem findAll_of_run {s r : List Char} {a : α} (h : p.run s = some (a, r)) :
    p.findAll s = a :: p.findAll r := by
  simp [findAll, p.pieces_of_run h]

/-- A character at which nothing is recognised is passed over. -/
theorem findAll_of_not_run {c : Char} {s : List Char} (h : p.run (c :: s) = none) :
    p.findAll (c :: s) = p.findAll s := by
  simp [findAll, p.pieces_of_not_run h]

/-! ## Texts with known pieces -/

variable {p}

/-- A recogniser that matches only at opening brackets passes over text without one. -/
theorem pieces_append_of_starts (hp : ∀ {c : Char} {s : List Char}, c ≠ '<' → p.run (c :: s) = none)
    {before : List Char} (h : ∀ c ∈ before, c ≠ '<') (s : List Char) :
    p.pieces (before ++ s) = before.map .char ++ p.pieces s := by
  induction before with
  | nil => rfl
  | cons c before ih =>
    obtain ⟨hc, h⟩ := List.forall_mem_cons.1 h
    rw [List.cons_append, p.pieces_of_not_run (hp hc), ih h]
    rfl

theorem findAll_of_pieces {before s t : List Char}
    (h : p.pieces s = before.map .char ++ p.pieces t) : p.findAll s = p.findAll t := by
  unfold findAll
  rw [h, List.filterMap_append, List.filterMap_map]
  simp

theorem replace_of_pieces {before s t : List Char} (f : α → List Char)
    (h : p.pieces s = before.map .char ++ p.pieces t) :
    p.replace f s = before ++ p.replace f t := by
  unfold replace
  rw [h, List.flatMap_append, List.flatMap_map]
  simp

/-- What is among the pieces of a text was recognised somewhere. -/
theorem exists_run_of_found {s : List Char} {a : α} (h : .found a ∈ p.pieces s) :
    ∃ t rest, p.run t = some (a, rest) := by
  induction s using pieces.induct p with
  | case1 => simp at h
  | case2 c s b rest hrun ih =>
    rw [p.pieces_of_run hrun] at h
    rcases List.mem_cons.1 h with heq | h
    · cases heq
      exact ⟨_, _, hrun⟩
    · exact ih h
  | case3 c s hrun ih =>
    rw [p.pieces_of_not_run hrun] at h
    rcases List.mem_cons.1 h with heq | h
    · cases heq
    · exact ih h

theorem replace_of_run {s rest : List Char} {a : α} (f : α → List Char)
    (h : p.run s = some (a, rest)) : p.replace f s = f a ++ p.replace f rest := by
  unfold replace
  rw [p.pieces_of_run h, List.flatMap_cons]

end Recognizer

end Assessment.Text
