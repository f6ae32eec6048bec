import Assessment.Proofs.Html.Tags
import Assessment.Proofs.Markup.Shown
import Assessment.Proofs.Text.Lower

/-!
# Proofs: reading text that is no markup

Inside of an element whose text is no markup, all is text up to the end tag of the element. As long as
there is such an end tag, the text is read character by character (`readFrom_append`), and a tag is text
or ends the element (`readFrom_tag`). The end tag that the element is written with does end it
(`EndsRaw.readFrom`).
-/

namespace Assessment.Html

open Assessment.Markup Assessment.Text

/-! ## The names of such elements -/

/-- The letters of the names of elements whose text is no markup. -/
def rawLetters : List Char := "scriptyle".toList

theorem mem_rawLetters_of_isRaw {name : List Char} (h : isRaw name = true) :
    ∀ c ∈ name, c ∈ rawLetters :=
  (by decide : ∀ name ∈ rawNames, ∀ c ∈ name, c ∈ rawLetters) name (List.contains_iff_mem.1 h)

theorem mem_of_ofNat_mem_rawLetters {n : Nat} (h : Char.ofNat n ∈ rawLetters) :
    n ∈ rawLetters.map Char.toNat := by
  by_cases hvalid : n.isValidChar
  · rw [← toNat_ofNat hvalid]
    exact List.mem_map_of_mem h
  · have hzero : Char.ofNat n = '\x00' := dif_neg hvalid
    rw [hzero] at h
    exact absurd h (by decide)

/-- Only capitals of ASCII become one of these letters. -/
theorem capital_of_rawLetter : ∀ run ∈ capitalRuns, 0x7A < run.lower ∨
    (run.first = 0x41 ∧ run.lower = 0x61) ∨ (run.first = run.last ∧ run.lower = 0x6B) := by
  decide +kernel

theorem foldLetter_of_lowerCode {c : Char} (h : Char.ofNat (lowerCode c.toNat) ∈ rawLetters) :
    c.isAlpha = true ∧ Step.foldLetter c = Char.ofNat (lowerCode c.toNat) := by
  have hmem := mem_of_ofNat_mem_rawLetters h
  rcases lowerCode_cases c.toNat with heq | ⟨run, hrun, ⟨hfirst, hlast⟩, -, heq⟩
  · rw [heq, Char.ofNat_toNat] at h ⊢
    exact (by decide : ∀ d ∈ rawLetters, d.isAlpha = true ∧ Step.foldLetter d = d) c h
  · rw [heq] at hmem ⊢
    have hrange := (by decide : ∀ n ∈ rawLetters.map Char.toNat, n ≤ 0x7A ∧ n ≠ 0x6B) _ hmem
    rcases capital_of_rawLetter run hrun with hlate | ⟨hcapital, hlower⟩ | ⟨hone, hlower⟩
    · omega
    · have hcode : c.toNat = run.lower + (c.toNat - run.first) - 0x20 := by omega
      have hletters : ∀ n ∈ rawLetters.map Char.toNat, (Char.ofNat (n - 0x20)).isAlpha = true ∧
          Step.foldLetter (Char.ofNat (n - 0x20)) = Char.ofNat n := by decide
      have hletter := hletters _ hmem
      rwa [← hcode, Char.ofNat_toNat] at hletter
    · omega

/-- A text that is such a name in lower case is one where the case of letters does not count. -/
theorem map_foldLetter_of_lowerAfter {before s : List Char}
    (h : ∀ d ∈ lowerAfter before s, d ∈ rawLetters) :
    (∀ c ∈ s, c.isAlpha = true) ∧ s.map Step.foldLetter = lowerAfter before s := by
  induction s generalizing before with
  | nil => exact ⟨fun c hc => absurd hc List.not_mem_nil, rfl⟩
  | cons c s ih =>
    rw [lowerAfter] at h ⊢
    obtain ⟨hhere, hrest⟩ := List.forall_mem_append.1 h
    obtain ⟨hletters, hsame⟩ := ih hrest
    by_cases hsigma : c.toNat = 0x3A3
    · rw [if_pos hsigma] at hhere
      have hfirst := hhere _ List.mem_cons_self
      split at hfirst
      · exact absurd hfirst (by decide)
      · exact absurd hfirst (by decide)
    by_cases hdotless : c.toNat = 0x130
    · rw [if_neg hsigma, if_pos hdotless] at hhere
      exact absurd (hhere _ (List.mem_cons_of_mem _ List.mem_cons_self)) (by decide)
    · rw [if_neg hsigma, if_neg hdotless] at hhere ⊢
      obtain ⟨hletter, hfold⟩ := foldLetter_of_lowerCode (hhere _ List.mem_cons_self)
      refine ⟨List.forall_mem_cons.2 ⟨hletter, hletters⟩, ?_⟩
      rw [List.map_cons, hsame, hfold, List.singleton_append]

/-! ## The ends of such elements -/

/-- The tag is the end tag of the element `name`, whose text is no markup. -/
def EndsRaw (name tag : List Char) : Prop :=
  isRaw name = true ∧ ∃ inside, tag = "</".toList ++ inside ++ ['>'] ∧ lower inside = name

/-- An end tag of the element comes later. -/
def EndsLater (name s : List Char) : Prop := (splitWhere? (Step.startsRawEnd name) s).isSome = true

theorem EndsLater.cons {name s : List Char} (h : EndsLater name s) (c : Char) :
    EndsLater name (c :: s) := by
  unfold EndsLater splitWhere?
  split
  · rfl
  · rwa [Option.isSome_map]

theorem EndsLater.append {name s : List Char} (h : EndsLater name s) (before : List Char) :
    EndsLater name (before ++ s) := by
  induction before with
  | nil => exact h
  | cons c before ih => exact ih.cons c

theorem splitWhere?_of_startsRawEnd {name s : List Char} (h : Step.startsRawEnd name s = true) :
    splitWhere? (Step.startsRawEnd name) s = some ([], s) := by
  cases s with
  | nil => cases h
  | cons c s => rw [splitWhere?, if_pos h]

section Raw

variable {name tag s : List Char} {b : Builder}

/-- The name in the end tag, as it is written there. -/
theorem EndsRaw.exists_inside (h : EndsRaw name tag) : ∃ inside, tag = "</".toList ++ inside ++ ['>'] ∧
    lower inside = name ∧ inside.map Step.foldLetter = name ∧ ∀ c ∈ inside, c.isAlpha = true := by
  obtain ⟨hraw, inside, rfl, hlower⟩ := h
  obtain ⟨hletters, hfold⟩ := @map_foldLetter_of_lowerAfter [] inside
    fun d hd => mem_rawLetters_of_isRaw hraw d (hlower ▸ hd)
  exact ⟨inside, rfl, hlower, hfold.trans hlower, hletters⟩

theorem EndsRaw.startsRawEnd (h : EndsRaw name tag) (rest : List Char) :
    Step.startsRawEnd name (tag ++ rest) = true := by
  obtain ⟨inside, rfl, -, rfl, hletters⟩ := h.exists_inside
  have hafter : after? "</".toList ("</".toList ++ inside ++ ['>'] ++ rest) =
      some (inside ++ '>' :: rest) := after?_eq_some_iff.2 (by simp)
  have hsolid : (inside ++ '>' :: rest).dropWhile isBlank = inside ++ '>' :: rest := by
    cases inside with
    | nil => exact List.dropWhile_cons_of_neg (by decide)
    | cons c inside =>
      have hc := isBlank_of_isAlpha (hletters c List.mem_cons_self)
      exact List.dropWhile_cons_of_neg (ne_true_of_eq_false hc)
  unfold Step.startsRawEnd
  rw [hafter]
  dsimp only
  rw [hsolid, List.length_map, List.take_left, List.drop_left, beq_self_eq_true, Bool.true_and,
    List.dropWhile_cons_of_neg (by decide)]
  rfl

theorem EndsRaw.endsLater (h : EndsRaw name tag) (rest : List Char) : EndsLater name (tag ++ rest) := by
  rw [EndsLater, splitWhere?_of_startsRawEnd (h.startsRawEnd rest)]
  rfl

/-- The end tag of the element is no text. -/
theorem rawEndTagOf_eq {inside : List Char} (hne : inside ≠ [])
    (hletters : ∀ c ∈ inside, c.isAlpha = true) (hlower : lower inside = name) :
    Markup.rawEndTagOf name inside = .endTag name := by
  have hname : Markup.isEndName inside = true := by
    cases inside with
    | nil => exact absurd rfl hne
    | cons c inside =>
      obtain ⟨hc, hinside⟩ := List.forall_mem_cons.1 hletters
      have hpart : ∀ d ∈ inside, Markup.isEndNameChar d = true := fun d hd => by
        simp [Markup.isEndNameChar, Char.isAlphanum, hinside d hd]
      rw [Markup.isEndName, hc, Bool.true_and, List.all_eq_true]
      exact hpart
  have htrim : trim inside = inside := trim_of_forall fun c hc => isBlank_of_isAlpha (hletters c hc)
  simp [Markup.rawEndTagOf, htrim, hname, hlower]

/-- What looks like an end tag ends the element, or it is text. -/
theorem rawEndTagOf_cases (name inside : List Char) :
    Markup.rawEndTagOf name inside = .endTag name ∨
      Markup.rawEndTagOf name inside = .text ("</".toList ++ inside ++ ['>']) := by
  unfold Markup.rawEndTagOf
  dsimp only
  split
  · exact .inl rfl
  · exact .inr rfl

/-- What is read where an end tag of the element seems to start. -/
theorem inRaw_of_startsRawEnd {inside : List Char} (hinside : '>' ∉ inside)
    (h : Step.startsRawEnd name ("</".toList ++ inside ++ ['>'] ++ s) = true) :
    Step.inRaw name ("</".toList ++ inside ++ ['>'] ++ s) =
      .read (Markup.rawEndTagOf name inside) s := by
  have hafter : after? "</".toList ("</".toList ++ inside ++ ['>'] ++ s) =
      some (inside ++ '>' :: s) := after?_eq_some_iff.2 (by simp)
  rw [Step.inRaw, splitWhere?_of_startsRawEnd h]
  dsimp only
  rw [hafter]
  dsimp only
  rw [cutAtChar?_append_cons hinside]

/-- The end tag of an element ends it. -/
theorem EndsRaw.readFrom (h : EndsRaw name tag) (b : Builder) (s : List Char) :
    readFrom (some name) b (tag ++ s) = Html.readFrom none (b.take (.endTag name)) s := by
  have hstarts := h.startsRawEnd s
  have hraw := h.1
  obtain ⟨inside, rfl, hlower, hfold, hletters⟩ := h.exists_inside
  have hne : inside ≠ [] := by
    rintro rfl
    rw [← hfold] at hraw
    cases hraw
  have hbracket : '>' ∉ inside := fun hmem => absurd (hletters _ hmem) (by decide)
  have hstep := inRaw_of_startsRawEnd hbracket hstarts
  rw [rawEndTagOf_eq hne hletters hlower] at hstep
  exact readFrom_of_read hstep

/-! ## Text inside of such elements -/

/-- A character is text where no end tag of the element starts, if one comes later. -/
theorem readFrom_cons {c : Char} (hnot : Step.startsRawEnd name (c :: s) = false)
    (hlater : EndsLater name s) :
    readFrom (some name) b (c :: s) = readFrom (some name) (b.take (.text [c])) s := by
  obtain ⟨⟨before, rest⟩, hsplit⟩ := Option.isSome_iff_exists.1 hlater
  have hfirst : Step.inRaw name (c :: s) = .read (.text (c :: before)) rest := by
    rw [Step.inRaw, splitWhere?, if_neg (ne_true_of_eq_false hnot), hsplit]
    rfl
  have hleft : readFrom (some name) b (c :: s) =
      readFrom (some name) (b.take (.text (c :: before))) rest := readFrom_of_read hfirst
  cases before with
  | nil =>
    rw [hleft, splitWhere?_append hsplit]
    rfl
  | cons d before =>
    have hsecond : Step.inRaw name s = .read (.text (d :: before)) rest := by
      rw [Step.inRaw, hsplit]
    have hright : readFrom (some name) (b.take (.text [c])) s =
        readFrom (some name) ((b.take (.text [c])).take (.text (d :: before))) rest :=
      readFrom_of_read hsecond
    rw [hleft, hright, take_text_append, List.singleton_append]

/-- Text without an opening bracket is text. -/
theorem readFrom_append {u : List Char} (hu : ∀ c ∈ u, c ≠ '<') (hlater : EndsLater name s) :
    readFrom (some name) b (u ++ s) = readFrom (some name) (b.take (.text u)) s := by
  induction u generalizing b with
  | nil => rw [take_text_nil, List.nil_append]
  | cons c u ih =>
    obtain ⟨hc, hu⟩ := List.forall_mem_cons.1 hu
    have hnot : Step.startsRawEnd name (c :: (u ++ s)) = false := by
      have hnone : after? "</".toList (c :: (u ++ s)) = none := if_neg (Ne.symm hc)
      rw [Step.startsRawEnd, hnone]
    rw [List.cons_append, readFrom_cons hnot (hlater.append u), ih hu, take_text_append,
      List.singleton_append]

/-- A tag that does not look like an end tag of the element is text. -/
theorem readFrom_textTag (htag : IsTag tag) (hnot : Step.startsRawEnd name (tag ++ s) = false)
    (hlater : EndsLater name s) :
    readFrom (some name) b (tag ++ s) = readFrom (some name) (b.take (.text tag)) s := by
  obtain ⟨tail, rfl, htail⟩ := htag.exists_tail
  have hfirst : Step.startsRawEnd name ('<' :: (tail ++ s)) = false := hnot
  rw [List.cons_append, readFrom_cons hfirst (hlater.append tail), readFrom_append htail hlater,
    take_text_append, List.singleton_append]

/-- A tag is text, or it ends the element. -/
theorem readFrom_tag (htag : IsTag tag) (hlater : EndsLater name s) :
    readFrom (some name) b (tag ++ s) = readFrom (some name) (b.take (.text tag)) s ∨
      readFrom (some name) b (tag ++ s) = readFrom none (b.take (.endTag name)) s := by
  by_cases hstarts : Step.startsRawEnd name (tag ++ s) = true
  · obtain ⟨inside, rfl, hinside⟩ : ∃ inside, tag = "</".toList ++ inside ++ ['>'] ∧ '>' ∉ inside := by
      obtain ⟨hbrackets⟩ := htag
      rename_i inside
      cases inside with
      | nil => cases hstarts
      | cons c inside =>
        obtain rfl : c = '/' := by
          by_contra hc
          have hnone : after? "</".toList ('<' :: (c :: inside) ++ ['>'] ++ s) = none := by
            simp [after?, Ne.symm hc]
          rw [Step.startsRawEnd, hnone] at hstarts
          cases hstarts
        exact ⟨inside, rfl, fun hmem => (hbrackets _ (List.mem_cons_of_mem _ hmem)).2 rfl⟩
    have hstep := inRaw_of_startsRawEnd hinside hstarts
    rcases rawEndTagOf_cases name inside with hend | htext
    · rw [hend] at hstep
      exact .inr (readFrom_of_read hstep)
    · rw [htext] at hstep
      exact .inl (readFrom_of_read hstep)
  · exact .inl (readFrom_textTag htag (eq_false_of_ne_true hstarts) hlater)

end Raw

end Assessment.Html
