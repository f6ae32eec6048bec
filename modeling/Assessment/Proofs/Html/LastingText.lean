import Assessment.Proofs.Html.LastingTags
import Assessment.Proofs.Html.RawText

/-!
# Proofs: text that is no markup and lasts

Inside of an element whose text is no markup, a text may look like the end tag of the element without
being it. What was read as such text is read as the same text before the end tag that is printed
(`StaysText.readFrom`): what looks like an end tag starts and ends in the text, and does so with any text
after it.
-/

namespace Assessment.Html

open Assessment.Markup Assessment.Text

/-! ## What looks like an end tag -/

theorem ne_bracket_of_foldLetter {c : Char} (h : Step.foldLetter c ∈ rawLetters) :
    isBlank c = false ∧ c ≠ '<' ∧ c ≠ '>' := by
  by_cases hascii : c.toNat < 0x80
  · exact @forall_ascii (fun d => Step.foldLetter d ∈ rawLetters →
      isBlank d = false ∧ d ≠ '<' ∧ d ≠ '>') (by decide) c hascii h
  · have hspecial : c ∈ ['İ', 'ı', 'ſ', '\u212A'] := by
      by_contra hmem
      simp only [List.mem_cons, List.not_mem_nil, or_false, not_or] at hmem
      obtain ⟨hdotted, hdotless, hlong, hkelvin⟩ := hmem
      have hfold : Step.foldLetter c = c := by
        simp [Step.foldLetter, hdotted, hdotless, hlong, hkelvin, toLower_of_not_ascii hascii]
      rw [hfold] at h
      exact hascii ((by decide : ∀ d ∈ rawLetters, d.toNat < 0x80) c h)
    exact (by decide : ∀ d ∈ ['İ', 'ı', 'ſ', '\u212A'], isBlank d = false ∧ d ≠ '<' ∧ d ≠ '>') c hspecial

section Raw

variable {name : List Char} (hraw : isRaw name = true)

include hraw

theorem bracketless_of_map_foldLetter {letters : List Char} (h : letters.map Step.foldLetter = name) :
    ∀ c ∈ letters, isBlank c = false ∧ c ≠ '<' ∧ c ≠ '>' := by
  intro c hc
  refine ne_bracket_of_foldLetter (mem_rawLetters_of_isRaw hraw _ ?_)
  rw [← h]
  exact List.mem_map_of_mem hc

/-- What looks like an end tag of the element has the letters of the name in it, and nothing else but
white space. -/
theorem startsRawEnd_iff {s : List Char} : Step.startsRawEnd name s = true ↔
    ∃ before letters after rest, isBlankText before ∧ letters.map Step.foldLetter = name ∧
      isBlankText after ∧ s = "</".toList ++ (before ++ (letters ++ (after ++ '>' :: rest))) := by
  unfold Step.startsRawEnd
  constructor
  · intro h
    split at h
    · next t ht =>
      obtain ⟨hletters, hhead⟩ := Bool.and_eq_true_iff.1 h
      obtain ⟨rest, hrest⟩ := List.head?_eq_some_iff.1 (eq_of_beq hhead)
      refine ⟨t.takeWhile isBlank, (t.dropWhile isBlank).take name.length,
        ((t.dropWhile isBlank).drop name.length).takeWhile isBlank, rest,
        List.all_takeWhile, eq_of_beq hletters, List.all_takeWhile, ?_⟩
      rw [← hrest, List.takeWhile_append_dropWhile, List.take_append_drop,
        List.takeWhile_append_dropWhile]
      exact after?_eq_some_iff.1 ht
    · cases h
  · rintro ⟨before, letters, after, rest, hbefore, hletters, hafter, rfl⟩
    have hsolid := bracketless_of_map_foldLetter hraw hletters
    have hstart : (before ++ (letters ++ (after ++ '>' :: rest))).dropWhile isBlank =
        letters ++ (after ++ '>' :: rest) := by
      cases letters with
      | nil =>
        rw [← hletters] at hraw
        cases hraw
      | cons c letters =>
        exact (span_append_cons (List.all_eq_true.1 hbefore) (hsolid c List.mem_cons_self).1 _).2
    have hend : (after ++ '>' :: rest).dropWhile isBlank = '>' :: rest :=
      (span_append_cons (List.all_eq_true.1 hafter) (by decide) rest).2
    have hlength : name.length = letters.length := by rw [← hletters, List.length_map]
    have hmark : after? "</".toList ("</".toList ++ (before ++ (letters ++ (after ++ '>' :: rest)))) =
        some (before ++ (letters ++ (after ++ '>' :: rest))) := after?_eq_some_iff.2 rfl
    rw [hmark]
    dsimp only
    rw [hstart, hlength, List.take_left, List.drop_left, hletters, hend, beq_self_eq_true]
    rfl

/-- What looks like an end tag is one tag, whatever follows. -/
theorem exists_inside_of_startsRawEnd {s : List Char} (h : Step.startsRawEnd name s = true) :
    ∃ inside rest, s = "</".toList ++ inside ++ ['>'] ++ rest ∧ Unbracketed inside ∧
      ∀ other, Step.startsRawEnd name ("</".toList ++ inside ++ ['>'] ++ other) = true := by
  obtain ⟨before, letters, after, rest, hbefore, hletters, hafter, rfl⟩ := (startsRawEnd_iff hraw).1 h
  have hblank {t : List Char} (ht : isBlankText t) : Unbracketed t := by
    intro c hc
    have hc := List.all_eq_true.1 ht c hc
    constructor
    · rintro rfl
      exact absurd hc (by decide)
    · rintro rfl
      exact absurd hc (by decide)
  have hsolid : Unbracketed letters := fun c hc => (bracketless_of_map_foldLetter hraw hletters c hc).2
  refine ⟨before ++ letters ++ after, rest, by simp, ((hblank hbefore).append hsolid).append (hblank hafter),
    fun other => (startsRawEnd_iff hraw).2
      ⟨before, letters, after, other, hbefore, hletters, hafter, by simp⟩⟩

/-- What looks like an end tag and starts before a bracket ends before it. -/
theorem startsRawEnd_of_append_cons {s rest : List Char} (hne : s ≠ [])
    (h : Step.startsRawEnd name (s ++ '<' :: rest) = true) (other : List Char) :
    Step.startsRawEnd name (s ++ other) = true := by
  obtain ⟨inside, after, heq, hinside, hall⟩ := exists_inside_of_startsRawEnd hraw h
  rcases List.append_eq_append_iff.1 heq with ⟨more, hmore, hrest⟩ | ⟨more, rfl, -⟩
  · obtain ⟨c, s, rfl⟩ := List.exists_cons_of_ne_nil hne
    cases more with
    | nil =>
      rw [List.append_nil] at hmore
      rw [← hmore]
      exact hall other
    | cons d more =>
      -- Then the bracket stands in the tag, after its beginning.
      obtain ⟨rfl, -⟩ := List.cons.inj hrest
      have htail : '/' :: (inside ++ ['>']) = s ++ '<' :: more := (List.cons.inj hmore).2
      have hmem : '<' ∈ '/' :: (inside ++ ['>']) := by
        rw [htail]
        exact List.mem_append_right _ List.mem_cons_self
      rcases List.mem_append.1 (List.mem_of_ne_of_mem (by decide) hmem) with hmem | hmem
      · exact absurd rfl (hinside _ hmem).1
      · exact absurd hmem (by decide)
  · rw [List.append_assoc]
    exact hall _

end Raw

/-! ## Text inside of an element -/

/-- The tag looks like the end tag of the element `name` but is text. -/
def IsFakeEnd (name tag : List Char) : Prop :=
  ∃ inside, tag = "</".toList ++ inside ++ ['>'] ∧ Unbracketed inside ∧
    Markup.rawEndTagOf name inside = .text tag

theorem IsFakeEnd.length_pos {name tag : List Char} (h : IsFakeEnd name tag) : 0 < tag.length := by
  obtain ⟨inside, rfl, -⟩ := h
  exact Nat.succ_pos _

/-- What looks like an end tag of the element `name` and starts in the text, before the text `rest`, is
text and ends there. -/
def StaysText (name text rest : List Char) : Prop :=
  ∀ t, t <:+ text → t ≠ [] → Step.startsRawEnd name (t ++ rest) = true →
    ∃ tag more, t = tag ++ more ∧ IsFakeEnd name tag

theorem staysText_nil (name rest : List Char) : StaysText name [] rest :=
  fun _ ht hne _ => absurd (List.suffix_nil.1 ht) hne

/-- Text without an opening bracket stays text. -/
theorem staysText_of_not_mem {name text : List Char} (h : '<' ∉ text) (hraw : isRaw name = true)
    (rest : List Char) : StaysText name text rest := by
  intro t ht hne hstarts
  obtain ⟨inside, after, heq, -⟩ := exists_inside_of_startsRawEnd hraw hstarts
  obtain ⟨c, t, rfl⟩ := List.exists_cons_of_ne_nil hne
  obtain ⟨rfl, -⟩ := List.cons.inj heq
  exact absurd (ht.subset List.mem_cons_self) h

namespace StaysText

variable {name text rest : List Char}

theorem of_suffix {t : List Char} (h : StaysText name text rest) (ht : t <:+ text) :
    StaysText name t rest :=
  fun u hu => h u (hu.trans ht)

/-- What is read as text where no end tag starts stays text. -/
theorem of_splitWhere? {s : List Char}
    (h : splitWhere? (Step.startsRawEnd name) s = some (text, rest)) : StaysText name text rest := by
  induction s generalizing text with
  | nil => cases h
  | cons c s ih =>
    rw [splitWhere?] at h
    split at h
    · cases h
      exact staysText_nil name _
    · next hnot =>
      obtain ⟨⟨before, after⟩, hbefore, hpair⟩ := Option.map_eq_some_iff.1 h
      cases hpair
      intro t ht hne hstarts
      rcases List.suffix_cons_iff.1 ht with rfl | ht
      · rw [splitWhere?_append hbefore] at hnot
        exact absurd hstarts hnot
      · exact ih hbefore t ht hne hstarts

/-- Text goes on being text. -/
theorem append {more : List Char} (h : StaysText name text (more ++ rest))
    (hmore : StaysText name more rest) : StaysText name (text ++ more) rest := by
  intro t ⟨before, ht⟩ hne hstarts
  rcases List.append_eq_append_iff.1 ht with ⟨start, htext, rfl⟩ | ⟨start, -, hend⟩
  · cases start with
    | nil => exact hmore _ (List.suffix_refl _) hne hstarts
    | cons c start =>
      rw [List.append_assoc] at hstarts
      obtain ⟨tag, after, heq, hfake⟩ := h _ ⟨before, htext.symm⟩ (List.cons_ne_nil c start) hstarts
      exact ⟨tag, after ++ more, by rw [heq, List.append_assoc], hfake⟩
  · exact hmore t ⟨start, hend.symm⟩ hne hstarts

/-- Text stays text where nothing comes after it. -/
theorem before_nil (h : StaysText name text rest) (hraw : isRaw name = true) : StaysText name text [] := by
  intro t ht hne hstarts
  rw [List.append_nil] at hstarts
  obtain ⟨inside, after, rfl, -, hall⟩ := exists_inside_of_startsRawEnd hraw hstarts
  refine h _ ht hne ?_
  rw [List.append_assoc]
  exact hall _

/-- Text stays text before a tag. -/
theorem before_tag (h : StaysText name text rest) (hraw : isRaw name = true) (other : List Char) :
    StaysText name text ('<' :: other) :=
  fun t ht hne hstarts => h t ht hne (startsRawEnd_of_append_cons hraw hne hstarts rest)

end StaysText

/-- What looks like an end tag but is text is read as that text. -/
theorem readFrom_of_isFakeEnd {name fake : List Char} (h : IsFakeEnd name fake) (b : Builder)
    {s : List Char} (hstarts : Step.startsRawEnd name (fake ++ s) = true) :
    readFrom (some name) b (fake ++ s) = readFrom (some name) (b.take (.text fake)) s := by
  obtain ⟨inside, rfl, hinside, htoken⟩ := h
  have hstep := inRaw_of_startsRawEnd (fun hmem => (hinside _ hmem).2 rfl) hstarts
  rw [htoken] at hstep
  exact readFrom_of_read hstep

section Raw

variable {name : List Char} (hraw : isRaw name = true)

include hraw

/-- A text that looks like an end tag but is none stays text. -/
theorem staysText_of_isFakeEnd {tag : List Char} (h : IsFakeEnd name tag) (rest : List Char) :
    StaysText name tag rest := by
  obtain ⟨inside, rfl, hinside, htoken⟩ := h
  intro t ht hne hstarts
  rcases List.suffix_cons_iff.1 ht with rfl | ht
  · exact ⟨_, [], (List.append_nil _).symm, inside, rfl, hinside, htoken⟩
  · have hrest : '<' ∉ '/' :: (inside ++ ['>']) := by
      simpa using fun hmem => (hinside _ hmem).1 rfl
    exact (staysText_of_not_mem hrest hraw rest) t ht hne hstarts

/-- Inside of an element whose text is no markup, a step of the reading comes to the end of the element
or reads text that stays text. -/
theorem inRaw_cases {s rest : List Char} {token : Token} (h : Step.inRaw name s = .read token rest) :
    token = .endTag name ∨
      ∃ text, token = .text text ∧ s = text ++ rest ∧ StaysText name text rest := by
  by_cases hstarts : Step.startsRawEnd name s = true
  · obtain ⟨inside, after, rfl, hinside, -⟩ := exists_inside_of_startsRawEnd hraw hstarts
    rw [inRaw_of_startsRawEnd (fun hmem => (hinside _ hmem).2 rfl) hstarts] at h
    cases h
    rcases rawEndTagOf_cases name inside with hend | htext
    · exact .inl hend
    · exact .inr ⟨_, htext, rfl, staysText_of_isFakeEnd hraw ⟨inside, rfl, hinside, htext⟩ rest⟩
  · unfold Step.inRaw at h
    split at h
    · cases h
    · next from? hsplit =>
      cases s with
      | nil => cases hsplit
      | cons c s =>
        rw [splitWhere?, if_neg hstarts] at hsplit
        obtain ⟨_, -, hpair⟩ := Option.map_eq_some_iff.1 hsplit
        cases hpair
    · next hsplit =>
      cases h
      exact .inr ⟨_, rfl, splitWhere?_append hsplit, .of_splitWhere? hsplit⟩

/-- Text that stays text is read as that text before an end tag of the element. -/
theorem StaysText.readFrom {text : List Char} (h : StaysText name text []) {tag : List Char}
    (htag : EndsRaw name tag) (b : Builder) (rest : List Char) :
    readFrom (some name) b (text ++ (tag ++ rest)) =
      Html.readFrom none ((b.take (.text text)).take (.endTag name)) rest := by
  induction hlength : text.length using Nat.strongRecOn generalizing text b with
  | _ n ih =>
    subst hlength
    cases text with
    | nil => rw [take_text_nil, List.nil_append, htag.readFrom]
    | cons c text =>
      by_cases hstarts : Step.startsRawEnd name (c :: (text ++ (tag ++ rest))) = true
      · obtain ⟨other, hother⟩ : ∃ other, tag ++ rest = '<' :: other := by
          obtain ⟨inside, rfl, -⟩ := htag.exists_inside
          exact ⟨_, rfl⟩
        have hbefore : StaysText name (c :: text) (tag ++ rest) := by
          rw [hother]
          exact h.before_tag hraw other
        obtain ⟨fake, more, heq, hfake⟩ :=
          hbefore _ (List.suffix_refl _) (List.cons_ne_nil c text) hstarts
        have hmore : StaysText name more [] := h.of_suffix ⟨_, heq.symm⟩
        have hlength : more.length < (c :: text).length := by
          rw [heq, List.length_append]
          exact Nat.lt_add_of_pos_left hfake.length_pos
        rw [← List.cons_append, heq, List.append_assoc] at hstarts
        rw [heq, List.append_assoc, readFrom_of_isFakeEnd hfake b hstarts, ih _ hlength hmore _ rfl,
          take_text_append]
      · have hlater : EndsLater name (text ++ (tag ++ rest)) := (htag.endsLater rest).append text
        have hmore := h.of_suffix (List.suffix_cons c text)
        rw [List.cons_append, readFrom_cons (eq_false_of_ne_true hstarts) hlater,
          ih _ (Nat.lt_succ_self _) hmore _ rfl, take_text_append, List.singleton_append]

end Raw

end Assessment.Html
