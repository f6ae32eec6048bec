import Assessment.Proofs.Html.Reprinting
import Assessment.Proofs.Responses.Filling

/-!
# Proofs: filling any document

Before a document is read, its text is searched for the class of blanks, and of a document with a body only
what the body holds is printed. Where the class is spelled out, no blank stands outside of what is printed
and no marked section holds a bracket (`Fillable`), the blanks of any document are filled in their order
(`blanks_of_any_document_are_filled`). A blank of which the class is spelled with a reference is missed
(`blank_with_reference_is_missed`).
-/

namespace Assessment.Responses

open Assessment.Html Assessment.Text Node

/-! ## Blanks that are read again -/

theorem words_spaced (s : List Char) : words (spaced s) = words s :=
  words_joinWith fun _ hw => isWord_of_mem_words hw

theorem get?_spaceWords (element key : List Char) (attributes : Attributes) :
    (spaceWords element attributes).get? key =
      (attributes.get? key).map fun value => if isWordAttribute element key then spaced value else value := by
  induction attributes with
  | nil => rfl
  | cons a attributes ih =>
    obtain ⟨name, value⟩ := a
    by_cases hname : name = key
    · subst hname
      simp [spaceWords, Attributes.get?]
    · have hrest : (spaceWords element attributes).get? key = (spaceWords element
          ((name, value) :: attributes)).get? key := (if_neg hname).symm
      rw [← hrest, ih, Attributes.get?, if_neg hname]

/-- The attributes of a blank that is read again. -/
def rereadBlank (attributes : Attributes) : Attributes :=
  spaceWords "input".toList (sortAttributes attributes)

theorem get?_rereadBlank {attributes : Attributes} (h : (attributes.map (·.1)).Nodup) (key : List Char) :
    (rereadBlank attributes).get? key = (attributes.get? key).map fun value =>
      if isWordAttribute "input".toList key then spaced value else value := by
  rw [rereadBlank, get?_spaceWords,
    Attributes.get?_of_perm (perm_sortAttributes attributes).symm h key]

theorem elementAttributes_input (attributes : Attributes) :
    elementAttributes "input".toList attributes = spaceWords "input".toList attributes := by
  rw [elementAttributes, if_neg (by decide)]

theorem blank?_reread {e : List Char × Attributes} (h : (e.2.map (·.1)).Nodup) :
    (if isBlankInput (reread e).1 (reread e).2 then some (reread e).2 else none) =
      (if isBlankInput e.1 e.2 then some e.2 else none).map rereadBlank := by
  obtain ⟨name, attributes⟩ := e
  by_cases hname : name = "input".toList
  · subst hname
    have hattributes : (reread ("input".toList, attributes)).2 = rereadBlank attributes :=
      elementAttributes_input _
    have hclass := get?_rereadBlank h "class".toList
    have hwords : words (((rereadBlank attributes).get? "class".toList).getD []) =
        words ((attributes.get? "class".toList).getD []) := by
      rw [hclass]
      cases attributes.get? "class".toList with
      | none => rfl
      | some value => exact words_spaced value
    have hblank : isBlankInput "input".toList (rereadBlank attributes) =
        isBlankInput "input".toList attributes := by
      rw [isBlankInput, isBlankInput, hwords]
    rw [hattributes]
    show (if isBlankInput "input".toList (rereadBlank attributes) then _ else _) =
      Option.map rereadBlank (if isBlankInput "input".toList attributes then _ else _)
    rw [hblank]
    split
    · rfl
    · rfl
  · have hnot (others : Attributes) : isBlankInput name others = false :=
      Scoring.isBlankInput_of_ne hname others
    show (if isBlankInput name _ then _ else _) = _
    rw [hnot, hnot]
    rfl

/-- The blanks of nodes that are printed and read again are those that were printed. -/
theorem blanks_of_elementsOf {nodes others : List Node} (h : LastingAll nodes)
    (helements : elementsOf others = (elementsOf nodes).map reread) :
    blanks others = (blanks nodes).map rereadBlank := by
  rw [blanks, blanks, helements, List.filterMap_map, List.map_filterMap]
  refine List.filterMap_congr fun e he => ?_
  exact blank?_reread (lastingTag_of_mem_elementsOf h e he).distinct

theorem lastingTag_of_mem_blanks {nodes : List Node} (h : LastingAll nodes) {attributes : Attributes}
    (hmem : attributes ∈ blanks nodes) : LastingTag "input".toList attributes := by
  obtain ⟨⟨name, others⟩, he, hblank⟩ := List.mem_filterMap.1 hmem
  obtain ⟨hinput, heq⟩ := Option.ite_none_right_eq_some.1 hblank
  obtain rfl := Option.some.inj heq
  by_cases hname : name = "input".toList
  · obtain rfl := hname
    exact lastingTag_of_mem_elementsOf h _ he
  · rw [Scoring.isBlankInput_of_ne hname] at hinput
    cases hinput

/-! ## Blanks that are filled -/

theorem lastingTag_filled {name : List Char} {attributes : Attributes} (h : LastingTag name attributes)
    (value : List Char) (size : Nat) : LastingTag name (filled value size attributes) :=
  (h.put (lastingKey_of_isPlainName (by decide)) value).put (lastingKey_of_isPlainName (by decide)) _

theorem lastingTag_fillElement (filling : Filling) (name : List Char) (attributes : Attributes)
    (h : LastingTag name attributes) : LastingTag name (fillElement filling name attributes).1 := by
  by_cases hblank : isBlankInput name attributes
  · rw [(fillElement_of_blank hblank filling).1]
    cases filling.entries.head? with
    | none => exact h
    | some entry =>
      cases entry with
      | skip => exact h
      | text s => exact lastingTag_filled h s s.length
      | words ws => exact lastingTag_filled h _ ws.length
      | other => exact h
  · rw [fillElement_of_not_blank hblank]
    exact h

theorem length_blanks_updateAll (filling : Filling) (nodes : List Node) :
    (blanks (updateAll fillElement filling nodes).1).length = (blanks nodes).length := by
  rw [(blanks_updateAll nodes filling).1, length_fillBlanks]

/-- Where no blank stands outside of what is printed, all filled blanks are printed. -/
theorem blanks_printedNodes_fill {nodes : List Node} (h : blanks (printedNodes nodes) = blanks nodes)
    (entries : List Entry) :
    blanks (printedNodes (fill entries nodes).1) = fillBlanks entries (blanks nodes) := by
  obtain ⟨later, hprinted⟩ := printedNodes_updateAll fillElement ⟨entries, 0, false⟩ nodes
  have hsublist : List.Sublist (blanks (printedNodes (fill entries nodes).1))
      (blanks (fill entries nodes).1) := (elementsOf_printedNodes_sublist _).filterMap _
  have hlength : (blanks (printedNodes (fill entries nodes).1)).length =
      (blanks (fill entries nodes).1).length := by
    rw [fill, hprinted, length_blanks_updateAll, length_blanks_updateAll, h]
  exact (hsublist.eq_of_length hlength).trans (blanks_updateAll nodes _).1

/-- What makes sure that the blanks of a document are filled. -/
structure Fillable (html : List Char) (nodes : List Node) : Prop where
  /-- The class of blanks is spelled out somewhere in the text. -/
  spelled : occursIn blankClass html = true
  /-- No blank stands outside of what is printed. -/
  printed : blanks (printedNodes nodes) = blanks nodes
  /-- No marked section holds a bracket. -/
  sections : PlainSections nodes

/-- The blanks of any document are filled one by one with responses that blanks take, as long as the
document spells out their class, has none of them outside of its body and no bracket in a marked section:
as many blanks are read again, and each that got a text has it as its value. -/
theorem blanks_of_any_document_are_filled {builder html : List Char} {nodes : List Node}
    {entries : List Entry} (hbuilder : builder ∈ builderNames) (hparse : parse html = some nodes)
    (hblanks : blanks nodes ≠ []) (hfillable : Fillable html nodes) (hentries : entries ≠ [])
    (hother : .other ∉ entries) :
    ∃ result log others, apply (.ok builder) (.many entries) html = .ok (result, log) ∧
      parse result = some others ∧ (blanks others).length = (blanks nodes).length ∧
      ∀ (k : Nat) (s : List Char) (attributes : Attributes), entries[k]? = some (.text s) →
        (blanks others)[k]? = some attributes → attributes.get? "value".toList = some s := by
  obtain ⟨log, happly⟩ := apply_of_entries hbuilder hparse hfillable.spelled hentries
    (fun entry hentry heq => hother (heq ▸ hentry)) hblanks
  have hlasting : LastingAll (fill entries nodes).1 :=
    lastingAll_updateAll lastingTag_fillElement _ (lastingAll_of_parse hparse)
  have hsections : PlainSections (fill entries nodes).1 := by
    unfold PlainSections
    rw [fill, specialsOf_updateAll]
    exact hfillable.sections
  obtain ⟨others, hothers, helements⟩ := exists_parse_serialize hlasting hsections
  have hread : blanks others = (fillBlanks entries (blanks nodes)).map rereadBlank :=
    (blanks_of_elementsOf (lastingAll_printedNodes hlasting).1 helements).trans
      (congrArg (List.map rereadBlank) (blanks_printedNodes_fill hfillable.printed entries))
  refine ⟨_, log, others, happly, hothers, ?_, fun k s attributes hentry hk => ?_⟩
  · rw [hread, List.length_map, length_fillBlanks]
  · rw [hread, List.getElem?_map, getElem?_fillBlanks, hentry] at hk
    obtain ⟨blank, hblank, rfl⟩ := Option.map_eq_some_iff.1 hk
    obtain ⟨unfilled, hunfilled, rfl⟩ := Option.map_eq_some_iff.1 hblank
    have hunfilledTag := lastingTag_of_mem_blanks (lastingAll_of_parse hparse)
      (List.mem_of_getElem? hunfilled)
    have hfilled := lastingTag_filled hunfilledTag s s.length
    show (rereadBlank (filled s s.length unfilled)).get? "value".toList = some s
    rw [get?_rereadBlank hfilled.distinct, get?_value_filled]
    rfl

/-- Blanks of which one has other classes and the other has a value. -/
def boxedSample : List Char :=
  "<p>a &amp; <input class=\"wide qti-blank-input\"> b <input value=\"c\" class=\"qti-blank-input\"></p>".toList

theorem blanks_of_any_document_are_filled_boxedSample :
    ∃ nodes result log others, parse boxedSample = some nodes ∧
      apply (.ok defaultBuilder) (.many [.text "d".toList, .skip]) boxedSample = .ok (result, log) ∧
      parse result = some others ∧ (blanks others).length = (blanks nodes).length ∧
      ∀ (k : Nat) (s : List Char) (attributes : Attributes),
        [Entry.text "d".toList, .skip][k]? = some (.text s) →
          (blanks others)[k]? = some attributes → attributes.get? "value".toList = some s := by
  have hread : (parse boxedSample).any (fun nodes => decide (blanks nodes ≠ [] ∧
      blanks (printedNodes nodes) = blanks nodes ∧ PlainSections nodes)) = true := by
    unfold boxedSample
    -- Literals are evaluated faster as lists of characters.
    repeat rewrite [String.toList_ofList]
    decide +kernel
  obtain ⟨nodes, hparse, hnodes⟩ := (Option.any_eq_true _ _).1 hread
  obtain ⟨hblanks, hprinted, hsections⟩ := of_decide_eq_true hnodes
  have hbuilder : defaultBuilder ∈ builderNames := by decide
  have hfillable : Fillable boxedSample nodes := ⟨by decide +kernel, hprinted, hsections⟩
  have hentries : [Entry.text "d".toList, .skip] ≠ [] := by decide
  obtain ⟨result, log, others, h⟩ := blanks_of_any_document_are_filled hbuilder hparse hblanks hfillable
    hentries (by decide)
  exact ⟨nodes, result, log, others, hparse, h⟩

/-- A blank of which the class has a hyphen that is written as a reference. -/
def referenceSample : List Char := "<input class=\"qti-blank&#45;input\">".toList

theorem blank_with_reference_is_missed :
    ∃ nodes, parse referenceSample = some nodes ∧ blanks nodes ≠ [] ∧
      ¬ ∃ result log others,
        apply (.ok defaultBuilder) (.many [.text "d".toList]) referenceSample = .ok (result, log) ∧
        parse result = some others ∧ (blanks others).length = (blanks nodes).length ∧
        ∀ (k : Nat) (s : List Char) (attributes : Attributes),
          [Entry.text "d".toList][k]? = some (.text s) →
            (blanks others)[k]? = some attributes → attributes.get? "value".toList = some s := by
  have hread : (parse referenceSample).any (fun nodes => decide (blanks nodes ≠ [] ∧
      ∀ attributes ∈ (blanks nodes).head?, attributes.get? "value".toList = none)) = true := by
    unfold referenceSample
    repeat rewrite [String.toList_ofList]
    decide +kernel
  obtain ⟨nodes, hparse, hnodes⟩ := (Option.any_eq_true _ _).1 hread
  obtain ⟨hblanks, hvalue⟩ := of_decide_eq_true hnodes
  refine ⟨nodes, hparse, hblanks, ?_⟩
  rintro ⟨result, log, others, happly, hothers, -, hfilled⟩
  have hunchanged : apply (.ok defaultBuilder) (.many [.text "d".toList]) referenceSample =
      .ok (referenceSample, []) := if_pos (by decide +kernel)
  rw [hunchanged] at happly
  cases happly
  rw [hparse] at hothers
  cases hothers
  obtain ⟨blank, more, hblank⟩ := List.exists_cons_of_ne_nil hblanks
  rw [hblank] at hfilled hvalue
  have hnone := hvalue blank rfl
  rw [hfilled 0 "d".toList blank rfl rfl] at hnone
  cases hnone

end Assessment.Responses
