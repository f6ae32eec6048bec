import Assessment.Proofs.Views.Rubrics

/-!
# Proofs: both views accept the same items

A report is refused for its document, its identifier or its missing body, in this order, and for nothing
else (`result_render_eq_error_iff`): neither the rendering nor a pass over its code can fail. A scorer
only needs the body. So where there is a report, there is a view for scorers, and what both show besides
the HTML is the same (`views_agree_on_acceptance`).
-/

namespace Assessment.Views

open Assessment.Item Assessment.Text Assessment.Xml

/-! ## The item body -/

/-- No element below the root is an item body. -/
def NoBody (root : Element) : Prop := ∀ e ∈ root.descendants, e.name ≠ bodyName

theorem itemBody?_eq_none_iff (root : Element) : Scoring.itemBody? root = none ↔ NoBody root := by
  have hlocate : root.locate "qti-item-body".toList =
      root.descendants.filter fun e => e.name == bodyName :=
    root.locate_eq_filter (by decide)
  simp only [Scoring.itemBody?, hlocate, List.head?_filter, List.find?_eq_none, NoBody, beq_iff_eq,
    ne_eq]

/-! ## Refused items -/

/-- Why a report of an item is refused that could be read. -/
inductive Refused (expected : List Char) (root : Element) : Failure → Prop where
  /-- The item has no identifier, or an empty one. -/
  | identifierMissing (h : root.attribute? "identifier" = none ∨ root.attribute? "identifier" = some []) :
      Refused expected root (.identifierMissing expected)
  /-- The item has another identifier. -/
  | identifierMismatch {found : List Char} (h : root.attribute? "identifier" = some found)
      (hfound : found ≠ []) (hother : found ≠ expected) :
      Refused expected root (.identifierMismatch expected found)
  /-- The item is the expected one and has no body. -/
  | bodyMissing (h : root.attribute? "identifier" = some expected) (hexpected : expected ≠ [])
      (hbody : NoBody root) : Refused expected root (.bodyMissingIn expected)

theorem findBody_eq_error_iff {expected : List Char} {root : Element} {failure : Failure} :
    Report.findBody expected root = .error failure ↔ Refused expected root failure := by
  have hbody := itemBody?_eq_none_iff root
  rw [findBody_eq, Element.attributeD]
  constructor
  · intro h
    split at h
    · next hempty =>
      cases h
      refine .identifierMissing ?_
      cases hfound : root.attribute? "identifier" with
      | none => exact .inl rfl
      | some found =>
        rw [hfound] at hempty
        exact .inr (congrArg some (List.isEmpty_iff.1 hempty))
    · next hempty =>
      obtain ⟨found, hfound⟩ : ∃ found, root.attribute? "identifier" = some found := by
        cases hnone : root.attribute? "identifier" with
        | none => exact absurd (by rw [hnone]; rfl) hempty
        | some found => exact ⟨found, rfl⟩
      rw [hfound] at h hempty
      have hne : found ≠ [] := fun hnil => hempty (by rw [hnil]; rfl)
      split at h
      · next hother =>
        cases h
        exact .identifierMismatch hfound hne hother
      · next hsame =>
        have hexpected : found = expected := not_not.1 hsame
        subst hexpected
        split at h
        · cases h
        · next hnone =>
          cases h
          exact .bodyMissing hfound hne (hbody.1 hnone)
  · intro h
    cases h with
    | identifierMissing h => rcases h with h | h <;> rw [h] <;> rfl
    | @identifierMismatch found h hfound hother =>
      have hempty : ¬ found.isEmpty = true := fun hempty => hfound (List.isEmpty_iff.1 hempty)
      rw [h, Option.getD_some, if_neg hempty, if_pos hother]
    | bodyMissing h hexpected hnone =>
      have hempty : ¬ expected.isEmpty = true := fun hempty => hexpected (List.isEmpty_iff.1 hempty)
      rw [h, Option.getD_some, if_neg hempty, if_neg (not_not.2 rfl), hbody.2 hnone]

/-! ## What the views make of an item -/

/-- Where the item has a body, its report holds what is read off the body. -/
theorem exists_result_of_findBody {expected : List Char} {root body : Element}
    (h : Report.findBody expected root = .ok body) :
    ∃ question, (Report.render {} expected root).result = .ok
      { identifier := root.attributeD "identifier"
        title := (root.attribute? "title").getD expected
        question := question
        criteria := criteria body
        maxScore := maxScore (criteria body)
        choices := choices body } := by
  unfold Report.render
  rw [h]
  exact ⟨_, rfl⟩

/-- A report of an item that was read is refused for its identifier or its missing body, and for nothing
else. -/
theorem result_render_eq_error_iff {expected : List Char} {root : Element} {failure : Failure} :
    (Report.render {} expected root).result = .error failure ↔ Refused expected root failure := by
  rw [← findBody_eq_error_iff]
  cases hfound : Report.findBody expected root with
  | error refusal =>
    unfold Report.render
    rw [hfound, Except.error.injEq, Except.error.injEq]
  | ok body =>
    obtain ⟨question, hresult⟩ := exists_result_of_findBody hfound
    rw [hresult]
    exact iff_of_false nofun nofun

/-- An item that was read has no view for scorers just if it has no body. -/
theorem render_eq_error_iff {root : Element} {failure : Failure} :
    Scoring.render {} root = .error failure ↔ failure = .bodyMissing ∧ NoBody root := by
  rw [← itemBody?_eq_none_iff]
  unfold Scoring.render
  cases Scoring.itemBody? root with
  | none => simp [eq_comm]
  | some body => simp

theorem identifier_of_findBody {expected : List Char} {root body : Element}
    (h : Report.findBody expected root = .ok body) : root.attributeD "identifier" = expected := by
  rw [findBody_eq] at h
  split at h
  · cases h
  split at h
  · cases h
  · next hsame => exact not_not.1 hsame

/-- Where there is a report, a scorer sees the same identifier, title, rubric and choices. -/
theorem exists_render_of_result {expected : List Char} {root : Element}
    {reported : Report.ReportItem} (h : (Report.render {} expected root).result = .ok reported) :
    ∃ scored, Scoring.render {} root = .ok scored ∧ scored.identifier = reported.identifier ∧
      scored.title = reported.title ∧ scored.criteria = reported.criteria ∧
      scored.choices = reported.choices ∧
      reported.maxScore = (scored.criteria.map (·.points)).foldl (· + ·) 0 := by
  cases hfound : Report.findBody expected root with
  | error failure =>
    rw [result_render_eq_error_iff.2 (findBody_eq_error_iff.1 hfound)] at h
    cases h
  | ok body =>
    obtain ⟨question, hresult⟩ := exists_result_of_findBody hfound
    rw [h] at hresult
    cases hresult
    -- The title of a scorer falls back on the identifier, which is the expected one.
    have htitle := identifier_of_findBody hfound
    unfold Scoring.render
    rw [itemBody?_of_findBody hfound, htitle]
    exact ⟨_, rfl, rfl, rfl, rfl, rfl, rfl⟩

/-- A report is refused for a document that is not well formed, an identifier that is missing or not the
expected one, or a missing body, in this order, and for nothing else; the view for scorers is refused for
a missing body and for nothing else once the item is read; and where there is a report, there is a view
for scorers with the same identifier, title, rubric and choices, and the greatest score of the report is
the sum of the points of that rubric from left to right. -/
theorem views_agree_on_acceptance (input : Input) (expected : List Char) :
    (∀ fault, input.root = .error fault → fault.isMalformed →
      (Report.renderInput {} expected input).result = .error (.unreadable expected)) ∧
    (∀ root, input.root = .ok root →
      (∀ failure, (Report.renderInput {} expected input).result = .error failure ↔
        Refused expected root failure) ∧
      ∀ failure, Scoring.renderInput {} input = .error failure ↔ failure = .bodyMissing ∧ NoBody root) ∧
    ∀ reported, (Report.renderInput {} expected input).result = .ok reported →
      ∃ scored, Scoring.renderInput {} input = .ok scored ∧
        scored.identifier = reported.identifier ∧ scored.title = reported.title ∧
        scored.criteria = reported.criteria ∧ scored.choices = reported.choices ∧
        reported.maxScore = (scored.criteria.map (·.points)).foldl (· + ·) 0 := by
  unfold Report.renderInput Scoring.renderInput
  cases input.root with
  | error fault =>
    refine ⟨fun other hfault hmalformed => ?_, nofun, nofun⟩
    cases hfault
    simp only [hmalformed, if_true]
  | ok root =>
    refine ⟨nofun, fun other hroot => ?_, fun reported => exists_render_of_result⟩
    cases hroot
    exact ⟨fun failure => result_render_eq_error_iff, fun failure => render_eq_error_iff⟩

/-- A document with a rubric of two lines. -/
def rubricDocument : Source := .text <|
  "<i identifier='q'><qti-item-body><qti-rubric-block view='scorer'><qti-p>[1.5] a</qti-p>".toList ++
    "<qti-p>b</qti-p></qti-rubric-block></qti-item-body></i>".toList

/-- The document is accepted under its own identifier and no other one, and it has to be whole. -/
theorem views_agree_on_rubricDocument :
    (∃ reported, (Report.renderInput {} ['q'] (.document rubricDocument)).result = .ok reported ∧
      ∃ scored, Scoring.renderInput {} (.document rubricDocument) = .ok scored ∧
        scored.identifier = reported.identifier ∧ scored.title = reported.title ∧
        scored.criteria = reported.criteria ∧ scored.choices = reported.choices ∧
        reported.maxScore = (scored.criteria.map (·.points)).foldl (· + ·) 0) ∧
      (Report.renderInput {} ['r'] (.document rubricDocument)).result =
        .error (.identifierMismatch ['r'] ['q']) ∧
      (Report.renderInput {} ['q'] (.document (.text "<i>".toList))).result =
        .error (.unreadable ['q']) := by
  have hsample : ((Report.bodyOf? ['q'] rubricDocument).map fun _ => true) = some true := by
    unfold rubricDocument
    -- Literals are evaluated faster as lists of characters.
    repeat rewrite [String.toList_ofList]
    decide +kernel
  obtain ⟨root, body, hread, hbody, -⟩ := Report.exists_of_bodyOf? hsample
  have hidentifier : root.attribute? "identifier" = some ['q'] := by
    have hvalue := identifier_of_findBody hbody
    rw [Element.attributeD] at hvalue
    cases hfound : root.attribute? "identifier" with
    | none =>
      rw [hfound] at hvalue
      cases hvalue
    | some found =>
      rw [hfound] at hvalue
      exact congrArg some hvalue
  obtain ⟨reported, hreported⟩ : ∃ reported,
      (Report.renderInput {} ['q'] (.document rubricDocument)).result = .ok reported := by
    obtain ⟨question, hresult⟩ := exists_result_of_findBody hbody
    have hroot : (Input.document rubricDocument).root = .ok root := hread
    unfold Report.renderInput
    rw [hroot]
    exact ⟨_, hresult⟩
  refine ⟨⟨reported, hreported,
    (views_agree_on_acceptance (.document rubricDocument) ['q']).2.2 _ hreported⟩, ?_, ?_⟩
  · obtain ⟨hreport, -⟩ := (views_agree_on_acceptance (.document rubricDocument) ['r']).2.1 root hread
    exact (hreport _).2 (.identifierMismatch hidentifier (by decide) (by decide))
  · have hcut : (Input.document (.text "<i>".toList)).root = .error .junkAfterRoot := rfl
    exact (views_agree_on_acceptance _ ['q']).1 _ hcut rfl

end Assessment.Views
