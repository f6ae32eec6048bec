import Assessment.Proofs.Item.Markers
import Assessment.Proofs.Views.Rubrics
import Assessment.Proofs.Xml.Splicing

/-!
# Proofs: rubric blocks that are not for scorers

An item body is compared with the same body without one block that is not for scorers. The criteria are
the same, unless the block lies in the rubric that is read: there its lines are read with the others
(`other_block_counts_in_rubric`, `lines_of_inner_block_are_read`).
-/

namespace Assessment.Item

open Assessment.Text Assessment.Xml
open Assessment.Views (rubricName)

/-! ## The rubric that is read -/

/-- The element is a rubric block for scorers. -/
def isScorerBlock (e : Element) : Bool :=
  e.name == rubricName && e.attribute? "view" == some "scorer".toList

/-- The rubric block that is read. -/
def scorerBlock? (body : Element) : Option Element := body.descendants.find? isScorerBlock

/-- The element is a line of a rubric that it lies in. -/
def isLine (e : Element) : Bool := e.name == "qti-p".toList

/-- The lines in an element. -/
def linesOf (block : Element) : List Element := block.descendants.filter isLine

theorem ofTag_isScorerBlock : OfTag isScorerBlock := fun _ _ _ _ => rfl

theorem ofTag_isLine : OfTag isLine := fun _ _ _ _ => rfl

theorem rubricLines_eq (body : Element) :
    rubricLines body = ((scorerBlock? body).map linesOf).getD [] := by
  have hlocate : ∀ block : Element, block.locate "qti-p".toList = linesOf block :=
    Element.locate_eq_filter (by decide)
  have hscorer : (fun e : Element => decide ((e.name == "qti-rubric-block".toList) = true ∧
      (e.attribute? "view" == some "scorer".toList) = true)) = isScorerBlock := by
    funext e
    rw [isScorerBlock, Bool.decide_and, Bool.decide_eq_true, Bool.decide_eq_true]
    rfl
  unfold rubricLines scorerBlock?
  rw [Element.locate_eq_filter (by decide), List.find?_filter, hscorer]
  simp only [hlocate]

/-! ## Removing a block -/

section

variable {body body' block : Element} {path : List Element}

/-- Elements are read alike if their lines have the same texts. -/
theorem criteria_eq_of_lines {read read' : Element} (hread : scorerBlock? body = some read)
    (hread' : scorerBlock? body' = some read')
    (h : (linesOf read').map Element.content = (linesOf read).map Element.content) :
    criteria body' = criteria body := by
  have hsame := congrArg (List.map readLine) h
  rw [List.map_map, List.map_map] at hsame
  rw [criteria_eq, criteria_eq, rubricLines_eq, rubricLines_eq, hread, hread']
  exact (criteriaFrom_eq_iff 1).2 hsame

theorem length_criteria {read : Element} (hread : scorerBlock? body = some read) :
    (criteria body).length = (linesOf read).length := by
  rw [criteria_eq, length_criteriaFrom, rubricLines_eq, hread]
  rfl

theorem criteria_eq_of_scorerBlock? (h : scorerBlock? body' = scorerBlock? body) :
    criteria body' = criteria body := by
  rw [criteria_eq, criteria_eq, rubricLines_eq, rubricLines_eq, h]

/-- A rubric block is no line. -/
theorem filter_isLine_elements (hname : block.name = rubricName) :
    block.toNode.elements.filter isLine = linesOf block := by
  have hblock : ¬ isLine block = true := by
    rw [isLine, hname]
    decide
  exact List.filter_cons_of_neg hblock

/-- The rubric that is read stays in its place when a block is removed that is not for scorers and holds
no block for scorers. -/
theorem rel_scorerBlock? (h : Spliced block [] path body.children body'.children)
    (hview : block.attribute? "view" ≠ some "scorer".toList)
    (hinner : ∀ d ∈ block.descendants, isScorerBlock d = false) :
    Option.Rel (SplicedIn block [] path) (scorerBlock? body) (scorerBlock? body') := by
  have hblock : isScorerBlock block = false := by
    rw [isScorerBlock, beq_false_of_ne hview, Bool.and_false]
  have hnone : block.toNode.elements.find? isScorerBlock = none :=
    List.find?_eq_none.2 fun d hd => by
      rcases List.mem_cons.1 hd with rfl | hd
      · exact ne_true_of_eq_false hblock
      · exact ne_true_of_eq_false (hinner d hd)
  exact h.find?_elementsOf ofTag_isScorerBlock (.inr hnone.symm)

section

variable {read read' : Element} {within : List Element} (hread : scorerBlock? body = some read)
  (hread' : scorerBlock? body' = some read')
  (h : Spliced block [] within read.children read'.children) (hname : block.name = rubricName)

include hread hread' h hname

/-- Of the rubric that is read just the lines of the block are lost. -/
theorem length_criteria_of_spliced :
    (criteria body').length + (linesOf block).length = (criteria body).length := by
  have hcount := h.countP_elementsOf ofTag_isLine
  rw [List.countP_eq_length_filter, List.countP_eq_length_filter, List.countP_eq_length_filter,
    filter_isLine_elements hname] at hcount
  rw [length_criteria hread, length_criteria hread']
  exact hcount

/-- The other lines of the rubric are read as before, if the block has no text or no line around it. -/
theorem criteria_eq_of_spliced (hnone : linesOf block = [])
    (htext : block.content = [] ∨ ∀ d ∈ within, isLine d = false) : criteria body' = criteria body := by
  have hlines : block.toNode.elements.filter isLine = [] := by
    rw [filter_isLine_elements hname, hnone]
  refine criteria_eq_of_lines hread hread' (h.map_content_filter ofTag_isLine ?_ (htext.imp_left Eq.symm))
  rw [hlines]
  rfl

end

/-- A rubric block that is not for scorers and holds no block for scorers counts in the rubric that is
read and nowhere else. Without a block for scorers around it, it can be removed and the criteria stay the
same, and with them the greatest score. In the block that is read its lines are lost with it and no other
ones. If it has no lines, and no text or no line around it, nothing is lost at all. -/
theorem other_block_counts_in_rubric (h : Spliced block [] path body.children body'.children)
    (hname : block.name = rubricName) (hview : block.attribute? "view" ≠ some "scorer".toList)
    (hinner : ∀ d ∈ block.descendants, isScorerBlock d = false) :
    ((∀ d ∈ path, isScorerBlock d = false) → criteria body' = criteria body ∧
        maxScore (criteria body') = maxScore (criteria body)) ∧
      (criteria body' = criteria body ∨ ∃ read ∈ path, scorerBlock? body = some read ∧
        (criteria body').length + (linesOf block).length = (criteria body).length) ∧
      (linesOf block = [] → block.content = [] ∨ (∀ d ∈ path, isLine d = false) →
        criteria body' = criteria body) := by
  have hrel := rel_scorerBlock? h hview hinner
  generalize hread : scorerBlock? body = found at hrel
  generalize hread' : scorerBlock? body' = found' at hrel
  cases hrel with
  | none =>
    have hsame := criteria_eq_of_scorerBlock? (hread'.trans hread.symm)
    exact ⟨fun _ => ⟨hsame, congrArg maxScore hsame⟩, .inl hsame, fun _ _ => hsame⟩
  | @some read read' hspliced =>
    cases hspliced with
    | apart =>
      have hsame := criteria_eq_of_scorerBlock? (hread'.trans hread.symm)
      exact ⟨fun _ => ⟨hsame, congrArg maxScore hsame⟩, .inl hsame, fun _ _ => hsame⟩
    | @around outer within tag attributes children children' hpath hinside =>
      have hmem : ⟨tag, attributes, children⟩ ∈ path := by
        rw [hpath]
        exact List.mem_append_right _ List.mem_cons_self
      have hwithin : ∀ d ∈ within, d ∈ path := fun d hd => by
        rw [hpath]
        exact List.mem_append_right _ (List.mem_cons_of_mem _ hd)
      refine ⟨fun houtside => ?_, .inr ⟨_, hmem, rfl, ?_⟩, fun hnone htext => ?_⟩
      · have hscorer := List.find?_some hread
        exact absurd (hscorer.symm.trans (houtside _ hmem)) (by decide)
      · exact length_criteria_of_spliced hread hread' hinside hname
      · exact criteria_eq_of_spliced hread hread' hinside hname hnone <|
          htext.imp_right fun hline d hd => hline d (hwithin d hd)

end

/-! ## Blocks for candidates -/

/-- A rubric block for candidates with a line of its own. -/
def candidateBlock : Element :=
  ⟨rubricName, [("view".toList, "candidate".toList)],
    [.element "qti-p".toList [] [.text "[1] b".toList]]⟩

/-- An item body that starts with the given nodes, before a rubric block for scorers with one line and
the other nodes. -/
def gradedBody (before inside : List Node) : Element :=
  ⟨"qti-item-body".toList, [], [.element "div".toList [] before,
    .element rubricName [("view".toList, "scorer".toList)]
      (.element "qti-p".toList [] [.text "[2] a".toList] :: inside)]⟩

theorem otherBlock_candidateBlock : candidateBlock.name = rubricName ∧
    candidateBlock.attribute? "view" ≠ some "scorer".toList ∧
    ∀ d ∈ candidateBlock.descendants, isScorerBlock d = false := by
  decide

/-- A block for candidates outside of the rubric for scorers can go, and the text after it stays. -/
theorem other_block_counts_in_rubric_gradedBody :
    criteria (gradedBody [.text "s t".toList] []) =
        criteria (gradedBody [.text "s ".toList, candidateBlock.toNode, .text "t".toList] []) ∧
      maxScore (criteria (gradedBody [.text "s t".toList] [])) =
        maxScore (criteria (gradedBody [.text "s ".toList, candidateBlock.toNode, .text "t".toList] [])) := by
  obtain ⟨hname, hview, hinner⟩ := otherBlock_candidateBlock
  have h : Spliced candidateBlock [] _
      (gradedBody [.text "s ".toList, candidateBlock.toNode, .text "t".toList] []).children
      (gradedBody [.text "s t".toList] []).children := .inside (.later (.here _))
  exact (other_block_counts_in_rubric h hname hview hinner).1 (by decide)

/-- The lines of a block for candidates that lies in the rubric for scorers are read with the others. -/
theorem lines_of_inner_block_are_read :
    ¬ (∀ (body body' block : Element) (path : List Element),
        Spliced block [] path body.children body'.children → block.name = rubricName →
        block.attribute? "view" ≠ some "scorer".toList →
        (∀ d ∈ block.descendants, isScorerBlock d = false) → criteria body' = criteria body) ∧
      (criteria (gradedBody [] [candidateBlock.toNode])).map (·.text) = [['a'], ['b']] ∧
      (criteria (gradedBody [] [])).map (·.text) = [['a']] := by
  obtain ⟨hname, hview, hinner⟩ := otherBlock_candidateBlock
  have hwith : (criteria (gradedBody [] [candidateBlock.toNode])).map (·.text) = [['a'], ['b']] := by
    decide
  have hwithout : (criteria (gradedBody [] [])).map (·.text) = [['a']] := by decide
  refine ⟨fun hclaim => ?_, hwith, hwithout⟩
  have h : Spliced candidateBlock [] _ (gradedBody [] [candidateBlock.toNode]).children
      (gradedBody [] []).children := .later (.inside (.later (.here _)))
  have hsame := congrArg (List.map (·.text)) (hclaim _ _ _ _ h hname hview hinner)
  rw [hwith, hwithout] at hsame
  exact absurd hsame (by decide)

end Assessment.Item
