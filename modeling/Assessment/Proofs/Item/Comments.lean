import Assessment.Proofs.Item.Markers
import Assessment.Proofs.Views.Rubrics
import Assessment.Proofs.Xml.Splicing

/-!
# Proofs: comments in rubrics and choices

What scorers get to know of an item is compared with what they get to know of the item without its
comments. Comments are looked past when elements are looked up, but their text counts where the text of
an element is read as a whole: in the lines of the rubric and in choices
(`comments_count_where_text_is_read`). A comment in front of a marker hides it
(`comment_hides_marker`).
-/

namespace Assessment.Xml

/-! ## Nodes without their comments -/

mutual

/-- The node without the comments in it, as nodes: none if it is a comment. -/
def Node.withoutComments : Node → List Node
  | .text s => [.text s]
  | .comment _ => []
  | .element tag attributes children => [.element tag attributes (Xml.withoutComments children)]

/-- The nodes without comments. Pieces of text that meet become one. -/
def withoutComments : List Node → List Node
  | [] => []
  | node :: nodes => joinNodes node.withoutComments (withoutComments nodes)

end

mutual

/-- The text of a node outside of comments. -/
def Node.shownContent : Node → List Char
  | .text s => s
  | .comment _ => []
  | .element _ _ children => shownContents children

/-- The text of some nodes outside of comments. -/
def shownContents : List Node → List Char
  | [] => []
  | node :: nodes => node.shownContent ++ shownContents nodes

end

mutual

/-- The texts of the comments in a node. -/
def Node.comments : Node → List (List Char)
  | .text _ => []
  | .comment s => [s]
  | .element _ _ children => commentsOf children

/-- The texts of the comments among some nodes and below them. -/
def commentsOf : List Node → List (List Char)
  | [] => []
  | node :: nodes => node.comments ++ commentsOf nodes

end

mutual

theorem contents_withoutComments : ∀ node : Node, contents node.withoutComments = node.shownContent
  | .text s => List.append_nil s
  | .comment _ => rfl
  | .element tag attributes children => by
    rw [Node.withoutComments, Node.shownContent, contents, Node.content, contents, List.append_nil,
      contents_withoutCommentsAll children]

theorem contents_withoutCommentsAll : ∀ nodes : List Node,
    contents (withoutComments nodes) = shownContents nodes
  | [] => rfl
  | node :: nodes => by
    rw [withoutComments, contents_joinNodes, contents_withoutComments node,
      contents_withoutCommentsAll nodes, shownContents]

end

mutual

theorem shownContent_of_silent : ∀ {node : Node}, (∀ s ∈ node.comments, s = []) →
    node.shownContent = node.content
  | .text _, _ => rfl
  | .comment s, h => (h s (List.mem_singleton_self s)).symm
  | .element _ _ _, h => shownContents_of_silent h

/-- Comments without text add nothing to the text of nodes. -/
theorem shownContents_of_silent : ∀ {nodes : List Node}, (∀ s ∈ commentsOf nodes, s = []) →
    shownContents nodes = contents nodes
  | [], _ => rfl
  | node :: nodes, h => by
    obtain ⟨hnode, hnodes⟩ := List.forall_mem_append.1 h
    rw [shownContents, contents, shownContent_of_silent hnode, shownContents_of_silent hnodes]

end

namespace Element

/-- The element without the comments in it. -/
def withoutComments (e : Element) : Element := ⟨e.tag, e.attributes, Xml.withoutComments e.children⟩

/-- The text of the element outside of comments. -/
def shownContent (e : Element) : List Char := shownContents e.children

theorem content_withoutComments (e : Element) : e.withoutComments.content = e.shownContent :=
  contents_withoutCommentsAll e.children

end Element

mutual

theorem elementsOf_withoutComments : ∀ node : Node,
    elementsOf node.withoutComments = node.elements.map Element.withoutComments
  | .text _ => rfl
  | .comment _ => rfl
  | .element tag attributes children => by
    rw [Node.withoutComments, elementsOf, elementsOf, Node.elements, Node.elements, List.append_nil,
      List.map_cons, elementsOf_withoutCommentsAll children]
    rfl

theorem elementsOf_withoutCommentsAll : ∀ nodes : List Node,
    elementsOf (withoutComments nodes) = (elementsOf nodes).map Element.withoutComments
  | [] => rfl
  | node :: nodes => by
    rw [withoutComments, elementsOf_joinNodes, elementsOf, List.map_append,
      elementsOf_withoutComments node, elementsOf_withoutCommentsAll nodes]

end

/-- The same elements are found without comments. -/
theorem Element.locate_withoutComments (e : Element) (name : List Char) :
    e.withoutComments.locate name = (e.locate name).map Element.withoutComments := by
  rw [locate_eq, locate_eq, descendants, descendants, withoutComments, elementsOf_withoutCommentsAll,
    List.filter_map]
  rfl

end Assessment.Xml

namespace Assessment.Item

open Assessment.Text Assessment.Xml
open Assessment.Scoring (choiceName)

/-! ## Rubrics and choices without comments -/

theorem itemBody?_withoutComments (root : Element) :
    Scoring.itemBody? root.withoutComments =
      (Scoring.itemBody? root).map Element.withoutComments := by
  rw [Scoring.itemBody?, Scoring.itemBody?, Element.locate_withoutComments, List.head?_map]

theorem rubricLines_withoutComments (body : Element) :
    rubricLines body.withoutComments = (rubricLines body).map Element.withoutComments := by
  unfold rubricLines
  rw [Element.locate_withoutComments, List.find?_map]
  -- Whether a block is for scorers does not depend on what it holds.
  have hsame : ((fun block : Element => block.attribute? "view" == some "scorer".toList) ∘
      Element.withoutComments) = fun block => block.attribute? "view" == some "scorer".toList := rfl
  rw [hsame]
  cases (body.locate "qti-rubric-block".toList).find? fun block =>
      block.attribute? "view" == some "scorer".toList with
  | none => rfl
  | some block => exact block.locate_withoutComments _

/-- The criteria stay the same without comments just if every line of the rubric is read the same. -/
theorem criteria_withoutComments_eq_iff (body : Element) :
    criteria body.withoutComments = criteria body ↔
      ∀ line ∈ rubricLines body, readLine line.shownContent = readLine line.content := by
  rw [criteria_eq, criteria_eq, rubricLines_withoutComments, criteriaFrom_eq_iff, List.map_map,
    List.map_inj_left]
  simp only [Function.comp_apply, Element.content_withoutComments]

/-- The choices stay the same without comments just if every choice has the same trimmed text. -/
theorem choices_withoutComments_eq_iff (body : Element) :
    choices body.withoutComments = choices body ↔
      ∀ choice ∈ body.locate choiceName, trim choice.shownContent = trim choice.content := by
  unfold choices
  rw [Element.locate_withoutComments, List.map_map]
  show _ ↔ ∀ choice ∈ body.locate "qti-simple-choice".toList, _
  rw [List.map_inj_left]
  refine forall₂_congr fun choice _ => ?_
  rw [Function.comp_apply, Choice.mk.injEq, Element.content_withoutComments]
  exact and_iff_right rfl

/-- No comment in a line of the rubric or in a choice holds any text. -/
def CommentsSilent (body : Element) : Prop :=
  ∀ e ∈ rubricLines body ++ body.locate choiceName, ∀ s ∈ commentsOf e.children, s = []

/-- Comments count only where the text of an element is read as a whole. -/
theorem comments_count_where_text_is_read (root : Element) :
    Scoring.itemBody? root.withoutComments =
        (Scoring.itemBody? root).map Element.withoutComments ∧
      ∀ body : Element,
        (criteria body.withoutComments = criteria body ↔
          ∀ line ∈ rubricLines body, readLine line.shownContent = readLine line.content) ∧
        (choices body.withoutComments = choices body ↔
          ∀ choice ∈ body.locate choiceName, trim choice.shownContent = trim choice.content) ∧
        (CommentsSilent body → criteria body.withoutComments = criteria body ∧
          maxScore (criteria body.withoutComments) = maxScore (criteria body) ∧
          choices body.withoutComments = choices body) := by
  refine ⟨itemBody?_withoutComments root, fun body => ⟨criteria_withoutComments_eq_iff body,
    choices_withoutComments_eq_iff body, fun hsilent => ?_⟩⟩
  have hshown : ∀ e ∈ rubricLines body ++ body.locate choiceName, e.shownContent = e.content :=
    fun e he => shownContents_of_silent (hsilent e he)
  have hcriteria : criteria body.withoutComments = criteria body :=
    (criteria_withoutComments_eq_iff body).2 fun line hline =>
      congrArg readLine (hshown line (List.mem_append_left _ hline))
  have hchoices : choices body.withoutComments = choices body :=
    (choices_withoutComments_eq_iff body).2 fun choice hchoice =>
      congrArg trim (hshown choice (List.mem_append_right _ hchoice))
  exact ⟨hcriteria, congrArg maxScore hcriteria, hchoices⟩

/-! ## Rubrics with comments -/

instance (body : Element) : Decidable (CommentsSilent body) :=
  inferInstanceAs (Decidable (∀ e ∈ rubricLines body ++ body.locate choiceName,
    ∀ s ∈ commentsOf e.children, s = []))

/-- An item body with a choice and a rubric of one line, with the given nodes in front of its marker. -/
def markedBody (before : List Node) : Element :=
  ⟨"qti-item-body".toList, [], [.comment "v2".toList,
    .element choiceName [("identifier".toList, ['A'])] [.text " yes".toList],
    .element "qti-rubric-block".toList [("view".toList, "scorer".toList)]
      [.comment "draft".toList, .element "qti-p".toList [] (before ++ [.text "[2] Good".toList])]]⟩

/-- Comments beside the line and the choice do not count, nor does an empty one in the line. -/
theorem comments_count_where_text_is_read_markedBody :
    CommentsSilent (markedBody [.comment []]) ∧
      criteria (markedBody [.comment []]).withoutComments = criteria (markedBody [.comment []]) ∧
      maxScore (criteria (markedBody [.comment []]).withoutComments) =
        maxScore (criteria (markedBody [.comment []])) ∧
      choices (markedBody [.comment []]).withoutComments = choices (markedBody [.comment []]) := by
  have hsilent : CommentsSilent (markedBody [.comment []]) := by decide
  obtain ⟨-, hbody⟩ := comments_count_where_text_is_read (markedBody [])
  exact ⟨hsilent, (hbody (markedBody [.comment []])).2.2 hsilent⟩

/-- The text of a comment in front of a marker is read as the start of the line. The marker is not seen,
and the points are lost. -/
theorem comment_hides_marker :
    ¬ (∀ body : Element, criteria body.withoutComments = criteria body) ∧
      (criteria (markedBody [.comment "draft".toList]).withoutComments).map (·.text) =
        ["Good".toList] ∧
      (criteria (markedBody [.comment "draft".toList])).map (·.text) = ["draft[2] Good".toList] := by
  have hwithout : (criteria (markedBody [.comment "draft".toList]).withoutComments).map (·.text) =
      ["Good".toList] := by decide
  have hwith : (criteria (markedBody [.comment "draft".toList])).map (·.text) =
      ["draft[2] Good".toList] := by decide
  refine ⟨fun h => ?_, hwithout, hwith⟩
  have hsame := congrArg (List.map (·.text)) (h (markedBody [.comment "draft".toList]))
  rw [hwithout, hwith] at hsame
  exact absurd hsame (by decide)

end Assessment.Item
