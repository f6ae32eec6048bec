import Assessment.Proofs.Scoring.Marks
import Assessment.Proofs.Scoring.Prompt

/-!
# Proofs: the images of the scoring view

Which images are shown is said on the item alone (`shownImages`). An image in a choice that lies inside
another choice is shown more than once, and is listed that often. What is read of the HTML holds just
these images, in this order, with the attributes that the item gives them (`images_shownNodes`).
-/

namespace Assessment.Html

/-- The attributes of the images among some nodes and below them, in document order. -/
def imagesOf (nodes : List Node) : List Attributes :=
  (Node.elementsOf nodes).filterMap fun (name, attributes) =>
    if name = "img".toList then some attributes else none

/-- The images among some nodes, the first of which is an element. -/
theorem imagesOf_cons_element (name : List Char) (attributes : Attributes)
    (children nodes : List Node) :
    imagesOf (.element name attributes children :: nodes) =
      (if name = "img".toList then [attributes] else []) ++
        (imagesOf children ++ imagesOf nodes) := by
  simp only [imagesOf, Node.elementsOf, Node.elements, List.cons_append, List.filterMap_cons,
    List.filterMap_append]
  by_cases h : name = "img".toList
  · simp only [if_pos h]
    rfl
  · simp only [if_neg h]
    rfl

theorem imagesOf_cons_other {name : List Char} (h : name ≠ "img".toList) (attributes : Attributes)
    (children nodes : List Node) :
    imagesOf (.element name attributes children :: nodes) = imagesOf children ++ imagesOf nodes := by
  rw [imagesOf_cons_element, if_neg h]
  rfl

end Assessment.Html

namespace Assessment.Scoring

open Assessment.Html Assessment.Item Assessment.Markup Assessment.Text Assessment.Xml

/-! ## Images that are shown -/

mutual

/-- The attributes of the images that are shown of a node, once for each time, from left to right. -/
def shownImagesOf : Xml.Node → List Attributes
  | .element tag attributes children =>
    match Rule.ofName (localName tag) with
    | .image => [attributes]
    | .choices => choiceImages children
    | rule => if rule.goesOn then shownImages children else []
  | _ => []

/-- The attributes of the images that are shown of some siblings. -/
def shownImages : List Xml.Node → List Attributes
  | [] => []
  | node :: nodes => shownImagesOf node ++ shownImages nodes

/-- The attributes of the images in the choices at and below a node. -/
def choiceImagesOf : Xml.Node → List Attributes
  | .element tag _ children =>
    (if localName tag == choiceName then shownImages children else []) ++ choiceImages children
  | _ => []

/-- The attributes of the images in the choices at and below some siblings. -/
def choiceImages : List Xml.Node → List Attributes
  | [] => []
  | node :: nodes => choiceImagesOf node ++ choiceImages nodes

end

namespace Layout

variable {β : Type}

mutual

/-- The attributes of the images in a layout. -/
def images : Layout β → List Attributes
  | .image attributes => [attributes]
  | .box _ inside => imagesAll inside
  | .code _ _ inside => imagesAll inside
  | _ => []

/-- The attributes of the images in some layouts. -/
def imagesAll : List (Layout β) → List Attributes
  | [] => []
  | layout :: layouts => images layout ++ imagesAll layouts

end

theorem image?_marks (around : Box) : around.marks.filterMap Mark.image? = [] := by
  cases around <;> rfl

mutual

theorem images_eq : ∀ layout : Layout β, images layout = (marks layout).filterMap Mark.image?
  | .text _ | .blank _ | .answer | .line => rfl
  | .image _ => rfl
  | .box around inside => by
    rw [images, marks, List.filterMap_append, image?_marks, imagesAll_eq inside]
    rfl
  | .code _ _ inside => imagesAll_eq inside

theorem imagesAll_eq : ∀ layouts : List (Layout β),
    imagesAll layouts = (marksAll layouts).filterMap Mark.image?
  | [] => rfl
  | layout :: layouts => by
    rw [imagesAll, marksAll, List.filterMap_append, images_eq layout, imagesAll_eq layouts]

end

end Layout

mutual

theorem shownImagesOf_eq : ∀ node : Xml.Node,
    shownImagesOf node = (shownMarksOf node).filterMap Mark.image?
  | .text _ | .comment _ => by
    rw [shownImagesOf, shownMarksOf]
    · rfl
    all_goals simp
  | .element tag attributes children => by
    rw [shownImagesOf, shownMarksOf]
    cases Rule.ofName (localName tag) with
    | image => rfl
    | choices => exact choiceImages_eq children
    | line | blank | extendedText | hidden => rfl
    | wrap _ | link | code | pre | orderedList | transparent => exact shownImages_eq children

theorem shownImages_eq : ∀ nodes : List Xml.Node,
    shownImages nodes = (shownMarks nodes).filterMap Mark.image?
  | [] => rfl
  | node :: nodes => by
    rw [shownImages, shownMarks, List.filterMap_append, shownImagesOf_eq, shownImages_eq]

theorem choiceImagesOf_eq : ∀ node : Xml.Node,
    choiceImagesOf node = (choiceMarksOf node).filterMap Mark.image?
  | .text _ | .comment _ => by
    rw [choiceImagesOf, choiceMarksOf]
    · rfl
    all_goals simp
  | .element tag attributes children => by
    rw [choiceImagesOf, choiceMarksOf, List.filterMap_append, choiceImages_eq children]
    split
    · rw [List.filterMap_cons, shownImages_eq children]
      rfl
    · rfl

theorem choiceImages_eq : ∀ nodes : List Xml.Node,
    choiceImages nodes = (choiceMarks nodes).filterMap Mark.image?
  | [] => rfl
  | node :: nodes => by
    rw [choiceImages, choiceMarks, List.filterMap_append, choiceImagesOf_eq, choiceImages_eq]

end

open Layout

/-- The images of a numbered layout are those that are shown. -/
theorem images_shown (blanks : Nat) (nodes : List Xml.Node) :
    imagesAll (numberAll blanks (layoutNodes Spacing.root [] 0 nodes)).1 = shownImages nodes := by
  rw [imagesAll_eq, marksAll_numberAll, marks_layoutNodes, shownImages_eq]

/-! ## Images that are read -/

theorem imagesOf_nodes_trimTrees (afterBlank beforeBlank : Bool) (trees : List Tree) :
    imagesOf (Tree.nodes (trimTrees afterBlank beforeBlank trees)) = imagesOf (Tree.nodes trees) := by
  rw [imagesOf, ← Tree.elementsOf_tags, tags_trimTrees, Tree.elementsOf_tags, imagesOf]

theorem ne_img_of_mem_boxTags {tag : List Char} (h : tag ∈ boxTags) : tag ≠ "img".toList :=
  (by decide : ∀ tag ∈ boxTags, tag ≠ "img".toList) tag h

/-- The images among the nodes of layouts are their images, from left to right. -/
theorem imagesOf_nodes_treesOf : ∀ {layouts : List (Layout Nat)}, TaggedAll layouts →
    imagesOf (Tree.nodes (treesOf layouts)) =
      (imagesAll layouts).map fun attributes => (imageAttributed attributes).read
  | [], _ => rfl
  | .text s :: layouts, h => by
    have ih := imagesOf_nodes_treesOf h.2
    rw [treesOf, imagesAll, treeOf, Tree.nodes, Markup.Tree.node]
    exact ih
  | .blank index :: layouts, h => by
    rw [treesOf, imagesAll, treeOf, Tree.nodes, Markup.Tree.node, imagesOf_cons_other (by decide),
      imagesOf_nodes_treesOf h.2]
    rfl
  | .answer :: layouts, h => by
    rw [treesOf, imagesAll, treeOf, answerTree, Tree.nodes, Markup.Tree.node,
      imagesOf_cons_other (by decide), imagesOf_nodes_treesOf h.2]
    rfl
  | .image attributes :: layouts, h => by
    rw [treesOf, imagesAll, treeOf, Tree.nodes, Markup.Tree.node, imagesOf_cons_element, if_pos rfl,
      imagesOf_nodes_treesOf h.2]
    rfl
  | .line :: layouts, h => by
    rw [treesOf, imagesAll, treeOf, Tree.nodes, Markup.Tree.node, imagesOf_cons_other (by decide),
      imagesOf_nodes_treesOf h.2]
    rfl
  | .box around inside :: layouts, h => by
    rw [treesOf, imagesAll, treeOf, Tree.nodes, Markup.Tree.node,
      imagesOf_cons_other (ne_img_of_mem_boxTags h.1.1), imagesOf_nodes_treesOf h.1.2,
      imagesOf_nodes_treesOf h.2, List.map_append, images]
  | .code afterBlank beforeBlank inside :: layouts, h => by
    have hinside : TaggedAll inside := h.1
    rw [treesOf, imagesAll, treeOf, Tree.nodes, Markup.Tree.node, imagesOf_cons_other (by decide),
      imagesOf_nodes_trimTrees, imagesOf_nodes_treesOf hinside, imagesOf_nodes_treesOf h.2,
      List.map_append, images]

/-- The images that are read of the view are those that are shown of the item. -/
theorem imagesOf_shownNodes (blanks : Nat) (nodes : List Xml.Node) :
    imagesOf (shownNodes blanks nodes) =
      (shownImages nodes).map fun attributes => (imageAttributed attributes).read := by
  have htagged := taggedAll_numberAll blanks (taggedAll_layoutNodes Spacing.root [] 0 nodes)
  rw [imagesOf, shownNodes, elementsOf_joined]
  show imagesOf (Tree.nodes _) = _
  rw [imagesOf_nodes_treesOf htagged, images_shown]

end Assessment.Scoring
