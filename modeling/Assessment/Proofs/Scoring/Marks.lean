import Assessment.Proofs.Scoring.DocumentOrder

/-!
# Proofs: images and choices of the scoring view

Images and choices are shown with attributes of their own. Which of them are shown is said on the item
alone (`shownMarks`): an image or a choice in a choice that lies inside another choice is shown more than
once, and is listed that often. The layout holds just these, in this order (`marks_layoutNodes`).
-/

namespace Assessment.Scoring

open Assessment.Item Assessment.Xml

/-- What is shown with attributes of its own. -/
inductive Mark where
  /-- An image. -/
  | image (attributes : Attributes)
  /-- A choice. -/
  | choice (attributes : Attributes)

namespace Mark

/-- The attributes of an image. -/
def image? : Mark → Option Attributes
  | image attributes => some attributes
  | choice _ => none

/-- The attributes of a choice. -/
def choice? : Mark → Option Attributes
  | image _ => none
  | choice attributes => some attributes

end Mark

mutual

/-- The images and choices that are shown of a node, once for each time, from left to right. -/
def shownMarksOf : Node → List Mark
  | .element tag attributes children =>
    match Rule.ofName (localName tag) with
    | .image => [.image attributes]
    | .choices => choiceMarks children
    | rule => if rule.goesOn then shownMarks children else []
  | _ => []

/-- The images and choices that are shown of some siblings. -/
def shownMarks : List Node → List Mark
  | [] => []
  | node :: nodes => shownMarksOf node ++ shownMarks nodes

/-- The choices at and below a node with what is shown in them. -/
def choiceMarksOf : Node → List Mark
  | .element tag attributes children =>
    (if localName tag == choiceName then .choice attributes :: shownMarks children else []) ++
      choiceMarks children
  | _ => []

/-- The choices at and below some siblings with what is shown in them. -/
def choiceMarks : List Node → List Mark
  | [] => []
  | node :: nodes => choiceMarksOf node ++ choiceMarks nodes

end

/-- What a tag itself shows. -/
def Box.marks : Box → List Mark
  | choice attributes => [.choice attributes]
  | _ => []

namespace Layout

variable {β : Type}

mutual

/-- The images and choices in a layout. -/
def marks : Layout β → List Mark
  | .image attributes => [.image attributes]
  | .box around inside => around.marks ++ marksAll inside
  | .code _ _ inside => marksAll inside
  | _ => []

/-- The images and choices in some layouts. -/
def marksAll : List (Layout β) → List Mark
  | [] => []
  | layout :: layouts => marks layout ++ marksAll layouts

end

@[simp] theorem marksAll_append (l m : List (Layout β)) :
    marksAll (l ++ m) = marksAll l ++ marksAll m := by
  induction l with
  | nil => rfl
  | cons layout layouts ih => rw [List.cons_append, marksAll, marksAll, ih, List.append_assoc]

@[simp] theorem marksAll_box (around : Box) (inside : List (Layout β)) :
    marksAll [.box around inside] = around.marks ++ marksAll inside := List.append_nil _

@[simp] theorem marksAll_code (afterBlank beforeBlank : Bool) (inside : List (Layout β)) :
    marksAll [.code afterBlank beforeBlank inside] = marksAll inside := List.append_nil _

mutual

theorem marks_number (blanks : Nat) : ∀ layout : Layout β,
    marks (number blanks layout).1 = marks layout
  | .text _ | .blank _ | .answer | .image _ | .line => rfl
  | .box around inside => congrArg (around.marks ++ ·) (marksAll_numberAll blanks inside)
  | .code _ _ inside => marksAll_numberAll blanks inside

/-- Numbering leaves the images and choices as they are. -/
theorem marksAll_numberAll (blanks : Nat) : ∀ layouts : List (Layout β),
    marksAll (numberAll blanks layouts).1 = marksAll layouts
  | [] => rfl
  | layout :: layouts => by
    rw [numberAll, marksAll, marksAll, marks_number, marksAll_numberAll]

end

end Layout

open Layout

mutual

theorem marks_layoutNode (spacing : Spacing) (place : Place) : ∀ node : Node,
    marksAll (layoutNode spacing place node) = shownMarksOf node
  | .text s => by
    rw [layoutNode, shownMarksOf]
    · split <;> rfl
    · simp
  | .comment _ => by
    rw [layoutNode, shownMarksOf]
    · rfl
    · simp
  | .element tag attributes children => by
    have hnodes := marks_layoutNodes spacing place 0 children
    rw [layoutNode, shownMarksOf]
    cases Rule.ofName (localName tag) with
    | wrap name =>
      simpa only [marksAll_box, Box.marks, List.nil_append, Rule.goesOn, if_true] using hnodes
    | link =>
      simpa only [marksAll_box, Box.marks, List.nil_append, Rule.goesOn, if_true] using hnodes
    | code =>
      simpa only [marksAll_code, Rule.goesOn, if_true] using
        marks_layoutNodes spacing.keeping place 0 children
    | pre =>
      simpa only [marksAll_box, Box.marks, List.nil_append, Rule.goesOn, if_true] using
        marks_layoutPre false place 0 children
    | orderedList =>
      simpa only [marksAll_box, Box.marks, List.nil_append, Rule.goesOn, if_true] using hnodes
    | image => rfl
    | line => rfl
    | blank => rfl
    | extendedText => rfl
    | choices =>
      simpa only [marksAll_box, Box.marks, List.nil_append] using marks_layoutChoices place 0 children
    | hidden => rfl
    | transparent => exact hnodes

/-- The images and choices of a layout are those that are shown. -/
theorem marks_layoutNodes (spacing : Spacing) (parent : Place) (i : Nat) :
    ∀ nodes : List Node, marksAll (layoutNodes spacing parent i nodes) = shownMarks nodes
  | [] => rfl
  | node :: nodes => by
    rw [layoutNodes, shownMarks, marksAll_append, marks_layoutNode, marks_layoutNodes]

theorem marks_layoutPre (afterBlank : Bool) (parent : Place) (i : Nat) :
    ∀ nodes : List Node, marksAll (layoutPre afterBlank parent i nodes) = shownMarks nodes
  | [] => rfl
  | .comment s :: nodes => by
    have hnode : shownMarksOf (.comment s) = [] := by
      rw [shownMarksOf]
      simp
    rw [layoutPre, shownMarks, hnode, marks_layoutPre afterBlank parent (i + 1) nodes]
    rfl
  | .text s :: nodes => by
    have hnode : shownMarksOf (.text s) = [] := by
      rw [shownMarksOf]
      simp
    rw [layoutPre, shownMarks, hnode]
    split
    · exact marks_layoutPre afterBlank parent (i + 1) nodes
    · exact marks_layoutPre false parent (i + 1) nodes
  | .element tag attributes children :: nodes => by
    rw [layoutPre, shownMarks]
    split
    · next hcode =>
      have hrule : Rule.ofName (localName tag) = .code := by
        rw [eq_of_beq hcode]
        decide
      have hnode : shownMarksOf (.element tag attributes children) = shownMarks children := by
        rw [shownMarksOf, hrule]
        rfl
      rw [← List.singleton_append, marksAll_append, marksAll_code, hnode,
        marks_layoutNodes _ (parent ++ [i]) 0 children, marks_layoutPre false parent (i + 1) nodes]
    · rw [marksAll_append, marks_layoutPre _ parent (i + 1) nodes,
        marks_layoutNode Spacing.pre (parent ++ [i]) (.element tag attributes children)]

theorem marks_layoutChoicesOf (place : Place) : ∀ node : Node,
    marksAll (layoutChoicesOf place node) = choiceMarksOf node
  | .text _ => by
    rw [layoutChoicesOf, choiceMarksOf]
    · rfl
    all_goals simp
  | .comment _ => by
    rw [layoutChoicesOf, choiceMarksOf]
    · rfl
    all_goals simp
  | .element tag attributes children => by
    rw [layoutChoicesOf, choiceMarksOf, ← marks_layoutChoices place 0 children]
    split
    · rw [← marks_layoutNodes Spacing.root place 0 children, ← List.singleton_append, marksAll_append,
        marksAll_box]
      rfl
    · rfl

theorem marks_layoutChoices (parent : Place) (i : Nat) : ∀ nodes : List Node,
    marksAll (layoutChoices parent i nodes) = choiceMarks nodes
  | [] => rfl
  | node :: nodes => by
    rw [layoutChoices, choiceMarks, marksAll_append, marks_layoutChoicesOf, marks_layoutChoices]

end

end Assessment.Scoring
