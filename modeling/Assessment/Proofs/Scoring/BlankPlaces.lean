import Assessment.Proofs.Scoring.Layout

/-!
# Proofs: the places of blanks

The places of the blanks that are shown of some nodes, computed by going through the nodes
(`blankPlaces`). They are the holes of the layout (`holes_layoutNodes_eq`), however white space is
treated.
-/

namespace Assessment.Scoring

open Assessment.Item Assessment.Text Assessment.Xml

/-- Elements under the rule go on to their children. -/
def Rule.goesOn : Rule → Bool
  | choices | blank | extendedText | hidden | image | line => false
  | _ => true

/-! ## The places of the blanks that are shown -/

mutual

/-- The places of the blanks that are shown of a node, as seen from the node. -/
def blankPlacesOf : Node → List Place
  | .element tag _ children =>
    match Rule.ofName (localName tag) with
    | .blank => [[]]
    | .choices => choicePlaces 0 children
    | rule => if rule.goesOn then blankPlaces 0 children else []
  | _ => []

/-- The places of the blanks that are shown of some siblings, the first of which is at position
`i`. -/
def blankPlaces (i : Nat) : List Node → List Place
  | [] => []
  | node :: nodes => (blankPlacesOf node).map (i :: ·) ++ blankPlaces (i + 1) nodes

/-- The places of the blanks in the choices at and below a node, as seen from the node. -/
def choicePlacesOf : Node → List Place
  | .element tag _ children =>
    (if localName tag == choiceName then blankPlaces 0 children else []) ++ choicePlaces 0 children
  | _ => []

/-- The places of the blanks in the choices at and below some siblings. -/
def choicePlaces (i : Nat) : List Node → List Place
  | [] => []
  | node :: nodes => (choicePlacesOf node).map (i :: ·) ++ choicePlaces (i + 1) nodes

end

/-! ## They are the holes of the layout -/

open Layout

theorem map_append_map_cons (parent : Place) (i : Nat) (places : List Place) :
    (places.map (i :: ·)).map (parent ++ ·) = places.map (parent ++ [i] ++ ·) := by
  simp [Function.comp_def]

mutual

theorem holes_layoutNode_eq (spacing : Spacing) (place : Place) : ∀ node : Node,
    holesAll (layoutNode spacing place node) = (blankPlacesOf node).map (place ++ ·)
  | .text s => by
    rw [layoutNode, blankPlacesOf]
    · split <;> rfl
    · simp
  | .comment _ => by
    rw [layoutNode, blankPlacesOf]
    · rfl
    · simp
  | .element tag attributes children => by
    have hnodes := holes_layoutNodes_eq spacing place 0 children
    rw [layoutNode, blankPlacesOf]
    cases Rule.ofName (localName tag) with
    | wrap name => simpa only [holesAll, holes, List.append_nil, Rule.goesOn, if_true] using hnodes
    | link => simpa only [holesAll, holes, List.append_nil, Rule.goesOn, if_true] using hnodes
    | code =>
      simpa only [holesAll, holes, List.append_nil, Rule.goesOn, if_true] using
        holes_layoutNodes_eq spacing.keeping place 0 children
    | pre =>
      simpa only [holesAll, holes, List.append_nil, Rule.goesOn, if_true] using
        holes_layoutPre_eq false place 0 children
    | orderedList => simpa only [holesAll, holes, List.append_nil, Rule.goesOn, if_true] using hnodes
    | image => rfl
    | line => rfl
    | blank => simp [holesAll, holes]
    | extendedText => rfl
    | choices =>
      simpa only [holesAll, holes, List.append_nil] using holes_layoutChoices_eq place 0 children
    | hidden => rfl
    | transparent => exact hnodes

/-- The holes of a layout are the places of the blanks that are shown. -/
theorem holes_layoutNodes_eq (spacing : Spacing) (parent : Place) (i : Nat) :
    ∀ nodes : List Node,
      holesAll (layoutNodes spacing parent i nodes) = (blankPlaces i nodes).map (parent ++ ·)
  | [] => by
    rw [layoutNodes, blankPlaces]
    rfl
  | node :: nodes => by
    rw [layoutNodes, blankPlaces, holesAll_append, List.map_append, map_append_map_cons,
      holes_layoutNode_eq spacing (parent ++ [i]) node,
      holes_layoutNodes_eq spacing parent (i + 1) nodes]

theorem holes_layoutPre_eq (afterBlank : Bool) (parent : Place) (i : Nat) :
    ∀ nodes : List Node,
      holesAll (layoutPre afterBlank parent i nodes) = (blankPlaces i nodes).map (parent ++ ·)
  | [] => by
    rw [layoutPre, blankPlaces]
    rfl
  | .comment s :: nodes => by
    have hnode : blankPlacesOf (.comment s) = [] := by
      rw [blankPlacesOf]
      simp
    rw [layoutPre, blankPlaces, hnode, holes_layoutPre_eq afterBlank parent (i + 1) nodes]
    rfl
  | .text s :: nodes => by
    have hnode : blankPlacesOf (.text s) = [] := by
      rw [blankPlacesOf]
      simp
    rw [layoutPre, blankPlaces, hnode]
    split
    · exact holes_layoutPre_eq afterBlank parent (i + 1) nodes
    · exact holes_layoutPre_eq false parent (i + 1) nodes
  | .element tag attributes children :: nodes => by
    rw [layoutPre, blankPlaces, List.map_append, map_append_map_cons]
    split
    · next hcode =>
      have hrule : Rule.ofName (localName tag) = .code := by
        rw [eq_of_beq hcode]
        decide
      rw [← List.singleton_append, holesAll_append, holes_layoutPre_eq false parent (i + 1) nodes,
        blankPlacesOf, hrule]
      congr 1
      simpa only [holesAll, holes, List.append_nil, Rule.goesOn, if_true] using
        holes_layoutNodes_eq Spacing.pre.keeping (parent ++ [i]) 0 children
    · rw [holesAll_append, holes_layoutPre_eq _ parent (i + 1) nodes,
        holes_layoutNode_eq Spacing.pre (parent ++ [i]) (.element tag attributes children)]

theorem holes_layoutChoicesOf_eq (place : Place) : ∀ node : Node,
    holesAll (layoutChoicesOf place node) = (choicePlacesOf node).map (place ++ ·)
  | .text _ => by
    rw [layoutChoicesOf, choicePlacesOf]
    · rfl
    all_goals simp
  | .comment _ => by
    rw [layoutChoicesOf, choicePlacesOf]
    · rfl
    all_goals simp
  | .element tag attributes children => by
    rw [layoutChoicesOf, choicePlacesOf, List.map_append,
      ← holes_layoutChoices_eq place 0 children]
    split
    · rw [← holes_layoutNodes_eq Spacing.root place 0 children, ← List.singleton_append,
        holesAll_append]
      simp only [holesAll, holes, List.append_nil]
    · rfl

theorem holes_layoutChoices_eq (parent : Place) (i : Nat) : ∀ nodes : List Node,
    holesAll (layoutChoices parent i nodes) = (choicePlaces i nodes).map (parent ++ ·)
  | [] => by
    rw [layoutChoices, choicePlaces]
    rfl
  | node :: nodes => by
    rw [layoutChoices, choicePlaces, holesAll_append, List.map_append, map_append_map_cons,
      holes_layoutChoicesOf_eq (parent ++ [i]) node,
      holes_layoutChoices_eq parent (i + 1) nodes]

end

/-- Which blanks are shown does not depend on how white space is treated. -/
theorem holes_layoutNodes (spacing other : Spacing) (parent : Place) (i : Nat) (nodes : List Node) :
    holesAll (layoutNodes spacing parent i nodes) = holesAll (layoutNodes other parent i nodes) := by
  rw [holes_layoutNodes_eq, holes_layoutNodes_eq]

end Assessment.Scoring
