import Assessment.Proofs.Scoring.ShownImages
import Assessment.Proofs.Xml.Locate

/-!
# Proofs: the choices of the scoring view

Choices are shown by the choice interactions that rendering reaches, each of which looks up all choices
below it; the choices of the item are looked up in its body at once. Where each choice lies in an
interaction and rendering reaches that (`ChoicesPlaced`), both find the same choices in document order
(`shownMarks_choices`), and the identifiers in the HTML are those of the choices found.
-/

namespace Assessment.Scoring

open Assessment.Item Assessment.Markup Assessment.Text Assessment.Xml Layout

/-! ## Identifiers in the HTML -/

/-- The attribute that holds the identifier of a choice. -/
def choiceKey : List Char := "data-choice".toList

/-- The values of the attributes in HTML that hold identifiers of choices, as they are written. -/
def choiceIdentifiers (html : List Char) : List (List Char) :=
  valuesUnder choiceKey (StartTag.quotedAttribute.findAll html)

/-- The identifier of a choice as it is written. -/
def writtenIdentifier (attributes : Attributes) : List Char :=
  escape (valueD attributes "identifier".toList)

theorem choiceKey_attributed (around : Box) :
    valuesUnder choiceKey (Tree.valuedOf around.attributed) =
      (around.marks.filterMap Mark.choice?).map writtenIdentifier := by
  cases around with
  | plain tag => rfl
  | link attributes =>
    rw [Box.attributed, valuedOf_append, valuesUnder_append,
      valuesUnder_optionalAttributed attributes (by decide),
      valuesUnder_optionalAttributed attributes (by decide)]
    rfl
  | orderedList attributes => exact valuesUnder_optionalAttributed attributes (by decide)
  | choices => rfl
  | choice attributes => rfl
  | pre withBlanks => cases withBlanks <;> rfl

mutual

theorem choiceKey_treeOf : ∀ layout : Layout Nat,
    valuesUnder choiceKey (treeOf layout).valued =
      (layout.marks.filterMap Mark.choice?).map writtenIdentifier
  | .text _ | .answer | .line => rfl
  | .blank index => rfl
  | .image attributes => valuesUnder_imageAttributed (by decide) attributes
  | .box around inside => by
    rw [treeOf, Tree.valued, valuesUnder_append, choiceKey_attributed, choiceKey_treesOf inside, marks,
      List.filterMap_append, List.map_append]
  | .code afterBlank beforeBlank inside => by
    rw [treeOf, Tree.valued, valuedAll_trimTrees, valuesUnder_append, choiceKey_treesOf inside, marks]
    rfl

/-- The identifiers of choices in the trees are those in the layouts, from left to right. -/
theorem choiceKey_treesOf : ∀ layouts : List (Layout Nat),
    valuesUnder choiceKey (Tree.valuedAll (treesOf layouts)) =
      ((marksAll layouts).filterMap Mark.choice?).map writtenIdentifier
  | [] => rfl
  | layout :: layouts => by
    rw [treesOf, Tree.valuedAll, valuesUnder_append, choiceKey_treeOf layout,
      choiceKey_treesOf layouts, marksAll, List.filterMap_append, List.map_append]

end

/-- With the default options, the identifiers in the HTML of nodes are those of the choices that are
shown. -/
theorem choiceIdentifiers_renderNodes (blanks : Nat) (nodes : List Xml.Node) :
    choiceIdentifiers (renderNodes {} Spacing.root blanks nodes).html =
      ((shownMarks nodes).filterMap Mark.choice?).map writtenIdentifier := by
  have htagged := taggedAll_numberAll blanks (taggedAll_layoutNodes Spacing.root [] 0 nodes)
  rw [renderNodes_eq_shown {} Spacing.root blanks [] 0 nodes, Layout.shown, choiceIdentifiers,
    writeAll_default, StartTag.findAll_writeAll (plainAll_treesOf htagged), choiceKey_treesOf,
    marksAll_numberAll, marks_layoutNodes]

/-! ## Where choices lie -/

mutual

/-- The node, if it is an element, and the elements below it, each with the names of the elements that it
lies in. `above` are those that the node lies in. -/
def placedOf (above : List (List Char)) : Xml.Node → List (List (List Char) × Element)
  | .element tag attributes children =>
    (above, ⟨tag, attributes, children⟩) :: placed (localName tag :: above) children
  | _ => []

/-- The elements among some nodes and below them with the names of the elements that they lie in. -/
def placed (above : List (List Char)) : List Xml.Node → List (List (List Char) × Element)
  | [] => []
  | node :: nodes => placedOf above node ++ placed above nodes

end

/-- A choice lies in a choice interaction, in no other choice, and in no element that shows nothing of
what it holds. -/
def IsPlacedChoice (above : List (List Char)) : Prop :=
  interactionName ∈ above ∧ choiceName ∉ above ∧ ∀ name ∈ endNames, name ∉ above

/-- All choices among the elements are placed so that they are shown. -/
def AllPlaced (found : List (List (List Char) × Element)) : Prop :=
  ∀ p ∈ found, p.2.name = choiceName → IsPlacedChoice p.1

instance (found : List (List (List Char) × Element)) : Decidable (AllPlaced found) :=
  inferInstanceAs (Decidable (∀ p ∈ found, p.2.name = choiceName →
    interactionName ∈ p.1 ∧ choiceName ∉ p.1 ∧ ∀ name ∈ endNames, name ∉ p.1))

/-- All choices in an element are placed so that they are shown. -/
def ChoicesPlaced (body : Element) : Prop := AllPlaced (placed [] body.children)

instance (body : Element) : Decidable (ChoicesPlaced body) :=
  inferInstanceAs (Decidable (AllPlaced (placed [] body.children)))

mutual

theorem placedOf_spec (above : List (List Char)) : ∀ node : Xml.Node,
    (placedOf above node).map (·.2) = node.elements ∧ ∀ p ∈ placedOf above node, above ⊆ p.1
  | .text _ | .comment _ => by
    rw [placedOf]
    · exact ⟨rfl, nofun⟩
    all_goals simp
  | .element tag attributes children => by
    obtain ⟨helements, habove⟩ := placed_spec (localName tag :: above) children
    rw [placedOf, Node.elements, List.map_cons, helements]
    refine ⟨rfl, List.forall_mem_cons.2 ⟨List.Subset.refl _, fun p hp => ?_⟩⟩
    exact List.Subset.trans (List.subset_cons_self _ _) (habove p hp)

/-- The elements are those in document order, and what they lie in is kept on the way down. -/
theorem placed_spec (above : List (List Char)) : ∀ nodes : List Xml.Node,
    (placed above nodes).map (·.2) = elementsOf nodes ∧ ∀ p ∈ placed above nodes, above ⊆ p.1
  | [] => ⟨rfl, nofun⟩
  | node :: nodes => by
    obtain ⟨hnode, haboveNode⟩ := placedOf_spec above node
    obtain ⟨hnodes, haboveNodes⟩ := placed_spec above nodes
    rw [placed, elementsOf, List.map_append, hnode, hnodes]
    exact ⟨rfl, fun p hp => (List.mem_append.1 hp).elim (haboveNode p) (haboveNodes p)⟩

end

theorem AllPlaced.of_cons {above : List (List Char)} {node : Xml.Node} {nodes : List Xml.Node}
    (h : AllPlaced (placed above (node :: nodes))) :
    AllPlaced (placedOf above node) ∧ AllPlaced (placed above nodes) := by
  rw [placed] at h
  exact ⟨fun p hp => h p (List.mem_append_left _ hp), fun p hp => h p (List.mem_append_right _ hp)⟩

theorem AllPlaced.of_element {above : List (List Char)} {tag : List Char} {attributes : Attributes}
    {children : List Xml.Node} (h : AllPlaced (placedOf above (.element tag attributes children))) :
    (localName tag = choiceName → IsPlacedChoice above) ∧
      AllPlaced (placed (localName tag :: above) children) := by
  rw [placedOf] at h
  exact ⟨h _ List.mem_cons_self, fun p hp => h p (List.mem_cons_of_mem _ hp)⟩

/-- Where a choice would not be shown, there is none. -/
theorem AllPlaced.ne_choiceName {above : List (List Char)} {nodes : List Xml.Node}
    (h : AllPlaced (placed above nodes))
    (hnot : choiceName ∈ above ∨ ∃ name ∈ endNames, name ∈ above) :
    ∀ e ∈ elementsOf nodes, e.name ≠ choiceName := by
  obtain ⟨helements, habove⟩ := placed_spec above nodes
  rw [← helements]
  intro e he hchoice
  obtain ⟨p, hp, rfl⟩ := List.mem_map.1 he
  obtain ⟨-, hout, hends⟩ := h p hp hchoice
  rcases hnot with hin | ⟨name, hend, hin⟩
  · exact hout (habove p hp hin)
  · exact hends name hend (habove p hp hin)

/-! ## The choices that are shown -/

/-- The attributes of the choices among some elements. -/
def choiceAttributes (elements : List Element) : List Attributes :=
  (elements.filter fun e => e.name == choiceName).map (·.attributes)

theorem choiceAttributes_append (elements more : List Element) :
    choiceAttributes (elements ++ more) = choiceAttributes elements ++ choiceAttributes more := by
  simp [choiceAttributes]

theorem choiceAttributes_cons (e : Element) (elements : List Element) :
    choiceAttributes (e :: elements) =
      (if e.name == choiceName then [e.attributes] else []) ++ choiceAttributes elements := by
  rw [choiceAttributes, List.filter_cons]
  split
  · rfl
  · rfl

theorem choiceAttributes_of_forall {elements : List Element}
    (h : ∀ e ∈ elements, e.name ≠ choiceName) : choiceAttributes elements = [] := by
  have hnone : elements.filter (fun e => e.name == choiceName) = [] :=
    List.filter_eq_nil_iff.2 fun e he => by rw [beq_iff_eq]; exact h e he
  rw [choiceAttributes, hnone, List.map_nil]

mutual

theorem choiceMarksOf_of_forall : ∀ {node : Xml.Node}, (∀ e ∈ node.elements, e.name ≠ choiceName) →
    choiceMarksOf node = []
  | .text _, _ | .comment _, _ => by
    rw [choiceMarksOf]
    simp
  | .element tag attributes children, h => by
    obtain ⟨hname, hchildren⟩ := List.forall_mem_cons.1 h
    rw [choiceMarksOf, choiceMarks_of_forall hchildren, if_neg (by rwa [beq_iff_eq])]
    rfl

theorem choiceMarks_of_forall : ∀ {nodes : List Xml.Node},
    (∀ e ∈ elementsOf nodes, e.name ≠ choiceName) → choiceMarks nodes = []
  | [], _ => rfl
  | node :: nodes, h => by
    obtain ⟨hnode, hnodes⟩ := List.forall_mem_append.1 h
    rw [choiceMarks, choiceMarksOf_of_forall hnode, choiceMarks_of_forall hnodes, List.append_nil]

end

mutual

theorem shownMarksOf_of_forall : ∀ {node : Xml.Node}, (∀ e ∈ node.elements, e.name ≠ choiceName) →
    (shownMarksOf node).filterMap Mark.choice? = []
  | .text _, _ | .comment _, _ => by
    rw [shownMarksOf]
    · rfl
    all_goals simp
  | .element tag attributes children, h => by
    obtain ⟨-, hchildren⟩ := List.forall_mem_cons.1 h
    rw [shownMarksOf]
    split
    · rfl
    · rw [choiceMarks_of_forall hchildren, List.filterMap_nil]
    · split
      · exact shownMarks_of_forall hchildren
      · rfl

/-- Where there is no choice, none is shown. -/
theorem shownMarks_of_forall : ∀ {nodes : List Xml.Node},
    (∀ e ∈ elementsOf nodes, e.name ≠ choiceName) → (shownMarks nodes).filterMap Mark.choice? = []
  | [], _ => rfl
  | node :: nodes, h => by
    obtain ⟨hnode, hnodes⟩ := List.forall_mem_append.1 h
    rw [shownMarks, List.filterMap_append, shownMarksOf_of_forall hnode, shownMarks_of_forall hnodes,
      List.append_nil]

end

mutual

theorem choices_choiceMarksOf {above : List (List Char)} : ∀ {node : Xml.Node},
    AllPlaced (placedOf above node) →
      (choiceMarksOf node).filterMap Mark.choice? = choiceAttributes node.elements
  | .text _, _ | .comment _, _ => by
    rw [choiceMarksOf, Node.elements]
    · rfl
    all_goals simp
  | .element tag attributes children, h => by
    have hchildren := h.of_element.2
    rw [choiceMarksOf, Node.elements, choiceAttributes_cons, List.filterMap_append,
      choices_choiceMarks hchildren]
    have hname : (⟨tag, attributes, children⟩ : Element).name = localName tag := rfl
    rw [hname]
    split
    · next hchoice =>
      -- No choice lies in this one, so what is shown in it adds none.
      have hnone := hchildren.ne_choiceName (.inl (List.mem_cons.2 (.inl (eq_of_beq hchoice).symm)))
      rw [List.filterMap_cons, shownMarks_of_forall hnone]
      rfl
    · rfl

/-- An interaction shows all choices below it, each once, in document order. -/
theorem choices_choiceMarks {above : List (List Char)} : ∀ {nodes : List Xml.Node},
    AllPlaced (placed above nodes) →
      (choiceMarks nodes).filterMap Mark.choice? = choiceAttributes (elementsOf nodes)
  | [], _ => rfl
  | node :: nodes, h => by
    obtain ⟨hnode, hnodes⟩ := h.of_cons
    rw [choiceMarks, elementsOf, List.filterMap_append, choiceAttributes_append,
      choices_choiceMarksOf hnode, choices_choiceMarks hnodes]

end

mutual

theorem choices_shownMarksOf {above : List (List Char)} (habove : interactionName ∉ above) :
    ∀ {node : Xml.Node}, AllPlaced (placedOf above node) →
      (shownMarksOf node).filterMap Mark.choice? = choiceAttributes node.elements
  | .text _, _ | .comment _, _ => by
    rw [shownMarksOf, Node.elements]
    · rfl
    all_goals simp
  | .element tag attributes children, h => by
    obtain ⟨hself, hchildren⟩ := h.of_element
    have hname : ¬ ((⟨tag, attributes, children⟩ : Element).name == choiceName) = true := fun hchoice =>
      habove (hself (eq_of_beq hchoice)).1
    rw [shownMarksOf, Node.elements, choiceAttributes_cons, if_neg hname, List.nil_append]
    by_cases hinteraction : localName tag = interactionName
    · rw [Rule.ofName_eq_choices_iff.2 hinteraction]
      exact choices_choiceMarks hchildren
    by_cases hend : localName tag ∈ endNames
    · -- No choice may lie here, so nothing is lost by not going on.
      have hnone := hchildren.ne_choiceName (.inr ⟨_, hend, List.mem_cons_self⟩)
      rw [choiceAttributes_of_forall hnone]
      split
      · rfl
      · next hrule => exact absurd (Rule.ofName_eq_choices_iff.1 hrule) hinteraction
      · rw [if_neg fun hgoes => (Rule.goesOn_ofName_iff.1 hgoes).2 hend]
        rfl
    · have hgoes := Rule.goesOn_ofName_iff.2 ⟨hinteraction, hend⟩
      have hbelow : interactionName ∉ localName tag :: above :=
        List.not_mem_cons_of_ne_of_not_mem (Ne.symm hinteraction) habove
      split
      · next hrule =>
        rw [hrule] at hgoes
        cases hgoes
      · next hrule => exact absurd (Rule.ofName_eq_choices_iff.1 hrule) hinteraction
      · rw [if_pos hgoes]
        exact choices_shownMarks hbelow hchildren

/-- Outside of interactions all choices are shown, each once, in document order. -/
theorem choices_shownMarks {above : List (List Char)} (habove : interactionName ∉ above) :
    ∀ {nodes : List Xml.Node}, AllPlaced (placed above nodes) →
      (shownMarks nodes).filterMap Mark.choice? = choiceAttributes (elementsOf nodes)
  | [], _ => rfl
  | node :: nodes, h => by
    obtain ⟨hnode, hnodes⟩ := h.of_cons
    rw [shownMarks, elementsOf, List.filterMap_append, choiceAttributes_append,
      choices_shownMarksOf habove hnode, choices_shownMarks habove hnodes]

end

/-- The identifiers in a prompt, read from left to right, are those of the choices of the item in this
order, if all choices are placed so that they are shown. -/
theorem prompt_lists_choices {root body : Element} (hbody : itemBody? root = some body)
    (h : ChoicesPlaced body) :
    ∃ item, render {} root = .ok item ∧
      choiceIdentifiers item.prompt = item.choices.map fun choice => escape choice.identifier := by
  have hfound : body.locate choiceName =
      (elementsOf body.children).filter fun e => e.name == choiceName :=
    body.locate_eq_filter (by decide)
  refine ⟨_, by rw [render, hbody], ?_⟩
  show choiceIdentifiers (renderNodes {} Spacing.root 0 body.children).html =
    ((body.locate choiceName).map _).map _
  rw [choiceIdentifiers_renderNodes, choices_shownMarks List.not_mem_nil h, choiceAttributes, hfound,
    List.map_map, List.map_map]
  rfl

/-- An item with an interaction inside a list and one inside another interaction. -/
def itemWithChoices : Element :=
  let choice (identifier : String) : Xml.Node :=
    .element choiceName [("identifier".toList, identifier.toList)] []
  ⟨"qti-assessment-item".toList, [],
    [.element "qti-item-body".toList []
      [.element "qti-ul".toList [] [.element interactionName [] [choice "A", choice "<B"]],
        .element interactionName []
          [.element "qti-p".toList [] [choice "C"], .element interactionName [] [choice "D"]]]]⟩

theorem prompt_lists_choices_itemWithChoices :
    ∃ body, itemBody? itemWithChoices = some body ∧ ChoicesPlaced body ∧
      ∃ item, render {} itemWithChoices = .ok item ∧
        choiceIdentifiers item.prompt = ["A".toList, "&lt;B".toList, "C".toList, "D".toList] := by
  have hplaced : ∀ body, itemBody? itemWithChoices = some body → ChoicesPlaced body := by
    rintro body ⟨⟩
    decide
  refine ⟨_, rfl, hplaced _ rfl, ?_⟩
  obtain ⟨item, hitem, hidentifiers⟩ := @prompt_lists_choices itemWithChoices _ rfl (hplaced _ rfl)
  refine ⟨item, hitem, hidentifiers.trans ?_⟩
  cases hitem
  decide

end Assessment.Scoring
