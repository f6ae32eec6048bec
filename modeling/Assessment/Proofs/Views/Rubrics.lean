import Assessment.Proofs.Views.Blanks
import Assessment.Proofs.Xml.Locate

/-!
# Proofs: rubrics are kept from candidates

Two items are compared that differ only in what their rubric blocks are. A report shows the same question
of both. A scorer sees the same prompt of both if no choice lies in a rubric block of a choice
interaction: an interaction looks up the choices below it, and does not stop at rubric blocks.
-/

namespace Assessment.Views

open Assessment.Item Assessment.Text Assessment.Xml
open Assessment.Scoring (interactionName choiceName blankName codeName)

/-- The name of rubric blocks. -/
def rubricName : List Char := "qti-rubric-block".toList

/-- The name of item bodies. -/
def bodyName : List Char := "qti-item-body".toList

/-! ## Items that differ in their rubrics -/

mutual

/-- The nodes are the same but for the attributes and the content of rubric blocks in item bodies.
`inBody` says that the nodes are in an item body. -/
inductive SameNode : Bool → Node → Node → Prop where
  | text {inBody : Bool} (s : List Char) : SameNode inBody (.text s) (.text s)
  | comment {inBody : Bool} (s : List Char) : SameNode inBody (.comment s) (.comment s)
  /-- A rubric block in an item body. -/
  | rubric {tag : List Char} {attributes attributes' : Attributes} {children children' : List Node}
      (hrubric : localName tag = rubricName) :
      SameNode true (.element tag attributes children) (.element tag attributes' children')
  /-- Any element. -/
  | element {inBody : Bool} {tag : List Char} {attributes : Attributes} {children children' : List Node}
      (h : SameNodes (inBody || isNamed bodyName tag) children children') :
      SameNode inBody (.element tag attributes children) (.element tag attributes children')

/-- The nodes of two lists are the same one by one, but for rubric blocks in item bodies. -/
inductive SameNodes : Bool → List Node → List Node → Prop where
  | nil {inBody : Bool} : SameNodes inBody [] []
  | cons {inBody : Bool} {node node' : Node} {nodes nodes' : List Node}
      (hnode : SameNode inBody node node') (h : SameNodes inBody nodes nodes') :
      SameNodes inBody (node :: nodes) (node' :: nodes')

end

/-- The items differ only in the attributes and the content of rubric blocks in the item body. -/
structure SameButRubrics (root root' : Element) : Prop where
  /-- The items have the same tag. -/
  tag : root.tag = root'.tag
  /-- The items have the same attributes. -/
  attributes : root.attributes = root'.attributes
  /-- The items hold the same but for rubric blocks. -/
  children : SameNodes false root.children root'.children

/-! ## The item body -/

/-- The element is an item body. -/
def isBody (e : Element) : Bool := isNamed bodyName e.tag

theorem head?_locate (root : Element) (name : List Char) :
    (root.locate name).head? = root.descendants.find? fun e => isNamed name e.tag := by
  rw [Element.locate_eq, List.head?_filter]

/-- The bodies are the same but for rubric blocks. -/
def SameBody (body body' : Element) : Prop := SameNodes true body.children body'.children

mutual

theorem sameBody_find?_elements : ∀ {node node' : Node}, SameNode false node node' →
    Option.Rel SameBody (node.elements.find? isBody) (node'.elements.find? isBody)
  | .text _, _, h => by
    cases h
    exact .none
  | .comment _, _, h => by
    cases h
    exact .none
  | .element tag attributes children, _, h => by
    cases h with
    | @element _ _ _ _ children' h =>
      rw [Node.elements, Node.elements]
      by_cases hbody : isNamed bodyName tag = true
      · have hfound : ∀ inside : List Node, isBody ⟨tag, attributes, inside⟩ := fun _ => hbody
        rw [List.find?_cons_of_pos (hfound children), List.find?_cons_of_pos (hfound children')]
        rw [hbody] at h
        exact .some h
      · have hnot : ∀ inside : List Node, ¬ isBody ⟨tag, attributes, inside⟩ := fun _ => hbody
        rw [List.find?_cons_of_neg (hnot children), List.find?_cons_of_neg (hnot children')]
        rw [Bool.not_eq_true] at hbody
        rw [hbody] at h
        exact sameBody_find?_elementsOf h

/-- Nodes that are the same outside of item bodies have the same first item body, but for rubric
blocks. -/
theorem sameBody_find?_elementsOf : ∀ {nodes nodes' : List Node}, SameNodes false nodes nodes' →
    Option.Rel SameBody ((elementsOf nodes).find? isBody) ((elementsOf nodes').find? isBody)
  | [], _, h => by
    cases h
    exact .none
  | node :: nodes, _, h => by
    cases h with
    | @cons _ _ node' _ nodes' hnode h =>
      have hfirst := sameBody_find?_elements hnode
      have hrest := sameBody_find?_elementsOf h
      rw [elementsOf, elementsOf, List.find?_append, List.find?_append]
      generalize node.elements.find? isBody = first at hfirst
      generalize node'.elements.find? isBody = first' at hfirst
      cases hfirst with
      | none => exact hrest
      | some hsame => exact .some hsame

end

/-- The bodies of two items that differ only in their rubrics are the same but for rubric blocks. -/
theorem SameButRubrics.sameBody {root root' : Element} (h : SameButRubrics root root') :
    Option.Rel SameBody (Scoring.itemBody? root) (Scoring.itemBody? root') := by
  have hfound := sameBody_find?_elementsOf h.children
  unfold Scoring.itemBody?
  rw [head?_locate, head?_locate]
  exact hfound

/-! ## Reports -/

mutual

theorem report_renderNode_eq (options : Report.Options) (spacing : Spacing) :
    ∀ {node node' : Node}, SameNode true node node' →
      Report.renderNode options spacing node = Report.renderNode options spacing node'
  | .text _, _, h => by
    cases h
    rfl
  | .comment _, _, h => by
    cases h
    rfl
  | .element tag attributes children, _, h => by
    cases h with
    | rubric hrubric =>
      rw [Report.renderNode, Report.renderNode, hrubric]
      rfl
    | element h =>
      have hinside := fun inner : Spacing => report_renderNodes_eq options inner h
      rw [Report.renderNode, Report.renderNode]
      cases Report.Rule.ofName (localName tag) <;> simp only [hinside]

/-- A report shows the same of nodes that are the same but for rubric blocks. -/
theorem report_renderNodes_eq (options : Report.Options) (spacing : Spacing) :
    ∀ {nodes nodes' : List Node}, SameNodes true nodes nodes' →
      Report.renderNodes options spacing nodes = Report.renderNodes options spacing nodes'
  | [], _, h => by
    cases h
    rfl
  | node :: nodes, _, h => by
    cases h with
    | cons hnode h =>
      rw [Report.renderNodes, Report.renderNodes, report_renderNode_eq options spacing hnode,
        report_renderNodes_eq options spacing h]

end

/-! ## The view for scorers -/

/-- No element among the nodes or below them is a choice. -/
def NoChoice (nodes : List Node) : Prop := ∀ e ∈ elementsOf nodes, e.name ≠ choiceName

/-- No rubric block among the nodes or below them holds a choice. -/
def RubricsWithoutChoices (nodes : List Node) : Prop :=
  ∀ e ∈ elementsOf nodes, e.name = rubricName → NoChoice e.children

/-- No rubric block in a choice interaction holds a choice. -/
def RubricsApart (nodes : List Node) : Prop :=
  ∀ e ∈ elementsOf nodes, e.name = interactionName → RubricsWithoutChoices e.children

/-- Nodes are as the nodes around them if that is said of all elements. -/
theorem forall_elements_of_cons {P : Element → Prop} {node : Node} {nodes : List Node}
    (h : ∀ e ∈ elementsOf (node :: nodes), P e) :
    (∀ e ∈ elementsOf [node], P e) ∧ ∀ e ∈ elementsOf nodes, P e := by
  rw [elementsOf] at h
  constructor
  · intro e he
    rw [elementsOf, elementsOf, List.append_nil] at he
    exact h e (List.mem_append_left _ he)
  · intro e he
    exact h e (List.mem_append_right _ he)

theorem forall_elements_of_element {P : Element → Prop} {tag : List Char} {attributes : Attributes}
    {children : List Node} (h : ∀ e ∈ elementsOf [.element tag attributes children], P e) :
    P ⟨tag, attributes, children⟩ ∧ ∀ e ∈ elementsOf children, P e := by
  rw [elementsOf, elementsOf, List.append_nil, Node.elements] at h
  exact List.forall_mem_cons.1 h

mutual

theorem renderChoicesOf_of_noChoice (options : Scoring.Options) (blanks : Nat) :
    ∀ {node : Node}, NoChoice [node] → Scoring.renderChoicesOf options blanks node = ⟨[], blanks⟩
  | .text _, _ => by
    rw [Scoring.renderChoicesOf]
    simp
  | .comment _, _ => by
    rw [Scoring.renderChoicesOf]
    simp
  | .element tag attributes children, h => by
    obtain ⟨hself, hbelow⟩ := forall_elements_of_element h
    have htag : ¬ (localName tag == choiceName) = true := fun heq => hself (eq_of_beq heq)
    rw [Scoring.renderChoicesOf, if_neg htag]
    exact renderChoices_of_noChoice options blanks hbelow

/-- Nodes without choices show no choices. -/
theorem renderChoices_of_noChoice (options : Scoring.Options) (blanks : Nat) :
    ∀ {nodes : List Node}, NoChoice nodes → Scoring.renderChoices options blanks nodes = ⟨[], blanks⟩
  | [], _ => by rw [Scoring.renderChoices]
  | node :: nodes, h => by
    obtain ⟨hnode, hnodes⟩ := forall_elements_of_cons h
    rw [Scoring.renderChoices, renderChoicesOf_of_noChoice options blanks hnode,
      renderChoices_of_noChoice options blanks hnodes]
    rfl

end

mutual

theorem descendants_subset_elements : ∀ {node : Node} {e : Element}, e ∈ node.elements →
    e.descendants ⊆ node.elements
  | .text _, _, he => absurd he List.not_mem_nil
  | .comment _, _, he => absurd he List.not_mem_nil
  | .element tag attributes children, e, he => by
    rw [Node.elements] at he ⊢
    rcases List.mem_cons.1 he with rfl | he
    · exact List.subset_cons_self _ _
    · exact List.subset_cons_of_subset _ (descendants_subset_elementsOf he)

/-- What is below an element that is below some nodes is below these nodes. -/
theorem descendants_subset_elementsOf : ∀ {nodes : List Node} {e : Element}, e ∈ elementsOf nodes →
    e.descendants ⊆ elementsOf nodes
  | [], _, he => absurd he List.not_mem_nil
  | node :: nodes, e, he => by
    rw [elementsOf] at he ⊢
    rcases List.mem_append.1 he with he | he
    · exact List.subset_append_of_subset_left _ (descendants_subset_elements he)
    · exact List.subset_append_of_subset_right _ (descendants_subset_elementsOf he)

end

/-- Where no rubric block holds a choice, none in a choice interaction does. -/
theorem RubricsWithoutChoices.apart {nodes : List Node} (h : RubricsWithoutChoices nodes) :
    RubricsApart nodes := by
  intro e he _ inner hinner
  exact h inner (descendants_subset_elementsOf he hinner)

theorem SameNode.isElement {inBody : Bool} {node node' : Node} (h : SameNode inBody node node')
    (name : List Char) : node.isElement name = node'.isElement name := by
  cases h <;> rfl

theorem SameNode.isPreContent {inBody : Bool} {node node' : Node} (h : SameNode inBody node node') :
    Scoring.isPreContent node = Scoring.isPreContent node' := by
  cases h <;> rfl

theorem SameNodes.startsWithBlank {inBody : Bool} {nodes nodes' : List Node}
    (h : SameNodes inBody nodes nodes') :
    Scoring.startsWithBlank nodes = Scoring.startsWithBlank nodes' := by
  induction nodes generalizing nodes' with
  | nil =>
    cases h
    rfl
  | cons node nodes ih =>
    cases h with
    | @cons _ _ node' _ nodes' hnode h =>
      have hrest := ih h
      have hname := hnode.isElement blankName
      have hcounts := hnode.isPreContent
      unfold Scoring.startsWithBlank at hrest ⊢
      by_cases hnodeCounts : Scoring.isPreContent node = true
      · rw [List.find?_cons_of_pos hnodeCounts, List.find?_cons_of_pos (hcounts ▸ hnodeCounts)]
        exact hname
      · rw [List.find?_cons_of_neg hnodeCounts, List.find?_cons_of_neg (hcounts ▸ hnodeCounts)]
        exact hrest

theorem SameNodes.preStart {inBody : Bool} {nodes nodes' : List Node}
    (h : SameNodes inBody nodes nodes') (options : Scoring.Options) :
    Scoring.preStart options nodes = Scoring.preStart options nodes' := by
  have hany : (nodes.any fun node => node.isElement blankName) =
      nodes'.any fun node => node.isElement blankName := by
    induction nodes generalizing nodes' with
    | nil =>
      cases h
      rfl
    | cons node nodes ih =>
      cases h with
      | cons hnode h => rw [List.any_cons, List.any_cons, hnode.isElement blankName, ih h]
  unfold Scoring.preStart
  rw [hany]

mutual

theorem renderNode_eq (options : Scoring.Options) (spacing : Spacing) (blanks : Nat) :
    ∀ {node node' : Node}, SameNode true node node' → RubricsApart [node] → RubricsApart [node'] →
      Scoring.renderNode options spacing blanks node = Scoring.renderNode options spacing blanks node'
  | .text _, _, h, _, _ => by
    cases h
    rfl
  | .comment _, _, h, _, _ => by
    cases h
    rfl
  | .element tag attributes children, _, h, hapart, hapart' => by
    cases h with
    | rubric hrubric =>
      rw [Scoring.renderNode, Scoring.renderNode, hrubric]
      rfl
    | element h =>
      obtain ⟨hself, hbelow⟩ := forall_elements_of_element hapart
      obtain ⟨hself', hbelow'⟩ := forall_elements_of_element hapart'
      have hinside := fun inner : Spacing => renderNodes_eq options inner blanks h hbelow hbelow'
      have hpre := renderPre_eq options false blanks h hbelow hbelow'
      rw [Scoring.renderNode, Scoring.renderNode, h.preStart options]
      cases hrule : Scoring.Rule.ofName (localName tag) <;> simp only [hinside, hpre]
      have hname := Scoring.Rule.ofName_eq_choices_iff.1 hrule
      rw [renderChoices_eq options blanks h (hself hname) (hself' hname)]
termination_by structural node => node

/-- A scorer sees the same of nodes that are the same but for rubric blocks. -/
theorem renderNodes_eq (options : Scoring.Options) (spacing : Spacing) (blanks : Nat) :
    ∀ {nodes nodes' : List Node}, SameNodes true nodes nodes' → RubricsApart nodes →
      RubricsApart nodes' →
        Scoring.renderNodes options spacing blanks nodes =
          Scoring.renderNodes options spacing blanks nodes'
  | [], _, h, _, _ => by
    cases h
    rfl
  | node :: nodes, _, h, hapart, hapart' => by
    cases h with
    | cons hnode h =>
      obtain ⟨hfirst, hrest⟩ := forall_elements_of_cons hapart
      obtain ⟨hfirst', hrest'⟩ := forall_elements_of_cons hapart'
      rw [Scoring.renderNodes, Scoring.renderNodes, renderNode_eq options spacing blanks hnode hfirst
        hfirst', renderNodes_eq options spacing _ h hrest hrest']
termination_by structural nodes => nodes

theorem renderPre_eq (options : Scoring.Options) (afterBlank : Bool) (blanks : Nat) :
    ∀ {nodes nodes' : List Node}, SameNodes true nodes nodes' → RubricsApart nodes →
      RubricsApart nodes' →
        Scoring.renderPre options afterBlank blanks nodes =
          Scoring.renderPre options afterBlank blanks nodes'
  | [], _, h, _, _ => by
    cases h
    rfl
  | .text s :: nodes, _, h, hapart, hapart' => by
    cases h with
    | cons hnode h =>
      cases hnode
      obtain ⟨-, hrest⟩ := forall_elements_of_cons hapart
      obtain ⟨-, hrest'⟩ := forall_elements_of_cons hapart'
      rw [Scoring.renderPre, Scoring.renderPre, renderPre_eq options _ blanks h hrest hrest',
        renderPre_eq options _ blanks h hrest hrest']
  | .comment s :: nodes, _, h, hapart, hapart' => by
    cases h with
    | cons hnode h =>
      cases hnode
      obtain ⟨-, hrest⟩ := forall_elements_of_cons hapart
      obtain ⟨-, hrest'⟩ := forall_elements_of_cons hapart'
      rw [Scoring.renderPre, Scoring.renderPre, renderPre_eq options _ blanks h hrest hrest']
  | .element tag attributes children :: nodes, _, h, hapart, hapart' => by
    cases h with
    | cons hnode h =>
      obtain ⟨hfirst, hrest⟩ := forall_elements_of_cons hapart
      obtain ⟨hfirst', hrest'⟩ := forall_elements_of_cons hapart'
      have hhere := renderNode_eq options Spacing.pre blanks hnode hfirst hfirst'
      have hbeside := h.startsWithBlank
      cases hnode with
      | rubric hrubric =>
        have hcode : ¬ (localName tag == codeName) = true := by
          rw [hrubric]
          decide
        rw [Scoring.renderPre, Scoring.renderPre, if_neg hcode, if_neg hcode, hhere]
        dsimp only
        rw [renderPre_eq options _ _ h hrest hrest']
      | element hinside =>
        obtain ⟨-, hbelow⟩ := forall_elements_of_element hfirst
        obtain ⟨-, hbelow'⟩ := forall_elements_of_element hfirst'
        rw [Scoring.renderPre, Scoring.renderPre, hbeside, hhere,
          renderNodes_eq options Spacing.pre.keeping blanks hinside hbelow hbelow']
        dsimp only
        rw [renderPre_eq options _ _ h hrest hrest', renderPre_eq options _ _ h hrest hrest']
termination_by structural nodes => nodes

theorem renderChoicesOf_eq (options : Scoring.Options) (blanks : Nat) :
    ∀ {node node' : Node}, SameNode true node node' → RubricsWithoutChoices [node] →
      RubricsWithoutChoices [node'] →
        Scoring.renderChoicesOf options blanks node = Scoring.renderChoicesOf options blanks node'
  | .text _, _, h, _, _ => by
    cases h
    rfl
  | .comment _, _, h, _, _ => by
    cases h
    rfl
  | .element tag attributes children, _, h, hnone, hnone' => by
    obtain ⟨hself, hbelow⟩ := forall_elements_of_element hnone
    cases h with
    | rubric hrubric =>
      obtain ⟨hself', -⟩ := forall_elements_of_element hnone'
      have hchoice : ¬ (localName tag == choiceName) = true := by
        rw [hrubric]
        decide
      rw [Scoring.renderChoicesOf, Scoring.renderChoicesOf, if_neg hchoice, if_neg hchoice,
        renderChoices_of_noChoice options blanks (hself hrubric),
        renderChoices_of_noChoice options blanks (hself' hrubric)]
    | element h =>
      obtain ⟨-, hbelow'⟩ := forall_elements_of_element hnone'
      rw [Scoring.renderChoicesOf, Scoring.renderChoicesOf,
        renderNodes_eq options Spacing.root blanks h (RubricsWithoutChoices.apart hbelow)
          (RubricsWithoutChoices.apart hbelow')]
      dsimp only
      rw [renderChoices_eq options _ h hbelow hbelow', renderChoices_eq options _ h hbelow hbelow']
termination_by structural node => node

theorem renderChoices_eq (options : Scoring.Options) (blanks : Nat) :
    ∀ {nodes nodes' : List Node}, SameNodes true nodes nodes' → RubricsWithoutChoices nodes →
      RubricsWithoutChoices nodes' →
        Scoring.renderChoices options blanks nodes = Scoring.renderChoices options blanks nodes'
  | [], _, h, _, _ => by
    cases h
    rfl
  | node :: nodes, _, h, hnone, hnone' => by
    cases h with
    | cons hnode h =>
      obtain ⟨hfirst, hrest⟩ := forall_elements_of_cons hnone
      obtain ⟨hfirst', hrest'⟩ := forall_elements_of_cons hnone'
      rw [Scoring.renderChoices, Scoring.renderChoices, renderChoicesOf_eq options blanks hnode hfirst
        hfirst', renderChoices_eq options _ h hrest hrest']
termination_by structural nodes => nodes

end

/-! ## What candidates see -/

/-- No rubric block in a choice interaction of the item body holds a choice. -/
def BodyRubricsApart (root : Element) : Prop :=
  ∀ body, Scoring.itemBody? root = some body → RubricsApart body.children

namespace SameButRubrics

variable {root root' : Element}

/-- A report shows the same question of items that differ only in their rubrics, asks a highlighter the
same, and fails in the same way. -/
theorem question_eq (h : SameButRubrics root root') (options : Report.Options)
    (expected : List Char) :
    (Report.render options expected root).map (·.question) =
      (Report.render options expected root').map (·.question) := by
  have hidentifier : root.attributeD "identifier" = root'.attributeD "identifier" := by
    unfold Element.attributeD Element.attribute?
    rw [h.attributes]
  have hbody := h.sameBody
  unfold Report.render
  rw [findBody_eq, findBody_eq, hidentifier]
  generalize Scoring.itemBody? root = found at hbody
  generalize Scoring.itemBody? root' = found' at hbody
  by_cases hempty : (root'.attributeD "identifier").isEmpty
  · rw [if_pos hempty, if_pos hempty]
  · rw [if_neg hempty, if_neg hempty]
    by_cases hother : root'.attributeD "identifier" ≠ expected
    · rw [if_pos hother, if_pos hother]
    · rw [if_neg hother, if_neg hother]
      cases hbody with
      | none => rfl
      | @some body body' hsame =>
        have hrendered : Report.renderBody options body = Report.renderBody options body' := by
          unfold Report.renderBody
          rw [report_renderNodes_eq options Spacing.root hsame]
        dsimp only [Report.Outcome.map]
        rw [hrendered]
        cases (Report.finishHtml options (Report.renderBody options body')).result <;> rfl

/-- A scorer sees the same prompt of items that differ only in their rubrics, if these are apart from
choices. -/
theorem prompt_eq (h : SameButRubrics root root') (hapart : BodyRubricsApart root)
    (hapart' : BodyRubricsApart root') (options : Scoring.Options) :
    (Scoring.render options root).map (·.prompt) =
      (Scoring.render options root').map (·.prompt) := by
  have hbody := h.sameBody
  unfold BodyRubricsApart at hapart hapart'
  unfold Scoring.render
  generalize Scoring.itemBody? root = found at hbody hapart
  generalize Scoring.itemBody? root' = found' at hbody hapart'
  cases hbody with
  | none => rfl
  | some hsame =>
    have hprompt := renderNodes_eq options Spacing.root 0 hsame (hapart _ rfl) (hapart' _ rfl)
    show Except.ok (Scoring.renderNodes options Spacing.root 0 _).html = Except.ok _
    rw [hprompt]

end SameButRubrics

/-- Of two items that differ only in the attributes and the content of rubric blocks in the item body, a
report shows the same question. A scorer sees the same prompt, if no rubric block in a choice
interaction of either holds a choice. -/
theorem rubrics_stay_hidden {root root' : Element} (h : SameButRubrics root root') :
    (∀ (options : Report.Options) (expected : List Char),
      (Report.render options expected root).map (·.question) =
        (Report.render options expected root').map (·.question)) ∧
      (BodyRubricsApart root → BodyRubricsApart root' → ∀ options : Scoring.Options,
        (Scoring.render options root).map (·.prompt) =
          (Scoring.render options root').map (·.prompt)) :=
  ⟨h.question_eq, h.prompt_eq⟩

/-! ## Items with graded choices -/

/-- An item with a choice interaction that holds a choice and a rubric block. -/
def gradedChoice (rubric : List Node) : Element :=
  ⟨"i".toList, [("identifier".toList, ['q'])], [.element bodyName []
    [.element interactionName []
      [.element choiceName [("identifier".toList, ['A'])] [.text "yes".toList],
        .element rubricName [] rubric]]]⟩

theorem sameButRubrics_gradedChoice (rubric rubric' : List Node) :
    SameButRubrics (gradedChoice rubric) (gradedChoice rubric') where
  tag := rfl
  attributes := rfl
  children := by
    have hchoice : SameNode true (.element choiceName [("identifier".toList, ['A'])]
        [.text "yes".toList]) _ := .element (.cons (.text _) .nil)
    have hrubric : SameNode true (.element rubricName [] rubric) (.element rubricName [] rubric') :=
      .rubric (by decide)
    exact .cons (.element (.cons (.element (.cons hchoice (.cons hrubric .nil))) .nil)) .nil

instance (nodes : List Node) : Decidable (RubricsApart nodes) :=
  inferInstanceAs (Decidable (∀ e ∈ elementsOf nodes, e.name = interactionName →
    ∀ inner ∈ elementsOf e.children, inner.name = rubricName →
      ∀ choice ∈ elementsOf inner.children, choice.name ≠ choiceName))

/-- The grading guide in the rubric block is not shown. -/
theorem rubrics_stay_hidden_gradedChoice :
    SameButRubrics (gradedChoice []) (gradedChoice [.text "A is right".toList]) ∧
      BodyRubricsApart (gradedChoice []) ∧
      BodyRubricsApart (gradedChoice [.text "A is right".toList]) ∧
      (∀ (options : Report.Options) (expected : List Char),
        (Report.render options expected (gradedChoice [])).map (·.question) =
          (Report.render options expected (gradedChoice [.text "A is right".toList])).map
            (·.question)) ∧
      ∀ options : Scoring.Options, (Scoring.render options (gradedChoice [])).map (·.prompt) =
        (Scoring.render options (gradedChoice [.text "A is right".toList])).map (·.prompt) := by
  have hsame := sameButRubrics_gradedChoice [] [.text "A is right".toList]
  have hapart : BodyRubricsApart (gradedChoice []) := by
    rintro body hbody
    cases hbody
    decide
  have hapart' : BodyRubricsApart (gradedChoice [.text "A is right".toList]) := by
    rintro body hbody
    cases hbody
    decide
  obtain ⟨hreport, hscoring⟩ := rubrics_stay_hidden hsame
  exact ⟨hsame, hapart, hapart', hreport, hscoring hapart hapart'⟩

/-- A choice in the rubric block is looked up by the interaction and shown among its choices. -/
theorem choice_in_rubric_is_shown :
    SameButRubrics (gradedChoice [])
        (gradedChoice [.element choiceName [("identifier".toList, ['B'])] [.text "secret".toList]]) ∧
      (Scoring.render {} (gradedChoice [])).toOption.map (·.prompt) =
        some "<ol class=\"qti-choice-list\"><li data-choice=\"A\">yes</li></ol>".toList ∧
      (Scoring.render {} (gradedChoice
          [.element choiceName [("identifier".toList, ['B'])] [.text "secret".toList]])).toOption.map
          (·.prompt) =
        some ("<ol class=\"qti-choice-list\"><li data-choice=\"A\">yes</li>".toList ++
          "<li data-choice=\"B\">secret</li></ol>".toList) := by
  refine ⟨sameButRubrics_gradedChoice _ _, ?_, ?_⟩
  -- Literals are evaluated faster as lists of characters.
  · repeat rewrite [String.toList_ofList]
    decide +kernel
  · repeat rewrite [String.toList_ofList]
    decide +kernel

end Assessment.Views
