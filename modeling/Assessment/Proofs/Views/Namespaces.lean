import Assessment.Proofs.Xml.Locate
import Assessment.Report.Item
import Assessment.Scoring.Item
import Assessment.Xml.Namespace

/-!
# Proofs: namespaces of elements do not matter

Items are compared that differ only in the namespaces of their elements. Taking all elements out of their
namespaces (`Element.unqualified`) makes such items equal, and both views and the look-ups they rest on
see the same of an item before and after.
-/

namespace Assessment.Xml

open Assessment.Text

/-! ## Items that differ in their namespaces -/

mutual

/-- The nodes are the same but for the namespaces of elements. -/
inductive SameNames : Node → Node → Prop where
  | text (s : List Char) : SameNames (.text s) (.text s)
  | comment (s : List Char) : SameNames (.comment s) (.comment s)
  /-- The tags have the same local name, whatever stands before it. -/
  | element {tag tag' : List Char} {attributes : Attributes} {children children' : List Node}
      (hname : localName tag = localName tag') (h : SameNamesAll children children') :
      SameNames (.element tag attributes children) (.element tag' attributes children')

/-- The nodes of two lists are the same one by one, but for the namespaces of elements. -/
inductive SameNamesAll : List Node → List Node → Prop where
  | nil : SameNamesAll [] []
  | cons {node node' : Node} {nodes nodes' : List Node} (hnode : SameNames node node')
      (h : SameNamesAll nodes nodes') : SameNamesAll (node :: nodes) (node' :: nodes')

end

mutual

/-- The node with all its elements in no namespace. -/
def Node.unqualified : Node → Node
  | .text s => .text s
  | .comment s => .comment s
  | .element tag attributes children =>
    .element (localName tag) attributes (unqualifiedAll children)

/-- The nodes with all their elements in no namespace. -/
def unqualifiedAll : List Node → List Node
  | [] => []
  | node :: nodes => node.unqualified :: unqualifiedAll nodes

end

theorem unqualifiedAll_eq_map (nodes : List Node) :
    unqualifiedAll nodes = nodes.map Node.unqualified := by
  induction nodes with
  | nil => rfl
  | cons node nodes ih => rw [unqualifiedAll, List.map_cons, ih]

mutual

theorem SameNames.unqualified_eq : ∀ {node node' : Node}, SameNames node node' →
    node.unqualified = node'.unqualified
  | .text _, _, h => by
    cases h
    rfl
  | .comment _, _, h => by
    cases h
    rfl
  | .element _ _ _, _, h => by
    cases h with
    | element hname h => rw [Node.unqualified, Node.unqualified, hname, h.unqualifiedAll_eq]

theorem SameNamesAll.unqualifiedAll_eq : ∀ {nodes nodes' : List Node}, SameNamesAll nodes nodes' →
    unqualifiedAll nodes = unqualifiedAll nodes'
  | [], _, h => by
    cases h
    rfl
  | _ :: _, _, h => by
    cases h with
    | cons hnode h =>
      rw [unqualifiedAll, unqualifiedAll, hnode.unqualified_eq, h.unqualifiedAll_eq]

end

namespace Element

/-- The element with itself and all elements below it in no namespace. -/
def unqualified (e : Element) : Element := ⟨e.name, e.attributes, unqualifiedAll e.children⟩

/-- The elements are the same but for namespaces. -/
structure SameNames (e e' : Element) : Prop where
  /-- The elements have the same local name. -/
  name : e.name = e'.name
  /-- The elements have the same attributes. -/
  attributes : e.attributes = e'.attributes
  /-- The elements hold the same but for namespaces. -/
  children : SameNamesAll e.children e'.children

theorem SameNames.unqualified_eq {e e' : Element} (h : SameNames e e') :
    e.unqualified = e'.unqualified := by
  rw [unqualified, unqualified, h.name, h.attributes, h.children.unqualifiedAll_eq]

end Element

/-! ## What is looked up -/

mutual

theorem content_unqualified : ∀ node : Node, node.unqualified.content = node.content
  | .text _ => rfl
  | .comment _ => rfl
  | .element tag attributes children => by
    rw [Node.unqualified, Node.content, Node.content, contents_unqualifiedAll children]

theorem contents_unqualifiedAll : ∀ nodes : List Node,
    contents (unqualifiedAll nodes) = contents nodes
  | [] => rfl
  | node :: nodes => by
    rw [unqualifiedAll, contents, contents, content_unqualified node, contents_unqualifiedAll nodes]

end

mutual

theorem elements_unqualified : ∀ node : Node,
    node.unqualified.elements = node.elements.map Element.unqualified
  | .text _ => rfl
  | .comment _ => rfl
  | .element tag attributes children => by
    rw [Node.unqualified, Node.elements, Node.elements, List.map_cons,
      elementsOf_unqualifiedAll children]
    rfl

theorem elementsOf_unqualifiedAll : ∀ nodes : List Node,
    elementsOf (unqualifiedAll nodes) = (elementsOf nodes).map Element.unqualified
  | [] => rfl
  | node :: nodes => by
    rw [unqualifiedAll, elementsOf, elementsOf, List.map_append, elements_unqualified node,
      elementsOf_unqualifiedAll nodes]

end

@[simp] theorem Node.isElement_unqualified (name : List Char) (node : Node) :
    node.unqualified.isElement name = node.isElement name := by
  cases node with
  | text s => rfl
  | comment s => rfl
  | element tag attributes children =>
    rw [unqualified, isElement, isElement, localName_localName]

namespace Element

@[simp] theorem attribute?_unqualified (e : Element) (key : String) :
    e.unqualified.attribute? key = e.attribute? key := rfl

@[simp] theorem attributeD_unqualified (e : Element) (key : String) :
    e.unqualified.attributeD key = e.attributeD key := rfl

@[simp] theorem content_unqualified (e : Element) : e.unqualified.content = e.content :=
  contents_unqualifiedAll e.children

@[simp] theorem name_unqualified (e : Element) : e.unqualified.name = e.name :=
  localName_localName e.tag

/-- Looking up a name finds the same elements in no namespace. -/
theorem locate_unqualified {name : List Char} (h : '}' ∉ name) (e : Element) :
    e.unqualified.locate name = (e.locate name).map unqualified := by
  have hdescendants : e.unqualified.descendants = e.descendants.map unqualified :=
    elementsOf_unqualifiedAll e.children
  rw [locate_eq_filter h, locate_eq_filter h, hdescendants, List.filter_map]
  exact congrArg _ (List.filter_congr fun d _ => by rw [Function.comp_apply, name_unqualified])

end Element

end Assessment.Xml

/-! ## Rubrics and choices -/

namespace Assessment.Item

open Assessment.Xml

theorem criteriaFrom_unqualified (index : Nat) (lines : List Element) :
    criteriaFrom index (lines.map Element.unqualified) = criteriaFrom index lines := by
  induction lines generalizing index with
  | nil => rfl
  | cons line lines ih =>
    rw [List.map_cons, criteriaFrom, criteriaFrom, Element.content_unqualified, ih]

theorem criteria_unqualified (body : Element) : criteria body.unqualified = criteria body := by
  unfold criteria
  rw [Element.locate_unqualified (by decide), List.find?_map]
  simp only [Function.comp_def, Element.attribute?_unqualified]
  cases List.find? (fun block : Element => block.attribute? "view" == some "scorer".toList)
      (body.locate "qti-rubric-block".toList) with
  | none => rfl
  | some block =>
    simp only [Option.map_some, Element.locate_unqualified (by decide : '}' ∉ "qti-p".toList),
      criteriaFrom_unqualified]

theorem choices_unqualified (body : Element) : choices body.unqualified = choices body := by
  unfold choices
  rw [Element.locate_unqualified (by decide), List.map_map]
  simp only [Function.comp_def, Element.attributeD_unqualified, Element.content_unqualified]

end Assessment.Item

/-! ## The view for scorers -/

namespace Assessment.Scoring

open Assessment.Item Assessment.Text Assessment.Xml

@[simp] theorem isPreContent_unqualified (node : Node) :
    isPreContent node.unqualified = isPreContent node := by
  cases node <;> rfl

@[simp] theorem startsWithBlank_unqualifiedAll (nodes : List Node) :
    startsWithBlank (unqualifiedAll nodes) = startsWithBlank nodes := by
  unfold startsWithBlank
  rw [unqualifiedAll_eq_map, List.find?_map]
  simp only [Function.comp_def, isPreContent_unqualified]
  cases List.find? isPreContent nodes with
  | none => rfl
  | some node => exact node.isElement_unqualified blankName

@[simp] theorem preStart_unqualifiedAll (options : Options) (nodes : List Node) :
    preStart options (unqualifiedAll nodes) = preStart options nodes := by
  unfold preStart
  rw [unqualifiedAll_eq_map, List.any_map]
  simp only [Function.comp_def, Node.isElement_unqualified]

mutual

theorem renderNode_unqualified (options : Options) (spacing : Spacing) (blanks : Nat) :
    ∀ node : Node, renderNode options spacing blanks node.unqualified =
      renderNode options spacing blanks node
  | .text _ => rfl
  | .comment _ => rfl
  | .element tag attributes children => by
    have hnodes := fun inner : Spacing => renderNodes_unqualifiedAll options inner blanks children
    have hpre := renderPre_unqualifiedAll options false blanks children
    have hchoices := renderChoices_unqualifiedAll options blanks children
    rw [Node.unqualified, renderNode, renderNode, localName_localName]
    cases Rule.ofName (localName tag) <;>
      simp only [hnodes, hpre, hchoices, preStart_unqualifiedAll]

/-- A scorer sees the same of nodes in no namespace. -/
theorem renderNodes_unqualifiedAll (options : Options) (spacing : Spacing) (blanks : Nat) :
    ∀ nodes : List Node, renderNodes options spacing blanks (unqualifiedAll nodes) =
      renderNodes options spacing blanks nodes
  | [] => rfl
  | node :: nodes => by
    rw [unqualifiedAll, renderNodes, renderNodes, renderNode_unqualified options spacing blanks node,
      renderNodes_unqualifiedAll options spacing _ nodes]

theorem renderPre_unqualifiedAll (options : Options) (afterBlank : Bool) (blanks : Nat) :
    ∀ nodes : List Node, renderPre options afterBlank blanks (unqualifiedAll nodes) =
      renderPre options afterBlank blanks nodes
  | [] => rfl
  | .comment _ :: nodes => by
    rw [unqualifiedAll, Node.unqualified, renderPre, renderPre,
      renderPre_unqualifiedAll options afterBlank blanks nodes]
  | .text s :: nodes => by
    have hrest := fun after : Bool => renderPre_unqualifiedAll options after blanks nodes
    rw [unqualifiedAll, Node.unqualified, renderPre, renderPre, hrest, hrest]
  | .element tag attributes children :: nodes => by
    have hinside := renderNodes_unqualifiedAll options Spacing.pre.keeping blanks children
    have hhere := renderNode_unqualified options Spacing.pre blanks (.element tag attributes children)
    have hrest := fun (after : Bool) (count : Nat) =>
      renderPre_unqualifiedAll options after count nodes
    rw [Node.unqualified] at hhere
    rw [unqualifiedAll, Node.unqualified, renderPre, renderPre, localName_localName, hinside, hhere,
      startsWithBlank_unqualifiedAll]
    simp only [hrest]

theorem renderChoicesOf_unqualified (options : Options) (blanks : Nat) :
    ∀ node : Node, renderChoicesOf options blanks node.unqualified =
      renderChoicesOf options blanks node
  | .text _ => rfl
  | .comment _ => rfl
  | .element tag attributes children => by
    have hinside := renderNodes_unqualifiedAll options Spacing.root blanks children
    have hbelow := fun count : Nat => renderChoices_unqualifiedAll options count children
    rw [Node.unqualified, renderChoicesOf, renderChoicesOf, localName_localName, hinside]
    simp only [hbelow]

theorem renderChoices_unqualifiedAll (options : Options) (blanks : Nat) :
    ∀ nodes : List Node, renderChoices options blanks (unqualifiedAll nodes) =
      renderChoices options blanks nodes
  | [] => rfl
  | node :: nodes => by
    rw [unqualifiedAll, renderChoices, renderChoices, renderChoicesOf_unqualified options blanks node,
      renderChoices_unqualifiedAll options _ nodes]

end

theorem itemBody?_unqualified (root : Element) :
    itemBody? root.unqualified = (itemBody? root).map Element.unqualified := by
  rw [itemBody?, Element.locate_unqualified (by decide), List.head?_map]
  rfl

theorem findExplanation_unqualified (root : Element) :
    findExplanation root.unqualified = (findExplanation root).map Element.unqualified := by
  unfold findExplanation
  rw [Element.locate_unqualified (by decide), List.filter_map]
  simp only [Function.comp_def, Element.attribute?_unqualified, List.find?_map, List.head?_map]
  cases List.find? _ _ <;> rfl

theorem explanationNodes_unqualified (root : Element) :
    explanationNodes root.unqualified = (explanationNodes root).map unqualifiedAll := by
  have hfilter : ∀ nodes : List Node, (unqualifiedAll nodes).filter isPreContent =
      unqualifiedAll (nodes.filter isPreContent) := by
    intro nodes
    rw [unqualifiedAll_eq_map, unqualifiedAll_eq_map, List.filter_map]
    simp only [Function.comp_def, isPreContent_unqualified]
  unfold explanationNodes
  rw [findExplanation_unqualified]
  cases findExplanation root with
  | none => rfl
  | some feedback =>
    simp only [Option.map_some, bind, Option.bind,
      Element.locate_unqualified (by decide : '}' ∉ "qti-content-body".toList), List.head?_map]
    cases (feedback.locate "qti-content-body".toList).head? with
    | none => rfl
    | some body => exact congrArg some (hfilter body.children)

theorem renderExplanation_unqualified (options : Options) (blanks : Nat) (root : Element) :
    renderExplanation options blanks root.unqualified = renderExplanation options blanks root := by
  unfold renderExplanation
  rw [explanationNodes_unqualified]
  cases explanationNodes root with
  | none => rfl
  | some nodes => simp only [Option.map_some, renderNodes_unqualifiedAll]

/-- A scorer sees the same item in no namespace. -/
theorem render_unqualified (options : Options) (root : Element) :
    render options root.unqualified = render options root := by
  unfold render
  rw [itemBody?_unqualified]
  cases itemBody? root with
  | none => rfl
  | some body =>
    have hprompt : renderNodes options Spacing.root 0 body.unqualified.children =
        renderNodes options Spacing.root 0 body.children :=
      renderNodes_unqualifiedAll options Spacing.root 0 body.children
    simp only [Option.map_some, hprompt, renderExplanation_unqualified, criteria_unqualified,
      choices_unqualified, Element.attribute?_unqualified, Element.attributeD_unqualified]

end Assessment.Scoring

/-! ## Reports -/

namespace Assessment.Report

open Assessment.Item Assessment.Text Assessment.Xml

mutual

theorem renderNode_unqualified (options : Options) (spacing : Spacing) : ∀ node : Node,
    renderNode options spacing node.unqualified = renderNode options spacing node
  | .text _ => rfl
  | .comment _ => rfl
  | .element tag attributes children => by
    have hinside := fun inner : Spacing => renderNodes_unqualifiedAll options inner children
    rw [Node.unqualified, renderNode, renderNode, localName_localName]
    cases Rule.ofName (localName tag) <;> simp only [hinside]

/-- A report shows the same of nodes in no namespace. -/
theorem renderNodes_unqualifiedAll (options : Options) (spacing : Spacing) : ∀ nodes : List Node,
    renderNodes options spacing (unqualifiedAll nodes) = renderNodes options spacing nodes
  | [] => rfl
  | node :: nodes => by
    rw [unqualifiedAll, renderNodes, renderNodes, renderNode_unqualified options spacing node,
      renderNodes_unqualifiedAll options spacing nodes]

end

theorem findBody_unqualified (expected : List Char) (root : Element) :
    findBody expected root.unqualified = (findBody expected root).map Element.unqualified := by
  unfold findBody
  simp only [Element.attributeD_unqualified,
    Element.locate_unqualified (by decide : '}' ∉ "qti-item-body".toList)]
  split
  · rfl
  split
  · rfl
  cases root.locate "qti-item-body".toList with
  | nil => rfl
  | cons body others => rfl

/-- A report shows the same item in no namespace. -/
theorem render_unqualified (options : Options) (expected : List Char) (root : Element) :
    render options expected root.unqualified = render options expected root := by
  unfold render
  rw [findBody_unqualified]
  cases findBody expected root with
  | error failure => rfl
  | ok body =>
    have hbody : renderBody options body.unqualified = renderBody options body := by
      unfold renderBody
      exact congrArg _ (renderNodes_unqualifiedAll options Spacing.root body.children)
    simp only [Except.map, hbody, criteria_unqualified, choices_unqualified,
      Element.attribute?_unqualified, Element.attributeD_unqualified]

end Assessment.Report

namespace Assessment.Views

open Assessment.Xml

/-- Of two items that differ only in the namespaces of their elements, both views show the same, or fail in
the same way, whatever the options. -/
theorem namespaces_do_not_matter {root root' : Element} (h : root.SameNames root') :
    (∀ options : Scoring.Options, Scoring.render options root = Scoring.render options root') ∧
      ∀ (options : Report.Options) (expected : List Char),
        Report.render options expected root = Report.render options expected root' := by
  have heq := h.unqualified_eq
  constructor
  · intro options
    rw [← Scoring.render_unqualified, heq, Scoring.render_unqualified]
  · intro options expected
    rw [← Report.render_unqualified, heq, Report.render_unqualified]

/-- An item with a blank in a choice, a rubric and an explanation, whose tags are made of local names. -/
def itemOfNames (tag : List Char → List Char) : Element :=
  ⟨tag "qti-assessment-item".toList, [("identifier".toList, ['q'])], [
    .element (tag "qti-item-body".toList) [] [
      .element (tag "qti-choice-interaction".toList) [] [
        .element (tag "qti-simple-choice".toList) [("identifier".toList, ['A'])]
          [.text "a".toList, .element (tag "qti-text-entry-interaction".toList) [] []]],
      .element (tag "qti-rubric-block".toList) [("view".toList, "scorer".toList)]
        [.element (tag "qti-p".toList) [] [.text "[2] b".toList]]],
    .element (tag "qti-modal-feedback".toList) [("identifier".toList, "EXPLANATION".toList)]
      [.element (tag "qti-content-body".toList) [] [.text "c".toList]]]⟩

theorem sameNames_itemOfNames {tag : List Char → List Char}
    (h : ∀ name, localName (tag name) = localName name) :
    (itemOfNames id).SameNames (itemOfNames tag) where
  name := (h _).symm
  attributes := rfl
  children := by
    have hblank : SameNames (.element (id "qti-text-entry-interaction".toList) [] [])
        (.element (tag "qti-text-entry-interaction".toList) [] []) := .element (h _).symm .nil
    have htext : ∀ s : List Char, SameNamesAll [.text s] [.text s] := fun s => .cons (.text s) .nil
    refine .cons (.element (h _).symm (.cons (.element (h _).symm ?_)
      (.cons (.element (h _).symm ?_) .nil))) (.cons (.element (h _).symm ?_) .nil)
    · exact .cons (.element (h _).symm (.cons (.text _) (.cons hblank .nil))) .nil
    · exact .cons (.element (h _).symm (htext _)) .nil
    · exact .cons (.element (h _).symm (htext _)) .nil

/-- The item may be in no namespace, or each of its elements in one of its own. -/
theorem namespaces_do_not_matter_itemOfNames :
    (itemOfNames id).SameNames (itemOfNames fun name => inBraces name name) ∧
      (∀ options : Scoring.Options, Scoring.render options (itemOfNames id) =
        Scoring.render options (itemOfNames fun name => inBraces name name)) ∧
      (∀ (options : Report.Options) (expected : List Char),
        Report.render options expected (itemOfNames id) =
          Report.render options expected (itemOfNames fun name => inBraces name name)) ∧
      ((Scoring.render {} (itemOfNames id)).toOption.map fun item =>
        (item.promptBlanks, item.criteria.length, item.explanation)) =
          some (1, 1, some ['c']) := by
  have hsame : (itemOfNames id).SameNames (itemOfNames fun name => inBraces name name) :=
    sameNames_itemOfNames fun name => localName_append_brace ('{' :: name) name
  obtain ⟨hscoring, hreport⟩ := namespaces_do_not_matter hsame
  exact ⟨hsame, hscoring, hreport, by decide +kernel⟩

end Assessment.Views
