import Assessment.Proofs.Markup.TreeText
import Assessment.Proofs.Scoring.DocumentOrder

/-!
# Proofs: the scoring view shows the text of a node

What a reader sees of a node is defined on the node alone (`visibleText`). The HTML of the scoring view
shows that text: exactly, if no blank stands directly in a preformatted block, and up to white space in
any case, since code beside such a blank is trimmed. The layout of a node has its visible text
(`shownTextAll_layoutNode`), and so have the trees of the layout, up to what is trimmed
(`shownTextAll_treesOf`).
-/

namespace Assessment.Scoring

open Assessment.Item Assessment.Markup Assessment.Text Assessment.Xml

/-- Trimming beside blanks takes nothing but white space away. -/
theorem withoutBlanks_trimTrees (afterBlank beforeBlank : Bool) (trees : List Tree) :
    withoutBlanks (Tree.shownTextAll (trimTrees afterBlank beforeBlank trees)) =
      withoutBlanks (Tree.shownTextAll trees) := by
  have hstart : Tree.inks (Tree.trimStart trees) = Tree.inks trees := Tree.inks_trimEdge false trees
  rw [← Tree.flatten_inks, ← Tree.flatten_inks]
  cases afterBlank <;> cases beforeBlank <;> simp [trimTrees, Tree.inks_trimEnd, hstart]

/-! ## The visible text of a node -/

/-- The name of the elements that stand for long answers. -/
def answerName : List Char := "qti-extended-text-interaction".toList

/-- The name of preformatted blocks. -/
def preName : List Char := "qti-pre".toList

/-- The names of the elements of which no text is visible. -/
def wordlessNames : List (List Char) :=
  [blankName, "qti-rubric-block".toList, "qti-img".toList, "qti-hr".toList]

/-- What is read in the place of a long answer. -/
def answerText : List Char := "（記述）".toList

mutual

/-- The visible text of a node. -/
def visibleText (spacing : Spacing) : Node → List Char
  | .text s => if spacing.inPre && !spacing.preserve && isBlankText s then [] else s
  | .comment _ => []
  | .element tag _ children =>
    if localName tag = interactionName then choicesText children
    else if localName tag = answerName then answerText
    else if localName tag ∈ wordlessNames then []
    else if localName tag = codeName then visibleTexts spacing.keeping children
    else if localName tag = preName then visibleTexts Spacing.pre children
    else visibleTexts spacing children

/-- The visible text of some nodes. -/
def visibleTexts (spacing : Spacing) : List Node → List Char
  | [] => []
  | node :: nodes => visibleText spacing node ++ visibleTexts spacing nodes

/-- The visible text of the choices at and below a node. -/
def choicesTextOf : Node → List Char
  | .text _ => []
  | .comment _ => []
  | .element tag _ children =>
    (if localName tag = choiceName then visibleTexts Spacing.root children else []) ++
      choicesText children

/-- The visible text of the choices at and below some nodes. -/
def choicesText : List Node → List Char
  | [] => []
  | node :: nodes => choicesTextOf node ++ choicesText nodes

end

/-- The visible text of a choice is that of its children. -/
theorem visibleText_choice {e : Element} (h : e.name = choiceName) :
    visibleText Spacing.root e.toNode = visibleTexts Spacing.root e.children := by
  have hname : localName e.tag = choiceName := h
  rw [Element.toNode, visibleText, hname]
  rfl

mutual

theorem choicesTextOf_eq : ∀ node : Node,
    choicesTextOf node = (node.elements.filter (·.name = choiceName)).flatMap fun choice =>
      visibleText Spacing.root choice.toNode
  | .text _ => rfl
  | .comment _ => rfl
  | .element tag attributes children => by
    rw [choicesTextOf, Node.elements, choicesText_eq children]
    by_cases h : localName tag = choiceName
    · have hchoice := @visibleText_choice ⟨tag, attributes, children⟩ h
      rw [if_pos h, List.filter_cons_of_pos (by simp [Element.name, h]), List.flatMap_cons, hchoice]
    · rw [if_neg h, List.filter_cons_of_neg (by simp [Element.name, h]), List.nil_append]

/-- The choices are read one after the other in document order, each from the root. -/
theorem choicesText_eq : ∀ nodes : List Node,
    choicesText nodes = ((elementsOf nodes).filter (·.name = choiceName)).flatMap fun choice =>
      visibleText Spacing.root choice.toNode
  | [] => rfl
  | node :: nodes => by
    rw [choicesText, elementsOf, List.filter_append, List.flatMap_append, choicesTextOf_eq node,
      choicesText_eq nodes]

end

namespace Rule

/-- An element falls under a rule that the table gives to one name only if it has that name. -/
theorem eq_of_ofName {name other : List Char} {rule : Rule} (h : ofName name = rule)
    (hrule : rule ≠ transparent) (honly : ∀ entry ∈ table, entry.2 = rule → entry.1 = other) :
    name = other := honly _ (mem_table_of_ofName h hrule) rfl

end Rule

/-- The names of the elements whose visible text is not just that of their children. -/
def shapingNames : List (List Char) :=
  interactionName :: answerName :: codeName :: preName :: wordlessNames

/-- An element of any other name shows what its children show. -/
theorem visibleText_of_not_shaping {tag : List Char} (h : localName tag ∉ shapingNames)
    (spacing : Spacing) (attributes : Attributes) (children : List Node) :
    visibleText spacing (.element tag attributes children) = visibleTexts spacing children := by
  simp only [shapingNames, List.mem_cons, not_or] at h
  obtain ⟨hinteraction, hanswer, hcode, hpre, hwordless⟩ := h
  rw [visibleText, if_neg hinteraction, if_neg hanswer, if_neg (by simpa using hwordless), if_neg hcode,
    if_neg hpre]

/-- A rule that none of these names has is one of other elements. -/
theorem not_shaping_of_ofName {name : List Char} {rule : Rule} (h : Rule.ofName name = rule)
    (hnames : ∀ other ∈ shapingNames, Rule.ofName other ≠ rule) : name ∉ shapingNames :=
  fun hmem => hnames name hmem h

/-- What is visible of an element depends on its rule. -/
theorem visibleText_element (spacing : Spacing) (tag : List Char) (attributes : Attributes)
    (children : List Node) :
    visibleText spacing (.element tag attributes children) =
      match Rule.ofName (localName tag) with
      | .choices => choicesText children
      | .extendedText => answerText
      | .blank | .hidden | .image | .line => []
      | .code => visibleTexts spacing.keeping children
      | .pre => visibleTexts Spacing.pre children
      | _ => visibleTexts spacing children := by
  cases hrule : Rule.ofName (localName tag) with
  | choices =>
    rw [visibleText, if_pos (Rule.ofName_eq_choices_iff.1 hrule)]
  | extendedText =>
    have hname : localName tag = answerName := Rule.eq_of_ofName hrule (by decide) (by decide)
    rw [visibleText, hname]
    rfl
  | blank =>
    have hname : localName tag = blankName := Rule.eq_of_ofName hrule (by decide) (by decide)
    rw [visibleText, hname]
    rfl
  | hidden =>
    have hname : localName tag = "qti-rubric-block".toList :=
      Rule.eq_of_ofName hrule (by decide) (by decide)
    rw [visibleText, hname]
    rfl
  | image =>
    have hname : localName tag = "qti-img".toList := Rule.eq_of_ofName hrule (by decide) (by decide)
    rw [visibleText, hname]
    rfl
  | line =>
    have hname : localName tag = "qti-hr".toList := Rule.eq_of_ofName hrule (by decide) (by decide)
    rw [visibleText, hname]
    rfl
  | code =>
    have hname : localName tag = codeName := Rule.eq_of_ofName hrule (by decide) (by decide)
    rw [visibleText, hname]
    rfl
  | pre =>
    have hname : localName tag = preName := Rule.eq_of_ofName hrule (by decide) (by decide)
    rw [visibleText, hname]
    rfl
  | wrap name =>
    have hnowrap : ∀ other ∈ shapingNames, (Rule.ofName other).wrapTag? = none := by decide
    refine visibleText_of_not_shaping (not_shaping_of_ofName hrule fun other hmem heq => ?_) ..
    have hnone := hnowrap other hmem
    rw [heq] at hnone
    cases hnone
  | link => exact visibleText_of_not_shaping (not_shaping_of_ofName hrule (by decide)) ..
  | orderedList => exact visibleText_of_not_shaping (not_shaping_of_ofName hrule (by decide)) ..
  | transparent => exact visibleText_of_not_shaping (not_shaping_of_ofName hrule (by decide)) ..

/-! ## The text of a layout -/

namespace Layout

variable {β : Type}

mutual

/-- The text that a layout shows if nothing of it is trimmed. -/
def shownText : Layout β → List Char
  | .text s => s
  | .answer => answerText
  | .blank _ | .image _ | .line => []
  | .box _ inside => shownTextAll inside
  | .code _ _ inside => shownTextAll inside

/-- The text that some layouts show if nothing of them is trimmed. -/
def shownTextAll : List (Layout β) → List Char
  | [] => []
  | layout :: layouts => shownText layout ++ shownTextAll layouts

end

@[simp] theorem shownTextAll_append (l m : List (Layout β)) :
    shownTextAll (l ++ m) = shownTextAll l ++ shownTextAll m := by
  induction l with
  | nil => rfl
  | cons layout layouts ih => simp [shownTextAll, ih]

mutual

theorem shownText_number (blanks : Nat) : ∀ layout : Layout β,
    (number blanks layout).1.shownText = layout.shownText
  | .text _ | .blank _ | .answer | .image _ | .line => rfl
  | .box _ inside => shownTextAll_numberAll blanks inside
  | .code _ _ inside => shownTextAll_numberAll blanks inside

/-- Numbering leaves the text as it is. -/
theorem shownTextAll_numberAll (blanks : Nat) : ∀ layouts : List (Layout β),
    shownTextAll (numberAll blanks layouts).1 = shownTextAll layouts
  | [] => rfl
  | layout :: layouts => by
    rw [numberAll, shownTextAll, shownTextAll, shownText_number blanks layout,
      shownTextAll_numberAll _ layouts]

end

mutual

/-- No code in the layout is trimmed. -/
def Untrimmed : Layout β → Prop
  | .box _ inside => UntrimmedAll inside
  | .code afterBlank beforeBlank inside =>
    afterBlank = false ∧ beforeBlank = false ∧ UntrimmedAll inside
  | _ => True

/-- No code in some layouts is trimmed. -/
def UntrimmedAll : List (Layout β) → Prop
  | [] => True
  | layout :: layouts => Untrimmed layout ∧ UntrimmedAll layouts

end

theorem untrimmedAll_append {l m : List (Layout β)} (hl : UntrimmedAll l) (hm : UntrimmedAll m) :
    UntrimmedAll (l ++ m) := by
  induction l with
  | nil => exact hm
  | cons layout layouts ih => exact ⟨hl.1, ih hl.2⟩

mutual

theorem untrimmed_number (blanks : Nat) : ∀ {layout : Layout β}, layout.Untrimmed →
    (number blanks layout).1.Untrimmed
  | .text _, _ | .blank _, _ | .answer, _ | .image _, _ | .line, _ => trivial
  | .box _ _, h => untrimmedAll_numberAll blanks (show UntrimmedAll _ from h)
  | .code _ _ _, h => ⟨h.1, h.2.1, untrimmedAll_numberAll blanks h.2.2⟩

theorem untrimmedAll_numberAll (blanks : Nat) : ∀ {layouts : List (Layout β)},
    UntrimmedAll layouts → UntrimmedAll (numberAll blanks layouts).1
  | [], _ => trivial
  | _ :: _, h => ⟨untrimmed_number blanks h.1, untrimmedAll_numberAll _ h.2⟩

end

mutual

theorem shownText_treeOf : ∀ layout : Layout Nat,
    withoutBlanks (treeOf layout).shownText = withoutBlanks layout.shownText ∧
      (layout.Untrimmed → (treeOf layout).shownText = layout.shownText)
  | .text _ | .blank _ | .image _ | .line => ⟨rfl, fun _ => rfl⟩
  | .answer => by
    have hanswer : (treeOf .answer).shownText = (.answer : Layout Nat).shownText :=
      List.append_nil answerText
    exact ⟨congrArg withoutBlanks hanswer, fun _ => hanswer⟩
  | .box _ inside => shownTextAll_treesOf inside
  | .code afterBlank beforeBlank inside => by
    obtain ⟨hall, hexact⟩ := shownTextAll_treesOf inside
    constructor
    · show withoutBlanks (Tree.shownTextAll (trimTrees afterBlank beforeBlank (treesOf inside))) = _
      rw [withoutBlanks_trimTrees, hall]
      rfl
    · rintro ⟨rfl, rfl, hinside⟩
      exact hexact hinside

/-- The trees of layouts show the same text up to white space, and exactly the same if nothing is
trimmed. -/
theorem shownTextAll_treesOf : ∀ layouts : List (Layout Nat),
    withoutBlanks (Tree.shownTextAll (treesOf layouts)) = withoutBlanks (shownTextAll layouts) ∧
      (UntrimmedAll layouts → Tree.shownTextAll (treesOf layouts) = shownTextAll layouts)
  | [] => ⟨rfl, fun _ => rfl⟩
  | layout :: layouts => by
    obtain ⟨hfirst, hfirstExact⟩ := shownText_treeOf layout
    obtain ⟨hrest, hrestExact⟩ := shownTextAll_treesOf layouts
    rw [treesOf, Tree.shownTextAll, shownTextAll]
    refine ⟨by rw [withoutBlanks_append, withoutBlanks_append, hfirst, hrest], ?_⟩
    rintro ⟨hlayout, hlayouts⟩
    rw [hfirstExact hlayout, hrestExact hlayouts]

end

end Layout

open Layout

/-! ## The layout of a node -/

/-- The visible text of what is left of the children of a preformatted block. -/
theorem visibleText_pre (s : List Char) :
    visibleText Spacing.pre (.text s) = if isBlankText s then [] else s := by
  rw [visibleText]
  rfl

mutual

theorem shownTextAll_layoutNode (spacing : Spacing) (place : Place) : ∀ node : Node,
    shownTextAll (layoutNode spacing place node) = visibleText spacing node
  | .text s => by
    rw [layoutNode, visibleText]
    split
    · rfl
    · exact List.append_nil s
  | .comment _ => rfl
  | .element tag attributes children => by
    have hnodes := shownTextAll_layoutNodes spacing place 0 children
    rw [layoutNode, visibleText_element]
    cases Rule.ofName (localName tag) with
    | wrap name => exact (List.append_nil _).trans hnodes
    | link => exact (List.append_nil _).trans hnodes
    | code =>
      exact (List.append_nil _).trans (shownTextAll_layoutNodes spacing.keeping place 0 children)
    | pre => exact (List.append_nil _).trans (shownTextAll_layoutPre false place 0 children)
    | orderedList => exact (List.append_nil _).trans hnodes
    | image => rfl
    | line => rfl
    | blank => rfl
    | extendedText => exact List.append_nil answerText
    | choices => exact (List.append_nil _).trans (shownTextAll_layoutChoices place 0 children)
    | hidden => rfl
    | transparent => exact hnodes

/-- A layout shows the visible text of the nodes, if nothing is trimmed. -/
theorem shownTextAll_layoutNodes (spacing : Spacing) (parent : Place) (i : Nat) :
    ∀ nodes : List Node,
      shownTextAll (layoutNodes spacing parent i nodes) = visibleTexts spacing nodes
  | [] => rfl
  | node :: nodes => by
    rw [layoutNodes, visibleTexts, shownTextAll_append,
      shownTextAll_layoutNode spacing (parent ++ [i]) node,
      shownTextAll_layoutNodes spacing parent (i + 1) nodes]

theorem shownTextAll_layoutPre (afterBlank : Bool) (parent : Place) (i : Nat) :
    ∀ nodes : List Node,
      shownTextAll (layoutPre afterBlank parent i nodes) = visibleTexts Spacing.pre nodes
  | [] => rfl
  | .comment _ :: nodes => by
    rw [layoutPre, visibleTexts, shownTextAll_layoutPre afterBlank parent (i + 1) nodes]
    rfl
  | .text s :: nodes => by
    rw [layoutPre, visibleTexts, visibleText_pre]
    split
    · exact shownTextAll_layoutPre afterBlank parent (i + 1) nodes
    · rw [shownTextAll, shownText, shownTextAll_layoutPre false parent (i + 1) nodes]
  | .element tag attributes children :: nodes => by
    rw [layoutPre, visibleTexts]
    split
    · next hcode =>
      have hrule : Rule.ofName (localName tag) = .code := by
        rw [eq_of_beq hcode]
        decide
      rw [shownTextAll, shownText, visibleText_element, hrule,
        shownTextAll_layoutNodes Spacing.pre.keeping (parent ++ [i]) 0 children,
        shownTextAll_layoutPre false parent (i + 1) nodes]
    · rw [shownTextAll_append,
        shownTextAll_layoutNode Spacing.pre (parent ++ [i]) (.element tag attributes children),
        shownTextAll_layoutPre _ parent (i + 1) nodes]

theorem shownTextAll_layoutChoicesOf (place : Place) : ∀ node : Node,
    shownTextAll (layoutChoicesOf place node) = choicesTextOf node
  | .text _ => rfl
  | .comment _ => rfl
  | .element tag attributes children => by
    have hinside := shownTextAll_layoutNodes Spacing.root place 0 children
    have hbelow := shownTextAll_layoutChoices place 0 children
    rw [layoutChoicesOf, choicesTextOf]
    by_cases h : localName tag = choiceName
    · rw [if_pos (beq_iff_eq.2 h), if_pos h, shownTextAll, shownText, hinside, hbelow]
    · rw [if_neg (by simpa using h), if_neg h, List.nil_append, hbelow]

theorem shownTextAll_layoutChoices (parent : Place) (i : Nat) : ∀ nodes : List Node,
    shownTextAll (layoutChoices parent i nodes) = choicesText nodes
  | [] => rfl
  | node :: nodes => by
    rw [layoutChoices, choicesText, shownTextAll_append,
      shownTextAll_layoutChoicesOf (parent ++ [i]) node,
      shownTextAll_layoutChoices parent (i + 1) nodes]

end

/-! ## Where nothing is trimmed -/

/-- No blank stands directly in one of the preformatted blocks among some elements. -/
def PresWithoutBlanks (elements : List Element) : Prop :=
  ∀ e ∈ elements, e.name = preName → ∀ child ∈ e.children, ¬ child.isElement blankName

instance (elements : List Element) : Decidable (PresWithoutBlanks elements) :=
  inferInstanceAs (Decidable (∀ e ∈ elements, e.name = preName →
    ∀ child ∈ e.children, ¬ child.isElement blankName))

namespace PresWithoutBlanks

theorem below {tag : List Char} {attributes : Attributes} {children : List Node}
    (h : PresWithoutBlanks (Node.element tag attributes children).elements) :
    PresWithoutBlanks (elementsOf children) := by
  intro e he
  refine h e ?_
  rw [Node.elements]
  exact List.mem_cons_of_mem _ he

theorem first {node : Node} {nodes : List Node} (h : PresWithoutBlanks (elementsOf (node :: nodes))) :
    PresWithoutBlanks node.elements := by
  intro e he
  refine h e ?_
  rw [elementsOf]
  exact List.mem_append_left _ he

theorem rest {node : Node} {nodes : List Node} (h : PresWithoutBlanks (elementsOf (node :: nodes))) :
    PresWithoutBlanks (elementsOf nodes) := by
  intro e he
  refine h e ?_
  rw [elementsOf]
  exact List.mem_append_right _ he

end PresWithoutBlanks

theorem startsWithBlank_of_forall {nodes : List Node}
    (h : ∀ node ∈ nodes, ¬ node.isElement blankName) : startsWithBlank nodes = false := by
  unfold startsWithBlank
  split
  · next node hfind => simpa using h node (List.mem_of_find?_eq_some hfind)
  · rfl

mutual

theorem untrimmedAll_layoutNode (spacing : Spacing) (place : Place) : ∀ {node : Node},
    PresWithoutBlanks node.elements → UntrimmedAll (layoutNode spacing place node)
  | .text s, _ => by
    rw [layoutNode]
    split
    · trivial
    · exact ⟨trivial, trivial⟩
  | .comment _, _ => trivial
  | .element tag attributes children, h => by
    have hnodes := untrimmedAll_layoutNodes spacing place 0 h.below
    rw [layoutNode]
    cases hrule : Rule.ofName (localName tag) with
    | wrap name => exact ⟨hnodes, trivial⟩
    | link => exact ⟨hnodes, trivial⟩
    | code =>
      exact ⟨⟨rfl, rfl, untrimmedAll_layoutNodes spacing.keeping place 0 h.below⟩, trivial⟩
    | pre =>
      have hname : localName tag = preName := Rule.eq_of_ofName hrule (by decide) (by decide)
      have hchildren := h ⟨tag, attributes, children⟩ (by simp [Node.elements]) hname
      exact ⟨untrimmedAll_layoutPre place 0 h.below hchildren, trivial⟩
    | orderedList => exact ⟨hnodes, trivial⟩
    | image => exact ⟨trivial, trivial⟩
    | line => exact ⟨trivial, trivial⟩
    | blank => exact ⟨trivial, trivial⟩
    | extendedText => exact ⟨trivial, trivial⟩
    | choices => exact ⟨untrimmedAll_layoutChoices place 0 h.below, trivial⟩
    | hidden => trivial
    | transparent => exact hnodes

/-- Where no blank stands directly in a preformatted block, nothing is trimmed. -/
theorem untrimmedAll_layoutNodes (spacing : Spacing) (parent : Place) (i : Nat) :
    ∀ {nodes : List Node}, PresWithoutBlanks (elementsOf nodes) →
      UntrimmedAll (layoutNodes spacing parent i nodes)
  | [], _ => trivial
  | node :: nodes, h => by
    rw [layoutNodes]
    exact untrimmedAll_append
      (untrimmedAll_layoutNode spacing (parent ++ [i]) h.first)
      (untrimmedAll_layoutNodes spacing parent (i + 1) h.rest)

theorem untrimmedAll_layoutPre (parent : Place) (i : Nat) :
    ∀ {nodes : List Node}, PresWithoutBlanks (elementsOf nodes) →
      (∀ node ∈ nodes, ¬ node.isElement blankName) →
        UntrimmedAll (layoutPre false parent i nodes)
  | [], _, _ => trivial
  | .comment _ :: nodes, h, hblanks => by
    rw [layoutPre]
    exact untrimmedAll_layoutPre parent (i + 1) h.rest
      (List.forall_mem_cons.1 hblanks).2
  | .text s :: nodes, h, hblanks => by
    have hrest := untrimmedAll_layoutPre parent (i + 1) h.rest (List.forall_mem_cons.1 hblanks).2
    rw [layoutPre]
    split
    · exact hrest
    · exact ⟨trivial, hrest⟩
  | .element tag attributes children :: nodes, h, hblanks => by
    obtain ⟨hfirst, hothers⟩ := List.forall_mem_cons.1 hblanks
    have hrest := untrimmedAll_layoutPre parent (i + 1) h.rest hothers
    rw [layoutPre]
    split
    · exact ⟨⟨rfl, startsWithBlank_of_forall hothers,
        untrimmedAll_layoutNodes Spacing.pre.keeping (parent ++ [i]) 0 h.first.below⟩, hrest⟩
    · have hnot : (localName tag == blankName) = false := by
        simpa [Node.isElement] using hfirst
      rw [hnot]
      exact untrimmedAll_append (untrimmedAll_layoutNode Spacing.pre (parent ++ [i]) h.first) hrest

theorem untrimmedAll_layoutChoicesOf (place : Place) : ∀ {node : Node},
    PresWithoutBlanks node.elements → UntrimmedAll (layoutChoicesOf place node)
  | .text _, _ => trivial
  | .comment _, _ => trivial
  | .element tag attributes children, h => by
    have hchoices := untrimmedAll_layoutChoices place 0 h.below
    rw [layoutChoicesOf]
    split
    · exact ⟨untrimmedAll_layoutNodes Spacing.root place 0 h.below, hchoices⟩
    · exact hchoices

theorem untrimmedAll_layoutChoices (parent : Place) (i : Nat) : ∀ {nodes : List Node},
    PresWithoutBlanks (elementsOf nodes) → UntrimmedAll (layoutChoices parent i nodes)
  | [], _ => trivial
  | node :: nodes, h => by
    rw [layoutChoices]
    exact untrimmedAll_append
      (untrimmedAll_layoutChoicesOf (parent ++ [i]) h.first)
      (untrimmedAll_layoutChoices parent (i + 1) h.rest)

end

/-! ## Rendering -/

/-- What is rendered of a node with the default options, without its tags and decoded, is the text of
the numbered layout as trees. -/
theorem decode_stripTags_renderNode (spacing : Spacing) (blanks : Nat) (node : Node) :
    Entity.decode (stripTags (renderNode {} spacing blanks node).html) =
      Tree.shownTextAll (treesOf (numberAll blanks (layoutNode spacing [] node)).1) := by
  have htagged := taggedAll_numberAll blanks (taggedAll_layoutNode spacing [] node)
  rw [renderNode_eq_shown {} spacing blanks [] node, Layout.shown, writeAll_default,
    Tree.decode_stripTags_writeAll (plainAll_treesOf htagged)]

/-- Rendering keeps the visible text of a node, whatever stands around it: without tags and decoded,
the HTML is that text but for white space, and exactly that text if no blank stands directly in a
preformatted block. -/
theorem renderNode_keeps_visibleText (spacing : Spacing) (blanks : Nat) (node : Node) :
    withoutBlanks (Entity.decode (stripTags (renderNode {} spacing blanks node).html)) =
        withoutBlanks (visibleText spacing node) ∧
      (PresWithoutBlanks node.elements →
        Entity.decode (stripTags (renderNode {} spacing blanks node).html) =
          visibleText spacing node) := by
  obtain ⟨hall, hexact⟩ := shownTextAll_treesOf (numberAll blanks (layoutNode spacing [] node)).1
  rw [shownTextAll_numberAll, shownTextAll_layoutNode] at hall hexact
  rw [decode_stripTags_renderNode]
  refine ⟨hall, fun h => hexact ?_⟩
  exact untrimmedAll_numberAll blanks (untrimmedAll_layoutNode spacing [] h)

/-- A preformatted block with code that holds a bracket, and a choice below it. -/
def codeNode : Node :=
  .element preName [] [.text "\n".toList, .element codeName [] [.text "a < b ".toList],
    .element interactionName [] [.element choiceName [] [.text " or".toList]]]

theorem renderNode_keeps_codeNode :
    PresWithoutBlanks codeNode.elements ∧
      Entity.decode (stripTags (renderNode {} Spacing.root 0 codeNode).html) = "a < b  or".toList :=
  ⟨by decide, (renderNode_keeps_visibleText Spacing.root 0 codeNode).2 (by decide)⟩

end Assessment.Scoring
