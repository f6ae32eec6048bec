import Assessment.Proofs.Scoring.VisibleText
import Assessment.Proofs.Views.Rubrics
import Assessment.Proofs.Xml.Splicing

/-!
# Proofs: elements without a rule are looked through

An element that no rule names gives way to the nodes it holds, and a scorer sees the same prompt with the
same blanks (`wrappers_are_looked_through`). Preformatted blocks are the exception: there white space is
shown or not by what stands beside it, and code is trimmed by its neighbours.
-/

namespace Assessment.Scoring

open Assessment.Item Assessment.Text Assessment.Xml

/-! ## One after the other -/

/-- What was rendered first, with what is rendered after it. -/
def Shown.followedBy (first : Shown) (rest : Nat → Shown) : Shown :=
  ⟨first.html ++ (rest first.blanks).html, (rest first.blanks).blanks⟩

theorem Shown.followedBy_assoc (first : Shown) (second third : Nat → Shown) :
    (first.followedBy second).followedBy third =
      first.followedBy fun blanks => (second blanks).followedBy third := by
  simp only [followedBy, List.append_assoc]

theorem Shown.nothing_followedBy (blanks : Nat) (rest : Nat → Shown) :
    Shown.followedBy ⟨[], blanks⟩ rest = rest blanks := rfl

section

variable (options : Options) {spacing : Spacing} (blanks : Nat)

theorem renderNodes_cons (node : Node) (nodes : List Node) :
    renderNodes options spacing blanks (node :: nodes) =
      (renderNode options spacing blanks node).followedBy fun count =>
        renderNodes options spacing count nodes := by
  rw [renderNodes, Shown.followedBy]

theorem renderChoices_cons (node : Node) (nodes : List Node) :
    renderChoices options blanks (node :: nodes) =
      (renderChoicesOf options blanks node).followedBy fun count =>
        renderChoices options count nodes := by
  rw [renderChoices, Shown.followedBy]

/-- Outside of preformatted blocks all text is shown. -/
theorem render_of_not_inPre (h : spacing.inPre = false) (s : List Char) :
    spacing.render s = Markup.escape s := by
  rw [Spacing.render, h, Bool.false_and, Bool.false_and, if_neg Bool.false_ne_true]

/-- Text is shown as the pieces it is joined from. -/
theorem renderNodes_joinText (h : spacing.inPre = false) (s : List Char) (nodes : List Node) :
    renderNodes options spacing blanks (joinText s nodes) =
      renderNodes options spacing blanks (.text s :: nodes) := by
  fun_cases joinText s nodes with
  | case1 t nodes =>
    simp only [renderNodes, renderNode, render_of_not_inPre h, Markup.escape_append, List.append_assoc]
  | case2 nodes _ hempty =>
    rw [List.isEmpty_iff.1 hempty, renderNodes_cons, renderNode, render_of_not_inPre h]
    exact (Shown.nothing_followedBy blanks fun count => renderNodes options spacing count nodes).symm
  | case3 nodes _ hsome => rfl

theorem renderNodes_prepend (h : spacing.inPre = false) (node : Node) (nodes : List Node) :
    renderNodes options spacing blanks (prepend node nodes) =
      renderNodes options spacing blanks (node :: nodes) := by
  cases node with
  | text s => exact renderNodes_joinText options blanks h s nodes
  | comment s => rfl
  | element tag attributes children => rfl

/-- Joined nodes are shown one after the other. -/
theorem renderNodes_joinNodes (h : spacing.inPre = false) (before nodes : List Node) :
    renderNodes options spacing blanks (joinNodes before nodes) =
      (renderNodes options spacing blanks before).followedBy fun count =>
        renderNodes options spacing count nodes := by
  induction before generalizing blanks with
  | nil => rfl
  | cons node before ih =>
    rw [joinNodes, List.foldr_cons, renderNodes_prepend options blanks h, renderNodes_cons,
      renderNodes_cons, Shown.followedBy_assoc]
    exact congrArg _ (funext ih)

theorem renderChoices_joinText (s : List Char) (nodes : List Node) :
    renderChoices options blanks (joinText s nodes) = renderChoices options blanks nodes := by
  fun_cases joinText s nodes with
  | case1 t nodes => rfl
  | case2 nodes _ hempty => rfl
  | case3 nodes _ hsome => rfl

theorem renderChoices_prepend (node : Node) (nodes : List Node) :
    renderChoices options blanks (prepend node nodes) =
      renderChoices options blanks (node :: nodes) := by
  cases node with
  | text s => exact renderChoices_joinText options blanks s nodes
  | comment s => rfl
  | element tag attributes children => rfl

/-- Choices are found in joined nodes one after the other. -/
theorem renderChoices_joinNodes (before nodes : List Node) :
    renderChoices options blanks (joinNodes before nodes) =
      (renderChoices options blanks before).followedBy fun count =>
        renderChoices options count nodes := by
  induction before generalizing blanks with
  | nil => rfl
  | cons node before ih =>
    rw [joinNodes, List.foldr_cons, renderChoices_prepend options blanks, renderChoices_cons,
      renderChoices_cons, Shown.followedBy_assoc]
    exact congrArg _ (funext ih)

end

/-! ## Looking through an element -/

/-- The element has no rule and is no choice. -/
structure IsWrapper (e : Element) : Prop where
  /-- No rule names the element. -/
  rule : Rule.ofName e.name = .transparent
  /-- The element is no choice. -/
  notChoice : e.name ≠ choiceName

/-- The nodes are shown alike where no preformatted block lies around them, and so are the choices in
them. -/
structure ShownAlike (options : Options) (nodes nodes' : List Node) : Prop where
  /-- All that is in them. -/
  shown : ∀ (spacing : Spacing) (blanks : Nat), spacing.inPre = false →
    renderNodes options spacing blanks nodes' = renderNodes options spacing blanks nodes
  /-- The choices alone. -/
  choices : ∀ blanks, renderChoices options blanks nodes' = renderChoices options blanks nodes

section

variable {options : Options} {wrapper : Element} {path : List Element} {nodes nodes' : List Node}

/-- An element without a rule gives way to what it holds. -/
theorem shownAlike_unwrapped (hwrapper : IsWrapper wrapper) (options : Options) (nodes : List Node) :
    ShownAlike options (wrapper.toNode :: nodes) (joinNodes wrapper.children nodes) where
  shown spacing blanks hspacing := by
    have hrule : Rule.ofName (localName wrapper.tag) = .transparent := hwrapper.rule
    rw [renderNodes_joinNodes options blanks hspacing, renderNodes_cons, Element.toNode, renderNode,
      hrule]
  choices blanks := by
    have hchoice : ¬ (localName wrapper.tag == choiceName) = true := fun heq =>
      hwrapper.notChoice (eq_of_beq heq)
    rw [renderChoices_joinNodes, renderChoices_cons, Element.toNode, renderChoicesOf, if_neg hchoice]

/-- What an element holds can be replaced by what is shown alike. -/
theorem ShownAlike.inside {children children' : List Node} (h : ShownAlike options children children')
    {tag : List Char} (hpre : localName tag ≠ preName) (attributes : Attributes) (nodes : List Node) :
    ShownAlike options (.element tag attributes children :: nodes)
      (.element tag attributes children' :: nodes) where
  shown spacing blanks hspacing := by
    have hfirst : renderNode options spacing blanks (.element tag attributes children') =
        renderNode options spacing blanks (.element tag attributes children) := by
      rw [renderNode, renderNode]
      cases hrule : Rule.ofName (localName tag) with
      | pre => exact absurd (Rule.eq_of_ofName hrule (by decide) (by decide)) hpre
      | code => simp only [h.shown spacing.keeping blanks hspacing]
      | choices => simp only [h.choices]
      | _ => simp only [h.shown spacing blanks hspacing]
    rw [renderNodes_cons, renderNodes_cons, hfirst]
  choices blanks := by
    rw [renderChoices_cons, renderChoices_cons, renderChoicesOf, renderChoicesOf,
      h.shown Spacing.root blanks rfl]
    simp only [h.choices]

/-- The nodes behind a node can be replaced by what is shown alike. -/
theorem ShownAlike.later (h : ShownAlike options nodes nodes') (node : Node) :
    ShownAlike options (node :: nodes) (prepend node nodes') where
  shown spacing blanks hspacing := by
    rw [renderNodes_prepend options blanks hspacing, renderNodes_cons, renderNodes_cons]
    exact congrArg _ (funext fun count => h.shown spacing count hspacing)
  choices blanks := by
    rw [renderChoices_prepend, renderChoices_cons, renderChoices_cons]
    exact congrArg _ (funext h.choices)

/-- Nodes are shown alike when an element without a rule gives way to what it holds, if no preformatted
block lies around it. -/
theorem shownAlike_of_spliced (hwrapper : IsWrapper wrapper)
    (h : Spliced wrapper wrapper.children path nodes nodes') (hpre : ∀ d ∈ path, d.name ≠ preName)
    (options : Options) : ShownAlike options nodes nodes' := by
  induction h with
  | here nodes => exact shownAlike_unwrapped hwrapper options nodes
  | @inside path tag attributes children children' nodes h ih =>
    obtain ⟨hhere, hbelow⟩ := List.forall_mem_cons.1 hpre
    exact (ih hbelow).inside hhere attributes nodes
  | later h ih => exact (ih hpre).later _

end

/-! ## Prompts -/

theorem ofTag_isBody : OfTag Views.isBody := fun _ _ _ _ => rfl

/-- The item body stays in its place when an element in an item body is replaced. -/
theorem rel_itemBody? {root root' e : Element} {inner : List Node} {path : List Element}
    (h : Spliced e inner path root.children root'.children) (hbody : ∃ d ∈ path, Views.isBody d = true) :
    Option.Rel (SplicedIn e inner path) (itemBody? root) (itemBody? root') := by
  unfold itemBody?
  rw [Views.head?_locate, Views.head?_locate]
  exact h.find?_elementsOf ofTag_isBody (.inl hbody)

/-- An element of an item body without a rule, that is no choice and has no preformatted block around it,
can give way to what it holds: a scorer sees the same prompt, with the same blanks under the same
numbers, whatever stands for blanks and long answers. -/
theorem wrappers_are_looked_through {root root' wrapper : Element} {path : List Element}
    (h : Spliced wrapper wrapper.children path root.children root'.children)
    (hbody : ∃ d ∈ path, Views.isBody d = true) (hwrapper : IsWrapper wrapper)
    (hpre : ∀ d ∈ path, d.name ≠ preName) (options : Options) :
    (render options root').map (fun item => (item.prompt, item.promptBlanks)) =
      (render options root).map fun item => (item.prompt, item.promptBlanks) := by
  have hrel := rel_itemBody? h hbody
  unfold render
  generalize itemBody? root = found at hrel
  generalize itemBody? root' = found' at hrel
  cases hrel with
  | none => rfl
  | @some body body' hspliced =>
    have hprompt : renderNodes options Spacing.root 0 body'.children =
        renderNodes options Spacing.root 0 body.children := by
      cases hspliced with
      | apart => rfl
      | around outer hpath hinside =>
        refine (shownAlike_of_spliced hwrapper hinside (fun d hd => hpre d ?_) options).shown _ _ rfl
        rw [hpath]
        exact List.mem_append_right _ (List.mem_cons_of_mem _ hd)
    exact congrArg (fun shown : Shown => Except.ok (shown.html, shown.blanks)) hprompt

/-- An item with a choice that holds the given nodes. -/
def choiceHolding (inside : List Node) : Element :=
  ⟨"i".toList, [], [.element "qti-item-body".toList []
    [.element interactionName [] [.element choiceName [("identifier".toList, ['A'])] inside]]]⟩

/-- A part of a text with a blank, in an element without a rule. -/
def wrappedBlank : Element :=
  ⟨"span".toList, [("class".toList, ['x'])], [.text "the ".toList, .element blankName [] []]⟩

/-- The text of the wrapper joins the text in front of it, and the blank stays the first one. -/
theorem wrappers_are_looked_through_choiceHolding :
    (render {} (choiceHolding [.text "in the ".toList, .element blankName [] [], .text ".".toList])).map
        (fun item => (item.prompt, item.promptBlanks)) =
      (render {} (choiceHolding [.text "in ".toList, wrappedBlank.toNode, .text ".".toList])).map
        fun item => (item.prompt, item.promptBlanks) := by
  have hwrapper : IsWrapper wrappedBlank := ⟨by decide, by decide⟩
  have h : Spliced wrappedBlank wrappedBlank.children _
      (choiceHolding [.text "in ".toList, wrappedBlank.toNode, .text ".".toList]).children
      (choiceHolding [.text "in the ".toList, .element blankName [] [], .text ".".toList]).children :=
    .inside (.inside (.inside (.later (.here _))))
  exact wrappers_are_looked_through h ⟨_, List.mem_cons_self, by decide⟩ hwrapper (by decide) {}

end Assessment.Scoring
