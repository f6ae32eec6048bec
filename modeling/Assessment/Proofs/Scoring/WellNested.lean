import Assessment.Proofs.Markup.Nesting
import Assessment.Proofs.Markup.TreeText
import Assessment.Proofs.Scoring.Trees

/-!
# Proofs: the scoring view is well nested

With the default options, whatever the names, attributes and texts of a node are, the HTML of the node
is well-nested markup of a fixed vocabulary (`wellNested_renderNode`): the tags that the rules put
around elements, with their attributes, and images, lines and blanks. Trimming code beside a blank
never cuts a tag or a reference.
-/

namespace Assessment.Scoring

open Assessment.Item Assessment.Markup Assessment.Text Assessment.Xml Layout

/-! ## The vocabulary -/

/-- The elements of the scoring view, each with the attributes it can have. -/
def viewElements : List (List Char × List (List Char)) :=
  (Rule.table.filterMap (·.2.wrapTag?)).map (·, []) ++
    [("a".toList, ["href".toList, "title".toList]), ("ol".toList, ["start".toList]),
      ("ol".toList, ["class".toList]), ("li".toList, ["data-choice".toList]),
      ("pre".toList, ["class".toList]), ("code".toList, []), ("span".toList, ["class".toList])]

/-- The tags of the scoring view that stand by themselves. -/
inductive IsViewVoid : List Char → Prop where
  | image {attributes : List Char}
      (h : AttributeText ["src".toList, "alt".toList, "title".toList] attributes) :
      IsViewVoid ("<img".toList ++ attributes ++ " />".toList)
  | line : IsViewVoid lineHtml
  | blank (index : Nat) : IsViewVoid (defaultBlank index)

theorem isTag_of_isViewVoid {tag : List Char} (h : IsViewVoid tag) : IsTag tag := by
  cases h with
  | @image attributes h =>
    have hattributes := h.unbracketed (by decide)
    have hinside := ((by decide : Unbracketed "img".toList).append hattributes).append
      (by decide : Unbracketed " /".toList)
    have htag := IsTag.intro hinside
    simpa using htag
  | line => exact .intro (by decide : Unbracketed "hr /".toList)
  | blank index =>
    have htag := Tree.isTag_write_void (by decide : isPlainName "input".toList)
      (plain_blankAttributed index)
    rwa [write_blank] at htag

/-- The vocabulary of the scoring view. -/
def view : Vocabulary where
  elements := viewElements
  IsVoid := IsViewVoid
  isTag_of_isVoid := isTag_of_isViewVoid

/-! ## The tags of the rules -/

theorem valued_optionalAttributed (attributes : Attributes) (name : List Char) :
    ∀ a ∈ optionalAttributed attributes name, a.2 ≠ none := by
  intro a ha
  unfold optionalAttributed at ha
  split at ha
  · cases ha
  · split at ha
    · cases ha
    · rw [List.mem_singleton.1 ha]
      nofun

theorem attributeText_singleton (name value : List Char) :
    AttributeText [name] (writeAttributes [(name, some value)]) :=
  .of_attributed (List.Sublist.refl _) (by simp)

/-- The tags around what is shown are tags of the view. -/
theorem exists_viewElement {around : Box} (h : around.tag ∈ boxTags) :
    ∃ names, (around.tag, names) ∈ viewElements ∧
      AttributeText names (writeAttributes around.attributed) := by
  cases around with
  | plain tag =>
    have hnames : ∀ tag ∈ boxTags, ∃ element ∈ viewElements, element.1 = tag := by decide
    obtain ⟨⟨tag, names⟩, hmem, rfl⟩ := hnames tag h
    exact ⟨names, hmem, .none names⟩
  | link attributes =>
    have hname : ("a".toList, ["href".toList, "title".toList]) ∈ viewElements := by decide
    refine ⟨_, hname, .of_attributed ?_ ?_⟩
    · rw [Box.attributed, List.map_append]
      exact (sublist_optionalAttributed attributes _).append (sublist_optionalAttributed attributes _)
    · intro a ha
      rcases List.mem_append.1 ha with ha | ha
      · exact valued_optionalAttributed attributes _ a ha
      · exact valued_optionalAttributed attributes _ a ha
  | orderedList attributes =>
    have hname : ("ol".toList, ["start".toList]) ∈ viewElements := by decide
    exact ⟨_, hname, .of_attributed (sublist_optionalAttributed attributes _)
      (valued_optionalAttributed attributes _)⟩
  | choices =>
    have hname : ("ol".toList, ["class".toList]) ∈ viewElements := by decide
    exact ⟨_, hname, attributeText_singleton _ _⟩
  | choice attributes =>
    have hname : ("li".toList, ["data-choice".toList]) ∈ viewElements := by decide
    exact ⟨_, hname, attributeText_singleton _ _⟩
  | pre withBlanks =>
    have hname : ("pre".toList, ["class".toList]) ∈ viewElements := by decide
    refine ⟨_, hname, ?_⟩
    cases withBlanks with
    | true => exact attributeText_singleton _ _
    | false => exact .none _

theorem isViewVoid_image (attributes : Attributes) : IsViewVoid (Scoring.image attributes) := by
  have hattributes : AttributeText ["src".toList, "alt".toList, "title".toList]
      (writeAttributes (imageAttributed attributes)) := by
    refine .of_attributed ?_ ?_
    · rw [imageAttributed, List.map_append]
      exact (List.Sublist.refl ["src".toList, "alt".toList]).append
        (sublist_optionalAttributed attributes _)
    · intro a ha
      rcases List.mem_append.1 ha with ha | ha
      · have hvalues : ∀ a ∈ [("src".toList, some (valueD attributes "src".toList)),
            ("alt".toList, some (valueD attributes "alt".toList))], a.2 ≠ none := by simp
        exact hvalues a ha
      · exact valued_optionalAttributed attributes _ a ha
  rw [← write_image]
  exact .image hattributes

/-! ## Rendering -/

/-- Trimming beside blanks keeps markup well nested. -/
theorem wellNested_trimBesideBlanks {V : Vocabulary} (afterBlank beforeBlank : Bool)
    {html : List Char} (h : WellNested V html) :
    WellNested V (trimBesideBlanks afterBlank beforeBlank html) := by
  cases afterBlank <;> cases beforeBlank
  · exact h
  · exact h.trimInlineEnd
  · exact h.trimInlineStart
  · exact h.trimInlineStart.trimInlineEnd

mutual

theorem wellNested_write : ∀ {layout : Layout Nat}, layout.Tagged →
    WellNested view (layout.write {})
  | .text s, _ => .of_text (.of_escape s)
  | .blank index, _ => .of_isVoid (.blank index)
  | .answer, _ => by
    have htext := WellNested.of_text (V := view) (EscapedText.of_escape "（記述）".toList)
    exact .of_element (by decide : ("span".toList, ["class".toList]) ∈ viewElements)
      (attributeText_singleton _ "qti-extended-placeholder".toList) htext
  | .image attributes, _ => .of_isVoid (isViewVoid_image attributes)
  | .line, _ => .of_isVoid .line
  | .box around inside, h => by
    obtain ⟨names, hname, hattributes⟩ := exists_viewElement h.1
    have hinside := wellNested_writeAll h.2
    rw [Layout.write, start_default]
    exact .of_element hname hattributes hinside
  | .code afterBlank beforeBlank inside, h => by
    have hinside := wellNested_trimBesideBlanks afterBlank beforeBlank
      (wellNested_writeAll (show TaggedAll inside from h))
    have hcode := WellNested.of_element (by decide : ("code".toList, []) ∈ view.elements) .nil hinside
    rw [Layout.write]
    unfold codeHtml
    simpa using hcode

/-- With the default options, numbered layouts are written as well-nested markup. -/
theorem wellNested_writeAll : ∀ {layouts : List (Layout Nat)}, TaggedAll layouts →
    WellNested view (Layout.writeAll {} layouts)
  | [], _ => .nil
  | _ :: _, h => (wellNested_write h.1).append (wellNested_writeAll h.2)

end

/-- No item brings markup of its own into the scoring view: with the default options the HTML of a node
is well-nested markup of the view, and trimming beside blanks keeps all such markup well nested. -/
theorem wellNested_renderNode (spacing : Spacing) (blanks : Nat) (node : Node) :
    WellNested view (renderNode {} spacing blanks node).html ∧
      ∀ (afterBlank beforeBlank : Bool) (html : List Char), WellNested view html →
        WellNested view (trimBesideBlanks afterBlank beforeBlank html) := by
  have htagged := taggedAll_numberAll blanks (taggedAll_layoutNode spacing [] node)
  constructor
  · rw [renderNode_eq_shown {} spacing blanks [] node, Layout.shown]
    exact wellNested_writeAll htagged
  · intro afterBlank beforeBlank html h
    exact wellNested_trimBesideBlanks afterBlank beforeBlank h

/-- Code before a blank, with text that looks like markup. -/
def markupLikeNode : Node :=
  .element "qti-pre".toList []
    [.element codeName [] [.text " x</code><b title=\"&amp\"> ".toList], .element blankName [] []]

theorem wellNested_markupLikeNode :
    WellNested view (renderNode {} Spacing.root 0 markupLikeNode).html ∧
      WellNested view
        (trimBesideBlanks true true (renderNode {} Spacing.root 0 markupLikeNode).html) := by
  obtain ⟨hnode, htrim⟩ := wellNested_renderNode Spacing.root 0 markupLikeNode
  exact ⟨hnode, htrim true true _ hnode⟩

end Assessment.Scoring
