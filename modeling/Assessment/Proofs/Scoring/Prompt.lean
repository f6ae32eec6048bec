import Assessment.Proofs.Html.Printing
import Assessment.Proofs.Scoring.Trees
import Assessment.Responses

/-!
# Proofs: reading the scoring view

Written markup is read as the nodes that it stands for, up to their text (`parse_writeAll`). What is
read of a prompt with the default options holds one input for each blank, numbered like the blank
(`blanks_nodes_treesOf`): no text and no attribute of the item is read as another one.
-/

namespace Assessment.Markup

open Assessment.Html Assessment.Text

/-- Attributes as they are read. Those without a value have the empty one. -/
def Attributed.read (attributes : Attributed) : Attributes :=
  attributes.map fun a => (a.1, a.2.getD [])

theorem Attributed.map_read (attributes : Attributed) :
    attributes.read.map (·.1) = attributes.map (·.1) := by
  simp [read, Function.comp_def]

/-- Written attributes spell what they are read as. -/
theorem spells_writeAttributes {attributes : Attributed} (h : attributes.Plain) :
    StartTag.Spells (Markup.writeAttributes attributes) attributes.read := by
  induction attributes with
  | nil => exact .nil
  | cons a attributes ih =>
    obtain ⟨name, value⟩ := a
    have hname : isPlainName name := h (name, value) (by simp)
    have hrest := ih fun b hb => h b (by simp [hb])
    cases value with
    | none => exact StartTag.Spells.bare hname hrest
    | some value =>
      have hspells := StartTag.Spells.quoted hname (rfl : StartTag.isQuote '\x22' = true)
        (quote_not_mem_escape value) hrest
      rw [Entity.decode_escape] at hspells
      simpa [Markup.writeAttributes, Markup.writeAttribute, Attributed.read] using hspells

namespace Tree

mutual

/-- The node of HTML that a piece of markup stands for. -/
def node : Tree → Node
  | .text s => .text s
  | .void name attributes => .element name attributes.read []
  | .element name attributes children => .element name attributes.read (nodes children)

/-- The nodes of HTML that some pieces of markup stand for. -/
def nodes : List Tree → List Node
  | [] => []
  | tree :: trees => node tree :: nodes trees

end

mutual

/-- All tags of the markup are regular, and just the void elements are written as such. -/
def Regular : Tree → Prop
  | .text _ => True
  | .void name attributes => isVoid name ∧ RegularTag name attributes.read
  | .element name attributes children =>
    isVoid name = false ∧ RegularTag name attributes.read ∧ RegularAll children

/-- All tags of some pieces of markup are regular. -/
def RegularAll : List Tree → Prop
  | [] => True
  | tree :: trees => Regular tree ∧ RegularAll trees

end

theorem regularAll_tags (trees : List Tree) : RegularAll (tags trees) ↔ RegularAll trees := by
  induction trees with
  | nil => exact Iff.rfl
  | cons tree trees ih =>
    cases tree with
    | text s => simpa [tags, isTag, RegularAll, Regular] using ih
    | void name attributes => exact and_congr_right fun _ => ih
    | element name attributes children => exact and_congr_right fun _ => ih

theorem elementsOf_tags (trees : List Tree) :
    Node.elementsOf (nodes (tags trees)) = Node.elementsOf (nodes trees) := by
  induction trees with
  | nil => rfl
  | cons tree trees ih =>
    cases tree with
    | text s => exact ih
    | void name attributes => exact congrArg (_ ++ ·) ih
    | element name attributes children => exact congrArg (_ ++ ·) ih

end Tree

theorem plain_of_read {attributes : Attributed} (h : ∀ a ∈ attributes.read, isPlainName a.1) :
    attributes.Plain := fun a ha => h (a.1, a.2.getD []) (List.mem_map.2 ⟨a, ha, rfl⟩)

mutual

theorem regular_node : ∀ {tree : Tree}, tree.Regular → Node.Regular tree.node
  | .text _, _ => trivial
  | .void _ _, h => ⟨h.2, fun _ => rfl, trivial⟩
  | .element name _ _, h => by
    refine ⟨h.2.1, fun hv => ?_, regularAll_nodes h.2.2⟩
    rw [h.1] at hv
    cases hv

theorem regularAll_nodes : ∀ {trees : List Tree}, Tree.RegularAll trees →
    Node.RegularAll (Tree.nodes trees)
  | [], _ => trivial
  | _ :: _, h => ⟨regular_node h.1, regularAll_nodes h.2⟩

end

mutual

theorem lexes_tree : ∀ {tree : Tree}, tree.Regular → Lexes tree.write (Node.tokens tree.node)
  | .text s, _ => by
    rw [Tree.write, Tree.node, Node.tokens]
    exact lexes_escape s
  | .void name attributes, h => by
    have hstart := lexes_startTag h.2.name_plain h.2.not_raw
      (spells_writeAttributes (plain_of_read h.2.plain)) .spaced
    rw [Attributes.ofList_of_nodup h.2.distinct] at hstart
    rw [Tree.write, Tree.node, Node.tokens, if_pos h.1]
    simpa using hstart
  | .element name attributes children, h => by
    obtain ⟨hvoid, htag, hchildren⟩ := h
    have hstart := lexes_startTag htag.name_plain htag.not_raw
      (spells_writeAttributes (plain_of_read htag.plain)) .bracket
    rw [Attributes.ofList_of_nodup htag.distinct] at hstart
    have hinside := lexes_trees hchildren
    have hend := lexes_endTag htag.name_plain
    rw [Tree.write, Tree.node, Node.tokens, if_neg (by simp [hvoid])]
    simpa using (hstart.append hinside).append hend

/-- Written markup has the tokens of the nodes that it stands for. -/
theorem lexes_trees : ∀ {trees : List Tree}, Tree.RegularAll trees →
    Lexes (Tree.writeAll trees) (Node.tokensOf (Tree.nodes trees))
  | [], _ => .nil
  | tree :: trees, h => by
    have htree := lexes_tree h.1
    have htrees := lexes_trees h.2
    rw [Tree.writeAll]
    exact htree.append htrees

end

/-- Written markup is read as the nodes that it stands for, with their texts joined. -/
theorem parse_writeAll {trees : List Tree} (h : Tree.RegularAll trees) :
    parse (Tree.writeAll trees) = some (joined false [] (Tree.nodes trees)) := by
  rw [parse_of_lexes (lexes_trees h), ofTokens_tokensOf (regularAll_nodes h)]

end Assessment.Markup

namespace Assessment.Scoring

open Assessment.Html Assessment.Item Assessment.Markup Assessment.Text Layout

/-! ## The tags of the view are regular -/

/-- Tags of the view are no special tags of HTML. -/
theorem boxTags_spec {tag : List Char} (h : tag ∈ boxTags) :
    isRaw tag = false ∧ tag ≠ "body".toList ∧ tag ≠ "meta".toList ∧ isVoid tag = false ∧
      tag ≠ "input".toList :=
  (by decide : ∀ tag ∈ boxTags, isRaw tag = false ∧ tag ≠ "body".toList ∧ tag ≠ "meta".toList ∧
    isVoid tag = false ∧ tag ≠ "input".toList) tag h

theorem eq_of_mem_optionalAttributed {attributes : Attributes} {name : List Char}
    {a : List Char × Option (List Char)} (h : a ∈ optionalAttributed attributes name) :
    a.1 = name := by
  have := (sublist_optionalAttributed attributes name).subset (List.mem_map_of_mem h)
  exact List.mem_singleton.1 this

/-- A tag is regular if its attributes are plain and distinct and those that hold several words need no
change. -/
theorem regularTag_read {name : List Char} {attributes : Attributed} (hname : isPlainName name)
    (htag : isRaw name = false ∧ name ≠ "body".toList ∧ name ≠ "meta".toList)
    (hplain : attributes.Plain) (hdistinct : (attributes.map (·.1)).Nodup)
    (hwords : ∀ a ∈ attributes, isWordAttribute name a.1 → spaced (a.2.getD []) = a.2.getD []) :
    RegularTag name attributes.read where
  name_plain := hname
  not_raw := htag.1
  not_body := htag.2.1
  not_meta := htag.2.2
  distinct := by rwa [Attributed.map_read]
  plain a ha := by
    obtain ⟨b, hb, rfl⟩ := List.mem_map.1 ha
    exact hplain b hb
  words_spaced a ha := by
    obtain ⟨b, hb, rfl⟩ := List.mem_map.1 ha
    exact hwords b hb

theorem distinct_attributed (around : Box) : (around.attributed.map (·.1)).Nodup := by
  cases around with
  | plain tag => exact .nil
  | link attributes =>
    rw [Box.attributed, List.map_append]
    exact ((sublist_optionalAttributed attributes "href".toList).append
      (sublist_optionalAttributed attributes "title".toList)).nodup (by decide)
  | orderedList attributes =>
    exact (sublist_optionalAttributed attributes "start".toList).nodup (List.pairwise_singleton _ _)
  | choices => exact List.pairwise_singleton _ _
  | choice attributes => exact List.pairwise_singleton _ _
  | pre withBlanks =>
    cases withBlanks with
    | true => exact List.pairwise_singleton _ _
    | false => exact .nil

theorem words_attributed (around : Box) : ∀ a ∈ around.attributed,
    isWordAttribute around.tag a.1 → spaced (a.2.getD []) = a.2.getD [] := by
  intro a ha hword
  cases around with
  | plain tag => cases ha
  | link attributes =>
    rcases List.mem_append.1 ha with ha | ha
    · rw [eq_of_mem_optionalAttributed ha] at hword
      exact absurd hword (by decide : ¬ isWordAttribute "a".toList "href".toList = true)
    · rw [eq_of_mem_optionalAttributed ha] at hword
      exact absurd hword (by decide : ¬ isWordAttribute "a".toList "title".toList = true)
  | orderedList attributes =>
    rw [eq_of_mem_optionalAttributed ha] at hword
    exact absurd hword (by decide : ¬ isWordAttribute "ol".toList "start".toList = true)
  | choices =>
    rw [List.mem_singleton.1 ha]
    decide
  | choice attributes =>
    rw [List.mem_singleton.1 ha] at hword
    exact absurd hword (by decide : ¬ isWordAttribute "li".toList "data-choice".toList = true)
  | pre withBlanks =>
    cases withBlanks with
    | true =>
      rw [List.mem_singleton.1 ha]
      decide
    | false => cases ha

theorem regularTag_box {around : Box} (h : around.tag ∈ boxTags) :
    RegularTag around.tag around.attributed.read := by
  obtain ⟨hraw, hbody, hmeta, -, -⟩ := boxTags_spec h
  exact regularTag_read (isPlainName_of_mem_boxTags h) ⟨hraw, hbody, hmeta⟩ (plain_attributed around)
    (distinct_attributed around) (words_attributed around)

theorem regularTag_blank (index : Nat) :
    RegularTag "input".toList (blankAttributed index).read := by
  refine regularTag_read (by decide) (by decide) (plain_blankAttributed index)
    (by decide : ((blankAttributed 0).map (·.1)).Nodup) ?_
  intro a ha hword
  have hfirst : a.1 = "class".toList := by
    have hnames : ∀ name ∈ (blankAttributed index).map (·.1),
        isWordAttribute "input".toList name → name = "class".toList :=
      (by decide : ∀ name ∈ (blankAttributed 0).map (·.1),
        isWordAttribute "input".toList name → name = "class".toList)
    exact hnames a.1 (List.mem_map_of_mem ha) hword
  rcases List.mem_cons.1 ha with rfl | ha
  · decide
  · have hothers : ∀ name ∈ (blankAttributed index).tail.map (·.1), name ≠ "class".toList :=
      (by decide : ∀ name ∈ (blankAttributed 0).tail.map (·.1), name ≠ "class".toList)
    exact absurd hfirst (hothers a.1 (List.mem_map_of_mem ha))

theorem regularTag_image (attributes : Attributes) :
    RegularTag "img".toList (imageAttributed attributes).read := by
  have hnames : ((imageAttributed attributes).map (·.1)).Sublist
      ["src".toList, "alt".toList, "title".toList] := by
    rw [imageAttributed, List.map_append]
    exact (List.Sublist.refl _).append (sublist_optionalAttributed attributes "title".toList)
  refine regularTag_read (by decide) (by decide) (plain_imageAttributed attributes)
    (hnames.nodup (by decide)) ?_
  intro a ha hword
  exact absurd hword ((by decide : ∀ name ∈ ["src".toList, "alt".toList, "title".toList],
    ¬ isWordAttribute "img".toList name = true) a.1 (hnames.subset (List.mem_map_of_mem ha)))

theorem regularAll_trimTrees (afterBlank beforeBlank : Bool) {trees : List Tree}
    (h : Tree.RegularAll trees) : Tree.RegularAll (trimTrees afterBlank beforeBlank trees) := by
  rwa [← Tree.regularAll_tags, tags_trimTrees, Tree.regularAll_tags]

mutual

theorem regular_treeOf : ∀ {layout : Layout Nat}, layout.Tagged → (treeOf layout).Regular
  | .text _, _ => trivial
  | .blank index, _ => ⟨by decide, regularTag_blank index⟩
  | .answer, _ =>
    ⟨by decide, regularTag_read (by decide) (by decide) (Attributed.plain_singleton (by decide) _)
      (by decide) (by decide), trivial, trivial⟩
  | .image attributes, _ => ⟨by decide, regularTag_image attributes⟩
  | .line, _ =>
    ⟨by decide, regularTag_read (by decide) (by decide) Attributed.plain_nil .nil (by decide)⟩
  | .box _ _, h => ⟨(boxTags_spec h.1).2.2.2.1, regularTag_box h.1, regularAll_treesOf h.2⟩
  | .code afterBlank beforeBlank _, h =>
    ⟨by decide, regularTag_read (by decide) (by decide) Attributed.plain_nil .nil (by decide),
      regularAll_trimTrees afterBlank beforeBlank (regularAll_treesOf (show TaggedAll _ from h))⟩

/-- The trees of layouts are regular. -/
theorem regularAll_treesOf : ∀ {layouts : List (Layout Nat)}, TaggedAll layouts →
    Tree.RegularAll (treesOf layouts)
  | [], _ => trivial
  | _ :: _, h => ⟨regular_treeOf h.1, regularAll_treesOf h.2⟩

end

/-! ## The blanks of the view -/

open Responses

theorem isBlankInput_of_ne {name : List Char} (h : name ≠ "input".toList) (attributes : Attributes) :
    isBlankInput name attributes = false := by
  rw [isBlankInput, beq_false_of_ne h]
  rfl

theorem isBlankInput_blank (index : Nat) :
    isBlankInput "input".toList (blankAttributed index).read := by
  have hclass : Attributes.get? "class".toList (blankAttributed index).read =
      some blankClass := rfl
  rw [isBlankInput, hclass]
  decide

/-- The inputs among some nodes, the first of which is an element. -/
theorem blanks_cons_element (name : List Char) (attributes : Attributes) (children nodes : List Node) :
    blanks (.element name attributes children :: nodes) =
      (if isBlankInput name attributes then [attributes] else []) ++
        (blanks children ++ blanks nodes) := by
  simp only [blanks, Node.elementsOf, Node.elements, List.cons_append, List.filterMap_cons,
    List.filterMap_append]
  by_cases h : isBlankInput name attributes
  · simp only [if_pos h]
    rfl
  · simp only [if_neg h]
    rfl

theorem blanks_cons_other {name : List Char} (h : name ≠ "input".toList) (attributes : Attributes)
    (children nodes : List Node) :
    blanks (.element name attributes children :: nodes) = blanks children ++ blanks nodes := by
  rw [blanks_cons_element, isBlankInput_of_ne h]
  rfl

theorem blanks_nodes_trimTrees (afterBlank beforeBlank : Bool) (trees : List Tree) :
    blanks (Tree.nodes (trimTrees afterBlank beforeBlank trees)) = blanks (Tree.nodes trees) := by
  rw [blanks, ← Tree.elementsOf_tags, tags_trimTrees, Tree.elementsOf_tags, blanks]

/-- The inputs among the nodes of layouts are their blanks, from left to right. -/
theorem blanks_nodes_treesOf : ∀ {layouts : List (Layout Nat)}, TaggedAll layouts →
    blanks (Tree.nodes (treesOf layouts)) =
      (holesAll layouts).map fun index => (blankAttributed index).read
  | [], _ => rfl
  | .text s :: layouts, h => by
    have ih := blanks_nodes_treesOf h.2
    rw [treesOf, holesAll, treeOf, Tree.nodes, Markup.Tree.node]
    exact ih
  | .blank index :: layouts, h => by
    rw [treesOf, holesAll, treeOf, Tree.nodes, Markup.Tree.node, blanks_cons_element,
      if_pos (isBlankInput_blank index), blanks_nodes_treesOf h.2]
    rfl
  | .answer :: layouts, h => by
    rw [treesOf, holesAll, treeOf, answerTree, Tree.nodes, Markup.Tree.node,
      blanks_cons_other (by decide), blanks_nodes_treesOf h.2]
    rfl
  | .image attributes :: layouts, h => by
    rw [treesOf, holesAll, treeOf, Tree.nodes, Markup.Tree.node, blanks_cons_other (by decide),
      blanks_nodes_treesOf h.2]
    rfl
  | .line :: layouts, h => by
    rw [treesOf, holesAll, treeOf, Tree.nodes, Markup.Tree.node, blanks_cons_other (by decide),
      blanks_nodes_treesOf h.2]
    rfl
  | .box around inside :: layouts, h => by
    rw [treesOf, holesAll, treeOf, Tree.nodes, Markup.Tree.node,
      blanks_cons_other (boxTags_spec h.1.1).2.2.2.2, blanks_nodes_treesOf h.1.2,
      blanks_nodes_treesOf h.2, List.map_append, holes]
  | .code afterBlank beforeBlank inside :: layouts, h => by
    have hinside : TaggedAll inside := h.1
    rw [treesOf, holesAll, treeOf, Tree.nodes, Markup.Tree.node, blanks_cons_other (by decide),
      blanks_nodes_trimTrees, blanks_nodes_treesOf hinside, blanks_nodes_treesOf h.2,
      List.map_append, holes]

/-! ## Prompts -/

/-- The nodes of HTML that are read of item nodes after a number of blanks in the scoring view with the
default options. -/
def shownNodes (blanks : Nat) (nodes : List Xml.Node) : List Node :=
  joined false [] (Tree.nodes (treesOf (numberAll blanks (layoutNodes Spacing.root [] 0 nodes)).1))

theorem regularAll_shownTrees (blanks : Nat) (nodes : List Xml.Node) :
    Tree.RegularAll (treesOf (numberAll blanks (layoutNodes Spacing.root [] 0 nodes)).1) :=
  regularAll_treesOf (taggedAll_numberAll blanks (taggedAll_layoutNodes Spacing.root [] 0 nodes))

/-- The scoring view with the default options is read, whatever the number of blanks before. -/
theorem parse_shown (blanks : Nat) (nodes : List Xml.Node) :
    parse (renderNodes {} Spacing.root blanks nodes).html = some (shownNodes blanks nodes) := by
  rw [renderNodes_eq_shown {} Spacing.root blanks [] 0 nodes, Layout.shown, writeAll_default]
  exact parse_writeAll (regularAll_shownTrees blanks nodes)

theorem regularAll_shownNodes (blanks : Nat) (nodes : List Xml.Node) :
    Node.RegularAll (shownNodes blanks nodes) :=
  regularAll_joined false [] (regularAll_nodes (regularAll_shownTrees blanks nodes))

theorem tight_shownNodes (blanks : Nat) (nodes : List Xml.Node) :
    Tight false false (shownNodes blanks nodes) :=
  tight_joined false [] _

/-- The nodes of HTML that are read of item nodes in the scoring view with the default options. -/
def promptNodes (nodes : List Xml.Node) : List Node := shownNodes 0 nodes

/-- The scoring view with the default options is read. -/
theorem parse_renderNodes (nodes : List Xml.Node) :
    parse (renderNodes {} Spacing.root 0 nodes).html = some (promptNodes nodes) :=
  parse_shown 0 nodes

theorem regularAll_promptNodes (nodes : List Xml.Node) : Node.RegularAll (promptNodes nodes) :=
  regularAll_shownNodes 0 nodes

theorem tight_promptNodes (nodes : List Xml.Node) : Tight false false (promptNodes nodes) :=
  tight_shownNodes 0 nodes

/-- The inputs of a prompt are numbered from one on, in document order, and nothing else is one. -/
theorem blanks_promptNodes (nodes : List Xml.Node) :
    blanks (promptNodes nodes) =
      (List.range' 1 (renderNodes {} Spacing.root 0 nodes).blanks).map fun index =>
        (blankAttributed index).read := by
  obtain ⟨hholes, hcount⟩ := holesAll_number 0 (layoutNodes Spacing.root [] 0 nodes)
  have htagged := taggedAll_numberAll 0 (taggedAll_layoutNodes Spacing.root [] 0 nodes)
  rw [blanks, promptNodes, shownNodes, elementsOf_joined]
  show blanks (Tree.nodes _) = _
  rw [blanks_nodes_treesOf htagged, hholes, renderNodes_eq_shown {} Spacing.root 0 [] 0 nodes,
    Layout.shown, hcount]
  simp only [Nat.zero_add]

theorem blanks_promptNodes_eq_nil_iff {nodes : List Xml.Node} :
    blanks (promptNodes nodes) = [] ↔ (renderNodes {} Spacing.root 0 nodes).blanks = 0 := by
  rw [blanks_promptNodes, List.map_eq_nil_iff, List.range'_eq_nil_iff]

/-! ## The class of blanks in the HTML -/

/-- Some tag among the pieces is written with a text in it. -/
def Shows (mark : List Char) (trees : List Tree) : Prop :=
  ∃ tree ∈ Tree.tags trees, ∃ before rest, tree.write = before ++ mark ++ rest

theorem Shows.cons {mark : List Char} {tree : Tree} {trees : List Tree} (h : Shows mark trees) :
    Shows mark (tree :: trees) := by
  obtain ⟨shown, hshown, hwrite⟩ := h
  refine ⟨shown, ?_, hwrite⟩
  rw [Tree.tags, List.filter_cons]
  split
  · exact List.mem_cons_of_mem _ hshown
  · exact hshown

/-- What the pieces show is in what is written. -/
theorem Shows.exists_writeAll {mark : List Char} {trees : List Tree} (h : Shows mark trees) :
    ∃ before rest, Tree.writeAll trees = before ++ mark ++ rest := by
  obtain ⟨shown, hshown, before, rest, hwrite⟩ := h
  obtain ⟨front, back, htrees⟩ := List.append_of_mem (List.mem_filter.1 hshown).1
  refine ⟨Tree.writeAll front ++ before, rest ++ Tree.writeAll back, ?_⟩
  rw [htrees, Tree.writeAll_append, Tree.writeAll, hwrite]
  simp

theorem Shows.element {mark : List Char} {children : List Tree} (h : Shows mark children)
    (name : List Char) (attributes : Attributed) (trees : List Tree) :
    Shows mark (.element name attributes children :: trees) := by
  obtain ⟨before, rest, hchildren⟩ := h.exists_writeAll
  refine ⟨.element name attributes children, List.mem_cons_self,
    '<' :: name ++ Markup.writeAttributes attributes ++ '>' :: before,
    rest ++ ("</".toList ++ name ++ ['>']), ?_⟩
  rw [Tree.write, hchildren]
  simp

/-- Layouts with a blank show the class of blanks. -/
theorem shows_blankClass : ∀ {layouts : List (Layout Nat)}, holesAll layouts ≠ [] →
    Shows blankClass (treesOf layouts)
  | [], h => absurd rfl h
  | .text s :: layouts, h => (@shows_blankClass layouts h).cons
  | .blank index :: layouts, _ => by
    refine ⟨.void "input".toList (blankAttributed index), List.mem_cons_self,
      "<input class=\"".toList,
      '\x22' :: Markup.writeAttributes (blankAttributed index).tail ++ " />".toList, ?_⟩
    have hclass : escape "qti-blank-input".toList = blankClass := by decide
    have hwrite : Markup.writeAttributes (blankAttributed index) =
        " class=\"".toList ++ escape "qti-blank-input".toList ++
          '\x22' :: Markup.writeAttributes (blankAttributed index).tail := by
      simp [Markup.writeAttributes, Markup.writeAttribute, blankAttributed]
    rw [Tree.write, hwrite, hclass]
    simp
  | .answer :: layouts, h => (@shows_blankClass layouts h).cons
  | .image _ :: layouts, h => (@shows_blankClass layouts h).cons
  | .line :: layouts, h => (@shows_blankClass layouts h).cons
  | .box around inside :: layouts, h => by
    rw [treesOf, treeOf]
    by_cases hinside : holesAll inside = []
    · exact (@shows_blankClass layouts (by simpa [holesAll, holes, hinside] using h)).cons
    · exact (shows_blankClass hinside).element _ _ _
  | .code afterBlank beforeBlank inside :: layouts, h => by
    rw [treesOf, treeOf]
    by_cases hinside : holesAll inside = []
    · exact (@shows_blankClass layouts (by simpa [holesAll, holes, hinside] using h)).cons
    · obtain ⟨shown, hshown, hwrite⟩ := shows_blankClass hinside
      have htrimmed : Shows blankClass (trimTrees afterBlank beforeBlank (treesOf inside)) :=
        ⟨shown, by rwa [tags_trimTrees], hwrite⟩
      exact htrimmed.element _ _ _

/-- A prompt with blanks holds their class. -/
theorem occursIn_blankClass {nodes : List Xml.Node}
    (h : (renderNodes {} Spacing.root 0 nodes).blanks ≠ 0) :
    occursIn blankClass (renderNodes {} Spacing.root 0 nodes).html := by
  obtain ⟨hholes, hcount⟩ := holesAll_number 0 (layoutNodes Spacing.root [] 0 nodes)
  rw [renderNodes_eq_shown {} Spacing.root 0 [] 0 nodes, Layout.shown] at h ⊢
  have hsome : holesAll (numberAll 0 (layoutNodes Spacing.root [] 0 nodes)).1 ≠ [] := by
    intro hnil
    have hlength := congrArg List.length (hholes.symm.trans hnil)
    rw [List.length_range', List.length_nil] at hlength
    exact h (by rw [hcount, hlength])
  obtain ⟨before, rest, hwrite⟩ := (shows_blankClass hsome).exists_writeAll
  rw [writeAll_default, hwrite]
  exact occursIn_append blankClass before rest

end Assessment.Scoring
