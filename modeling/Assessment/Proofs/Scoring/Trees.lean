import Assessment.Proofs.Markup.Trim
import Assessment.Proofs.Scoring.Layout

/-!
# Proofs: the scoring view as markup

With the default options a numbered layout is written as trees are (`writeAll_default`), and the trees
have plain names (`plainAll_treesOf`). Trimming beside blanks takes nothing but white space out of runs
of text, so the numbers in the HTML are those in the layout, in the same order
(`blankNumbers_writeAll`).
-/

namespace Assessment.Number

/-- Whole numbers are written in digits. -/
theorem isDigit_of_mem_decimal {n : Nat} {c : Char} (h : c ∈ decimal n) : c.isDigit :=
  Nat.isDigit_of_mem_toDigits (by decide) (by decide) h

end Assessment.Number

namespace Assessment.Scoring

open Assessment.Item Assessment.Markup Assessment.Text Assessment.Xml

/-- A whole number holds nothing that is escaped. -/
theorem escape_decimal (n : Nat) : escape (Number.decimal n) = Number.decimal n := by
  have hdigit : ∀ c ∈ Number.decimal n, c.isDigit := fun c => Number.isDigit_of_mem_decimal
  generalize Number.decimal n = s at hdigit
  induction s with
  | nil => rfl
  | cons c s ih =>
    have hc := hdigit c (by simp)
    have hone : escapeChar c = [c] := by
      have hne : ∀ d : Char, d.isDigit = false → c ≠ d := by
        rintro d hd rfl
        rw [hc] at hd
        cases hd
      simp [escapeChar, hne '&' (by decide), hne '<' (by decide), hne '>' (by decide),
        hne '\x22' (by decide), hne '\x27' (by decide)]
    rw [escape_cons, hone, ih fun d hd => hdigit d (by simp [hd])]
    rfl

/-! ## The trees of a layout -/

/-- An attribute as it is written, unless it is absent or empty. -/
def optionalAttributed (attributes : Attributes) (name : List Char) : Attributed :=
  match attributes.get? name with
  | none => []
  | some value => if value.isEmpty then [] else [(name, some value)]

/-- The value of an attribute, empty if it is absent. -/
def valueD (attributes : Attributes) (name : List Char) : List Char :=
  (attributes.get? name).getD []

/-- The attributes of a tag with the default options. -/
def Box.attributed : Box → Attributed
  | plain _ => []
  | link attributes =>
    optionalAttributed attributes "href".toList ++ optionalAttributed attributes "title".toList
  | orderedList attributes => optionalAttributed attributes "start".toList
  | choices => [("class".toList, some "qti-choice-list".toList)]
  | choice attributes =>
    [("data-choice".toList, some (valueD attributes "identifier".toList))]
  | pre true => [("class".toList, some "qti-pre-with-blanks".toList)]
  | pre false => []

/-- The attribute that holds the number of a blank. -/
def numberName : List Char := "data-blank".toList

/-- The attributes of a blank with the default options. -/
def blankAttributed (index : Nat) : Attributed :=
  [("class".toList, some "qti-blank-input".toList), (numberName, some (Number.decimal index)),
    ("type".toList, some "text".toList), ("size".toList, some "6".toList),
    ("disabled".toList, none),
    ("aria-label".toList, some ("blank ".toList ++ Number.decimal index))]

/-- The attributes of an image. -/
def imageAttributed (attributes : Attributes) : Attributed :=
  [("src".toList, some (valueD attributes "src".toList)),
    ("alt".toList, some (valueD attributes "alt".toList))] ++
    optionalAttributed attributes "title".toList

/-- The place of a long answer with the default options. -/
def answerTree : Tree :=
  .element "span".toList [("class".toList, some "qti-extended-placeholder".toList)]
    [.text "（記述）".toList]

/-- Some pieces of markup, trimmed on the sides where a blank comes before or follows. -/
def trimTrees (afterBlank beforeBlank : Bool) (trees : List Tree) : List Tree :=
  let started := if afterBlank then Tree.trimStart trees else trees
  if beforeBlank then Tree.trimEnd started else started

mutual

/-- A numbered layout as a tree. -/
def treeOf : Layout Nat → Tree
  | .text s => .text s
  | .blank index => .void "input".toList (blankAttributed index)
  | .answer => answerTree
  | .image attributes => .void "img".toList (imageAttributed attributes)
  | .line => .void "hr".toList []
  | .box around inside => .element around.tag around.attributed (treesOf inside)
  | .code afterBlank beforeBlank inside =>
    .element "code".toList [] (trimTrees afterBlank beforeBlank (treesOf inside))

/-- Numbered layouts as trees. -/
def treesOf : List (Layout Nat) → List Tree
  | [] => []
  | layout :: layouts => treeOf layout :: treesOf layouts

end

/-! ## Writing the trees -/

theorem optionalAttribute_eq (attributes : Attributes) (name : List Char) :
    optionalAttribute attributes name =
      Markup.writeAttributes (optionalAttributed attributes name) := by
  unfold optionalAttribute optionalAttributed
  cases attributes.get? name with
  | none => rfl
  | some value =>
    by_cases h : value.isEmpty
    · simp only [h, if_true]
      rfl
    · simp [h, Markup.writeAttributes, Markup.writeAttribute]

theorem writeAttributes_append (attributes more : Attributed) :
    Markup.writeAttributes (attributes ++ more) =
      Markup.writeAttributes attributes ++ Markup.writeAttributes more :=
  List.flatMap_append

theorem start_default (around : Box) :
    around.start {} = '<' :: around.tag ++ Markup.writeAttributes around.attributed := by
  unfold Box.start Box.attributed Box.tag
  cases around with
  | plain tag => simp [Markup.writeAttributes]
  | link attributes =>
    simp only [writeAttributes_append, optionalAttribute_eq, List.append_assoc]
    simp
  | orderedList attributes =>
    simp only [optionalAttribute_eq]
    simp
  | choices => rfl
  | choice attributes =>
    unfold choiceStart escapedValue valueD
    simp [Markup.writeAttributes, Markup.writeAttribute]
  | pre withBlanks => cases withBlanks <;> rfl

theorem write_blank (index : Nat) :
    (Tree.void "input".toList (blankAttributed index)).write = defaultBlank index := by
  rw [Tree.write]
  unfold blankAttributed defaultBlank numberName
  simp [Markup.writeAttributes, Markup.writeAttribute, escapeChar, escape_decimal,
    Number.signed_natCast]

theorem write_image (attributes : Attributes) :
    (Tree.void "img".toList (imageAttributed attributes)).write = image attributes := by
  rw [Tree.write]
  unfold imageAttributed image escapedValue valueD
  simp [optionalAttribute_eq, Markup.writeAttributes, Markup.writeAttribute]

theorem trimBesideBlanks_writeAll (afterBlank beforeBlank : Bool) (trees : List Tree) :
    trimBesideBlanks afterBlank beforeBlank (Tree.writeAll trees) =
      Tree.writeAll (trimTrees afterBlank beforeBlank trees) := by
  cases afterBlank <;> cases beforeBlank <;>
    simp [trimBesideBlanks, trimTrees, Tree.trimInlineStart_writeAll, Tree.trimInlineEnd_writeAll]

mutual

theorem write_default : ∀ layout : Layout Nat, layout.write {} = (treeOf layout).write
  | .text s => rfl
  | .blank index => (write_blank index).symm
  | .answer => rfl
  | .image attributes => (write_image attributes).symm
  | .line => rfl
  | .box around inside => by
    rw [Layout.write, treeOf, Tree.write, start_default, writeAll_default inside]
  | .code afterBlank beforeBlank inside => by
    rw [Layout.write, treeOf, Tree.write, writeAll_default inside, trimBesideBlanks_writeAll]
    unfold Layout.codeHtml
    simp [Markup.writeAttributes]

/-- With the default options, layouts are written as trees are. -/
theorem writeAll_default : ∀ layouts : List (Layout Nat),
    Layout.writeAll {} layouts = Tree.writeAll (treesOf layouts)
  | [] => rfl
  | layout :: layouts => by
    rw [Layout.writeAll, treesOf, Tree.writeAll, write_default layout, writeAll_default layouts]

end

/-! ## The tags of the view -/

/-- What a rule of its own says is said in the table. -/
theorem Rule.mem_table_of_ofName {name : List Char} {rule : Rule} (h : ofName name = rule)
    (hrule : rule ≠ transparent) : (name, rule) ∈ table := by
  unfold ofName at h
  cases hlookup : table.lookup name with
  | none =>
    rw [hlookup] at h
    exact absurd h.symm hrule
  | some found =>
    rw [hlookup] at h
    obtain ⟨before, after, hsplit, -⟩ := List.lookup_eq_some_iff.1 hlookup
    rw [hsplit, ← (show found = rule from h)]
    simp

/-- The tag that a rule puts around an element without looking at its attributes. -/
def Rule.wrapTag? : Rule → Option (List Char)
  | .wrap tag => some tag
  | _ => none

/-- The tags around something that is shown. -/
def boxTags : List (List Char) :=
  Rule.table.filterMap (·.2.wrapTag?) ++ ["a".toList, "ol".toList, "li".toList, "pre".toList]

theorem mem_boxTags_of_wrap {name tag : List Char} (h : Rule.ofName name = .wrap tag) :
    tag ∈ boxTags := by
  refine List.mem_append_left _ (List.mem_filterMap.2 ⟨(name, .wrap tag), ?_, rfl⟩)
  exact Rule.mem_table_of_ofName h (by simp)

theorem tag_mem_boxTags {around : Box} (h : ∀ tag, around ≠ .plain tag) : around.tag ∈ boxTags := by
  cases around with
  | plain tag => exact absurd rfl (h tag)
  | link attributes => exact (by decide : "a".toList ∈ boxTags)
  | orderedList attributes => exact (by decide : "ol".toList ∈ boxTags)
  | choices => exact (by decide : "ol".toList ∈ boxTags)
  | choice attributes => exact (by decide : "li".toList ∈ boxTags)
  | pre withBlanks => exact (by decide : "pre".toList ∈ boxTags)

namespace Layout

variable {β : Type}

mutual

/-- All tags in the layout are tags of the view. -/
def Tagged : Layout β → Prop
  | .box around inside => around.tag ∈ boxTags ∧ TaggedAll inside
  | .code _ _ inside => TaggedAll inside
  | _ => True

/-- All tags in some layouts are tags of the view. -/
def TaggedAll : List (Layout β) → Prop
  | [] => True
  | layout :: layouts => Tagged layout ∧ TaggedAll layouts

end

theorem taggedAll_append {l m : List (Layout β)} (hl : TaggedAll l) (hm : TaggedAll m) :
    TaggedAll (l ++ m) := by
  induction l with
  | nil => exact hm
  | cons layout layouts ih => exact ⟨hl.1, ih hl.2⟩

mutual

theorem tagged_number (blanks : Nat) : ∀ {layout : Layout β}, layout.Tagged →
    (number blanks layout).1.Tagged
  | .text _, _ | .blank _, _ | .answer, _ | .image _, _ | .line, _ => trivial
  | .box _ _, h => ⟨h.1, taggedAll_numberAll blanks h.2⟩
  | .code _ _ _, h => taggedAll_numberAll blanks (show TaggedAll _ from h)

theorem taggedAll_numberAll (blanks : Nat) : ∀ {layouts : List (Layout β)}, TaggedAll layouts →
    TaggedAll (numberAll blanks layouts).1
  | [], _ => trivial
  | _ :: _, h => ⟨tagged_number blanks h.1, taggedAll_numberAll _ h.2⟩

end

end Layout

open Layout

mutual

theorem taggedAll_layoutNode (spacing : Spacing) (place : Place) :
    ∀ node : Node, TaggedAll (layoutNode spacing place node)
  | .text s => by
    rw [layoutNode]
    split
    · trivial
    · exact ⟨trivial, trivial⟩
  | .comment _ => trivial
  | .element tag attributes children => by
    rw [layoutNode]
    cases hrule : Rule.ofName (localName tag) with
    | wrap name =>
      exact ⟨⟨mem_boxTags_of_wrap hrule, taggedAll_layoutNodes spacing place 0 children⟩, trivial⟩
    | link => exact ⟨⟨tag_mem_boxTags nofun, taggedAll_layoutNodes spacing place 0 children⟩, trivial⟩
    | code => exact ⟨taggedAll_layoutNodes spacing.keeping place 0 children, trivial⟩
    | pre => exact ⟨⟨tag_mem_boxTags nofun, taggedAll_layoutPre false place 0 children⟩, trivial⟩
    | orderedList =>
      exact ⟨⟨tag_mem_boxTags nofun, taggedAll_layoutNodes spacing place 0 children⟩, trivial⟩
    | image => exact ⟨trivial, trivial⟩
    | line => exact ⟨trivial, trivial⟩
    | blank => exact ⟨trivial, trivial⟩
    | extendedText => exact ⟨trivial, trivial⟩
    | choices => exact ⟨⟨tag_mem_boxTags nofun, taggedAll_layoutChoices place 0 children⟩, trivial⟩
    | hidden => trivial
    | transparent => exact taggedAll_layoutNodes spacing place 0 children

/-- All tags that are shown are tags of the view. -/
theorem taggedAll_layoutNodes (spacing : Spacing) (parent : Place) (i : Nat) :
    ∀ nodes : List Node, TaggedAll (layoutNodes spacing parent i nodes)
  | [] => trivial
  | node :: nodes => by
    rw [layoutNodes]
    exact taggedAll_append (taggedAll_layoutNode spacing (parent ++ [i]) node)
      (taggedAll_layoutNodes spacing parent (i + 1) nodes)

theorem taggedAll_layoutPre (afterBlank : Bool) (parent : Place) (i : Nat) :
    ∀ nodes : List Node, TaggedAll (layoutPre afterBlank parent i nodes)
  | [] => trivial
  | .comment _ :: nodes => taggedAll_layoutPre afterBlank parent (i + 1) nodes
  | .text s :: nodes => by
    rw [layoutPre]
    split
    · exact taggedAll_layoutPre afterBlank parent (i + 1) nodes
    · exact ⟨trivial, taggedAll_layoutPre false parent (i + 1) nodes⟩
  | .element tag attributes children :: nodes => by
    rw [layoutPre]
    split
    · exact ⟨taggedAll_layoutNodes Spacing.pre.keeping (parent ++ [i]) 0 children,
        taggedAll_layoutPre false parent (i + 1) nodes⟩
    · exact taggedAll_append
        (taggedAll_layoutNode Spacing.pre (parent ++ [i]) (.element tag attributes children))
        (taggedAll_layoutPre _ parent (i + 1) nodes)

theorem taggedAll_layoutChoicesOf (place : Place) :
    ∀ node : Node, TaggedAll (layoutChoicesOf place node)
  | .text _ => trivial
  | .comment _ => trivial
  | .element tag attributes children => by
    rw [layoutChoicesOf]
    split
    · exact ⟨⟨tag_mem_boxTags nofun, taggedAll_layoutNodes Spacing.root place 0 children⟩,
        taggedAll_layoutChoices place 0 children⟩
    · exact taggedAll_layoutChoices place 0 children

theorem taggedAll_layoutChoices (parent : Place) (i : Nat) :
    ∀ nodes : List Node, TaggedAll (layoutChoices parent i nodes)
  | [] => trivial
  | node :: nodes => by
    rw [layoutChoices]
    exact taggedAll_append (taggedAll_layoutChoicesOf (parent ++ [i]) node)
      (taggedAll_layoutChoices parent (i + 1) nodes)

end

/-! ## The trees have plain names -/

theorem isPlainName_of_mem_boxTags {tag : List Char} (h : tag ∈ boxTags) : isPlainName tag :=
  (by decide : ∀ tag ∈ boxTags, isPlainName tag) tag h

theorem tags_trimTrees (afterBlank beforeBlank : Bool) (trees : List Tree) :
    Tree.tags (trimTrees afterBlank beforeBlank trees) = Tree.tags trees := by
  cases afterBlank <;> cases beforeBlank <;>
    simp [trimTrees, Tree.tags_trimStart, Tree.tags_trimEnd]

theorem plainAll_trimTrees (afterBlank beforeBlank : Bool) {trees : List Tree}
    (h : Tree.PlainAll trees) : Tree.PlainAll (trimTrees afterBlank beforeBlank trees) := by
  rwa [← Tree.plainAll_tags, tags_trimTrees, Tree.plainAll_tags]

theorem sublist_optionalAttributed (attributes : Attributes) (name : List Char) :
    ((optionalAttributed attributes name).map (·.1)).Sublist [name] := by
  unfold optionalAttributed
  split
  · exact List.nil_sublist _
  · split
    · exact List.nil_sublist _
    · exact List.Sublist.refl _

theorem plain_optionalAttributed (attributes : Attributes) {name : List Char}
    (h : isPlainName name) : (optionalAttributed attributes name).Plain := by
  unfold optionalAttributed
  split
  · exact Attributed.plain_nil
  · split
    · exact Attributed.plain_nil
    · exact Attributed.plain_singleton h _

theorem plain_attributed (around : Box) : around.attributed.Plain := by
  cases around with
  | plain tag => exact Attributed.plain_nil
  | link attributes =>
    exact Attributed.plain_append (plain_optionalAttributed attributes (by decide))
      (plain_optionalAttributed attributes (by decide))
  | orderedList attributes => exact plain_optionalAttributed attributes (by decide)
  | choices => exact Attributed.plain_singleton rfl _
  | choice attributes => exact Attributed.plain_singleton rfl _
  | pre withBlanks =>
    cases withBlanks with
    | true => exact Attributed.plain_singleton rfl _
    | false => exact Attributed.plain_nil

theorem plain_blankAttributed (index : Nat) : (blankAttributed index).Plain := by
  intro a ha
  have hnames : ∀ name ∈ (blankAttributed index).map (·.1), isPlainName name :=
    (by decide : ∀ name ∈ (blankAttributed 0).map (·.1), isPlainName name)
  exact hnames a.1 (List.mem_map_of_mem ha)

theorem plain_imageAttributed (attributes : Attributes) : (imageAttributed attributes).Plain := by
  refine Attributed.plain_append ?_ (plain_optionalAttributed attributes (by decide))
  exact @Attributed.plain_append [_] _ (Attributed.plain_singleton rfl _)
    (Attributed.plain_singleton rfl _)

mutual

theorem plain_treeOf : ∀ {layout : Layout Nat}, layout.Tagged → (treeOf layout).Plain
  | .text _, _ => trivial
  | .blank index, _ => ⟨rfl, plain_blankAttributed index⟩
  | .answer, _ => ⟨rfl, Attributed.plain_singleton rfl _, trivial, trivial⟩
  | .image attributes, _ => ⟨rfl, plain_imageAttributed attributes⟩
  | .line, _ => ⟨rfl, Attributed.plain_nil⟩
  | .box around _, h =>
    ⟨isPlainName_of_mem_boxTags h.1, plain_attributed around, plainAll_treesOf h.2⟩
  | .code afterBlank beforeBlank _, h =>
    ⟨rfl, Attributed.plain_nil,
      plainAll_trimTrees afterBlank beforeBlank (plainAll_treesOf (show TaggedAll _ from h))⟩

/-- The trees of layouts have plain names. -/
theorem plainAll_treesOf : ∀ {layouts : List (Layout Nat)}, TaggedAll layouts →
    Tree.PlainAll (treesOf layouts)
  | [], _ => trivial
  | _ :: _, h => ⟨plain_treeOf h.1, plainAll_treesOf h.2⟩

end

/-! ## The numbers in the trees -/

/-- The values of attributes with a name. -/
def valuesUnder (name : List Char) (found : List (List Char × List Char)) : List (List Char) :=
  (found.filter fun a => a.1 == name).map (·.2)

theorem valuesUnder_append (name : List Char) (found more : List (List Char × List Char)) :
    valuesUnder name (found ++ more) = valuesUnder name found ++ valuesUnder name more := by
  simp [valuesUnder]

theorem valuesUnder_optionalAttributed (attributes : Attributes) {name key : List Char}
    (h : name ≠ key) :
    valuesUnder key (Tree.valuedOf (optionalAttributed attributes name)) = [] := by
  unfold optionalAttributed
  split
  · rfl
  · split
    · rfl
    · simp [Tree.valuedOf, valuesUnder, h]

/-- The values of the attributes of some pieces of markup that hold the numbers of blanks. -/
def blankNumbers (found : List (List Char × List Char)) : List (List Char) :=
  (found.filter fun a => a.1 == numberName).map (·.2)

theorem blankNumbers_append (found more : List (List Char × List Char)) :
    blankNumbers (found ++ more) = blankNumbers found ++ blankNumbers more :=
  valuesUnder_append numberName found more

theorem blankNumbers_optionalAttributed (attributes : Attributes) {name : List Char}
    (h : name ≠ numberName) :
    blankNumbers (Tree.valuedOf (optionalAttributed attributes name)) = [] :=
  valuesUnder_optionalAttributed attributes h

theorem valuedOf_append (attributes more : Attributed) :
    Tree.valuedOf (attributes ++ more) = Tree.valuedOf attributes ++ Tree.valuedOf more := by
  induction attributes with
  | nil => rfl
  | cons a attributes ih =>
    obtain ⟨name, value⟩ := a
    cases value <;> simp [Tree.valuedOf, ih]

theorem blankNumbers_attributed (around : Box) :
    blankNumbers (Tree.valuedOf around.attributed) = [] := by
  cases around with
  | plain tag => rfl
  | link attributes =>
    rw [Box.attributed, valuedOf_append, blankNumbers_append,
      blankNumbers_optionalAttributed attributes (by decide),
      blankNumbers_optionalAttributed attributes (by decide)]
    rfl
  | orderedList attributes => exact blankNumbers_optionalAttributed attributes (by decide)
  | choices => rfl
  | choice attributes => rfl
  | pre withBlanks => cases withBlanks <;> rfl

/-- An image has no other attributes than those of its names. -/
theorem valuesUnder_imageAttributed {key : List Char}
    (h : ∀ name ∈ ["src".toList, "alt".toList, "title".toList], name ≠ key) (attributes : Attributes) :
    valuesUnder key (Tree.valuedOf (imageAttributed attributes)) = [] := by
  simp only [List.forall_mem_cons] at h
  obtain ⟨hsrc, halt, htitle, -⟩ := h
  rw [imageAttributed, valuedOf_append, valuesUnder_append,
    valuesUnder_optionalAttributed attributes htitle, List.append_nil]
  simp only [valuesUnder, Tree.valuedOf, List.filter_cons, beq_false_of_ne hsrc,
    beq_false_of_ne halt, Bool.false_eq_true, if_false, List.filter_nil, List.map_nil]

theorem blankNumbers_blankAttributed (index : Nat) :
    blankNumbers (Tree.valuedOf (blankAttributed index)) = [Number.decimal index] := by
  rw [← escape_decimal index]
  rfl

theorem valuedAll_trimTrees (afterBlank beforeBlank : Bool) (trees : List Tree) :
    Tree.valuedAll (trimTrees afterBlank beforeBlank trees) = Tree.valuedAll trees := by
  rw [← Tree.valuedAll_tags, tags_trimTrees, Tree.valuedAll_tags]

mutual

theorem blankNumbers_treeOf : ∀ layout : Layout Nat,
    blankNumbers (treeOf layout).valued = layout.holes.map Number.decimal
  | .text _ | .answer | .line => rfl
  | .blank index => blankNumbers_blankAttributed index
  | .image attributes => valuesUnder_imageAttributed (by decide) attributes
  | .box around inside => by
    rw [treeOf, Tree.valued, blankNumbers_append, blankNumbers_attributed, List.nil_append,
      blankNumbers_treesOf inside, holes]
  | .code afterBlank beforeBlank inside => by
    rw [treeOf, Tree.valued, valuedAll_trimTrees, blankNumbers_append, blankNumbers_treesOf inside,
      holes]
    rfl

/-- The numbers of blanks in the trees are those in the layouts, from left to right. -/
theorem blankNumbers_treesOf : ∀ layouts : List (Layout Nat),
    blankNumbers (Tree.valuedAll (treesOf layouts)) = (holesAll layouts).map Number.decimal
  | [] => rfl
  | layout :: layouts => by
    rw [treesOf, Tree.valuedAll, blankNumbers_append, blankNumbers_treeOf layout,
      blankNumbers_treesOf layouts, holesAll, List.map_append]

end

/-- The numbers of blanks found in the HTML are those in the layouts, from left to right. -/
theorem blankNumbers_writeAll {layouts : List (Layout Nat)} (h : TaggedAll layouts) :
    blankNumbers (StartTag.quotedAttribute.findAll (Layout.writeAll {} layouts)) =
      (holesAll layouts).map Number.decimal := by
  rw [writeAll_default, StartTag.findAll_writeAll (plainAll_treesOf h), blankNumbers_treesOf]

end Assessment.Scoring
