import Assessment.Scoring.Item

/-!
# The layout of the scoring view

Rendering does two things at once: it decides what is shown of each node, and it counts blanks. Here
the first is a definition of its own. A *layout* says what is shown, with places left open for the
numbers of blanks. `layoutNodes` makes one without a counter, and a hole in it carries the place of the
blank in the document.

Main statement: `renderNodes_eq_shown`, rendering is laying out, numbering the holes from left to right
and writing the result.
-/

namespace Assessment.Scoring

open Assessment.Item Assessment.Text Assessment.Xml

/-- The place of a node: the positions among their siblings of the nodes on the way to it, the
outermost first. -/
abbrev Place := List Nat

/-- The tag around something that is shown. -/
inductive Box where
  /-- A tag without attributes. -/
  | plain (tag : List Char)
  /-- A link. -/
  | link (attributes : Attributes)
  /-- A numbered list. -/
  | orderedList (attributes : Attributes)
  /-- A list of choices. -/
  | choices
  /-- A choice. -/
  | choice (attributes : Attributes)
  /-- A preformatted block, and whether blanks are among its children. -/
  | pre (withBlanks : Bool)

namespace Box

/-- The name of the tag. -/
def tag : Box → List Char
  | plain tag => tag
  | link _ => "a".toList
  | orderedList _ => "ol".toList
  | choices => "ol".toList
  | choice _ => "li".toList
  | pre _ => "pre".toList

/-- The start tag as it is written, without its closing bracket. -/
def start (options : Options) : Box → List Char
  | plain tag => '<' :: tag
  | link attributes =>
    "<a".toList ++ optionalAttribute attributes "href".toList ++
      optionalAttribute attributes "title".toList
  | orderedList attributes => "<ol".toList ++ optionalAttribute attributes "start".toList
  | choices => choiceListStart options
  | choice attributes => choiceStart attributes
  | pre true => "<pre class=\"".toList ++ options.preWithBlanksClass ++ ['\x22']
  | pre false => "<pre".toList

end Box

/-- What is shown of some nodes. `β` is what stands in the holes for blanks. -/
inductive Layout (β : Type) where
  /-- A run of text, not escaped. -/
  | text (s : List Char)
  /-- A blank. -/
  | blank (b : β)
  /-- The place of a long answer. -/
  | answer
  /-- An image. -/
  | image (attributes : Attributes)
  /-- A line across the page. -/
  | line
  /-- A tag around something. -/
  | box (around : Box) (inside : List (Layout β))
  /-- Code, trimmed on the sides where a blank comes before or follows. -/
  | code (afterBlank beforeBlank : Bool) (inside : List (Layout β))

/-! ## Laying out -/

mutual

/-- The layout of the node at a place. -/
def layoutNode (spacing : Spacing) (place : Place) : Node → List (Layout Place)
  | .text s => if spacing.inPre && !spacing.preserve && isBlankText s then [] else [.text s]
  | .comment _ => []
  | .element tag attributes children =>
    match Rule.ofName (localName tag) with
    | .wrap name => [.box (.plain name) (layoutNodes spacing place 0 children)]
    | .link => [.box (.link attributes) (layoutNodes spacing place 0 children)]
    | .code => [.code false false (layoutNodes spacing.keeping place 0 children)]
    | .pre =>
      [.box (.pre (children.any (·.isElement blankName))) (layoutPre false place 0 children)]
    | .orderedList => [.box (.orderedList attributes) (layoutNodes spacing place 0 children)]
    | .image => [.image attributes]
    | .line => [.line]
    | .blank => [.blank place]
    | .extendedText => [.answer]
    | .choices => [.box .choices (layoutChoices place 0 children)]
    | .hidden => []
    | .transparent => layoutNodes spacing place 0 children

/-- The layout of siblings below a place, the first of which is at position `i`. -/
def layoutNodes (spacing : Spacing) (parent : Place) (i : Nat) : List Node → List (Layout Place)
  | [] => []
  | node :: nodes =>
    layoutNode spacing (parent ++ [i]) node ++ layoutNodes spacing parent (i + 1) nodes

/-- The layout of the children of a preformatted block. `afterBlank` says that the last node that
counts was a blank. -/
def layoutPre (afterBlank : Bool) (parent : Place) (i : Nat) : List Node → List (Layout Place)
  | [] => []
  | .comment _ :: nodes => layoutPre afterBlank parent (i + 1) nodes
  | .text s :: nodes =>
    if isBlankText s then layoutPre afterBlank parent (i + 1) nodes
    else .text s :: layoutPre false parent (i + 1) nodes
  | .element tag attributes children :: nodes =>
    if localName tag == codeName then
      .code afterBlank (startsWithBlank nodes)
          (layoutNodes Spacing.pre.keeping (parent ++ [i]) 0 children) ::
        layoutPre false parent (i + 1) nodes
    else
      layoutNode Spacing.pre (parent ++ [i]) (.element tag attributes children) ++
        layoutPre (localName tag == blankName) parent (i + 1) nodes

/-- The layout of the choices at and below a node. -/
def layoutChoicesOf (place : Place) : Node → List (Layout Place)
  | .element tag attributes children =>
    if localName tag == choiceName then
      .box (.choice attributes) (layoutNodes Spacing.root place 0 children) ::
        layoutChoices place 0 children
    else layoutChoices place 0 children
  | _ => []

/-- The layout of the choices at and below some siblings. -/
def layoutChoices (parent : Place) (i : Nat) : List Node → List (Layout Place)
  | [] => []
  | node :: nodes => layoutChoicesOf (parent ++ [i]) node ++ layoutChoices parent (i + 1) nodes

end

namespace Layout

variable {β γ : Type}

/-! ## Numbering and writing -/

mutual

/-- The layout with its holes numbered from left to right. `blanks` is the number of blanks before it,
and the number after it is returned. -/
def number (blanks : Nat) : Layout β → Layout Nat × Nat
  | .text s => (.text s, blanks)
  | .blank _ => (.blank (blanks + 1), blanks + 1)
  | .answer => (.answer, blanks)
  | .image attributes => (.image attributes, blanks)
  | .line => (.line, blanks)
  | .box around inside =>
    let numbered := numberAll blanks inside
    (.box around numbered.1, numbered.2)
  | .code afterBlank beforeBlank inside =>
    let numbered := numberAll blanks inside
    (.code afterBlank beforeBlank numbered.1, numbered.2)

/-- Some layouts with their holes numbered from left to right. -/
def numberAll (blanks : Nat) : List (Layout β) → List (Layout Nat) × Nat
  | [] => ([], blanks)
  | layout :: layouts =>
    let first := number blanks layout
    let rest := numberAll first.2 layouts
    (first.1 :: rest.1, rest.2)

end

/-- A line across the page as HTML. -/
def lineHtml : List Char := "<hr />".toList

/-- Code as HTML. -/
def codeHtml (inside : List Char) : List Char := "<code>".toList ++ inside ++ "</code>".toList

mutual

/-- A numbered layout as HTML. -/
def write (options : Options) : Layout Nat → List Char
  | .text s => Markup.escape s
  | .blank index => options.blank index
  | .answer => options.extendedText
  | .image attributes => Scoring.image attributes
  | .line => lineHtml
  | .box around inside =>
    around.start options ++ '>' :: writeAll options inside ++ "</".toList ++ around.tag ++ ['>']
  | .code afterBlank beforeBlank inside =>
    codeHtml (trimBesideBlanks afterBlank beforeBlank (writeAll options inside))

/-- Numbered layouts as HTML, one after the other. -/
def writeAll (options : Options) : List (Layout Nat) → List Char
  | [] => []
  | layout :: layouts => write options layout ++ writeAll options layouts

end

mutual

/-- What stands in the holes of a layout, from left to right. -/
def holes : Layout β → List β
  | .blank b => [b]
  | .box _ inside => holesAll inside
  | .code _ _ inside => holesAll inside
  | _ => []

/-- What stands in the holes of some layouts, from left to right. -/
def holesAll : List (Layout β) → List β
  | [] => []
  | layout :: layouts => holes layout ++ holesAll layouts

end

mutual

/-- The layout with something else in each hole. -/
def fill (f : β → γ) : Layout β → Layout γ
  | .text s => .text s
  | .blank b => .blank (f b)
  | .answer => .answer
  | .image attributes => .image attributes
  | .line => .line
  | .box around inside => .box around (fillAll f inside)
  | .code afterBlank beforeBlank inside => .code afterBlank beforeBlank (fillAll f inside)

/-- Some layouts with something else in each hole. -/
def fillAll (f : β → γ) : List (Layout β) → List (Layout γ)
  | [] => []
  | layout :: layouts => fill f layout :: fillAll f layouts

end

@[simp] theorem numberAll_append (blanks : Nat) (l m : List (Layout β)) :
    numberAll blanks (l ++ m) =
      ((numberAll blanks l).1 ++ (numberAll (numberAll blanks l).2 m).1,
        (numberAll (numberAll blanks l).2 m).2) := by
  induction l generalizing blanks with
  | nil => simp [numberAll]
  | cons layout layouts ih => simp [numberAll, ih]

@[simp] theorem writeAll_append (options : Options) (l m : List (Layout Nat)) :
    writeAll options (l ++ m) = writeAll options l ++ writeAll options m := by
  induction l with
  | nil => simp [writeAll]
  | cons layout layouts ih => simp [writeAll, ih]

@[simp] theorem holesAll_append (l m : List (Layout β)) :
    holesAll (l ++ m) = holesAll l ++ holesAll m := by
  induction l with
  | nil => simp [holesAll]
  | cons layout layouts ih => simp [holesAll, ih]

mutual

/-- Numbering fills the holes with the numbers that follow, one by one. -/
theorem holes_number (blanks : Nat) : ∀ layout : Layout β,
    holes (number blanks layout).1 = List.range' (blanks + 1) (holes layout).length ∧
      (number blanks layout).2 = blanks + (holes layout).length
  | .text _ | .answer | .image _ | .line => by simp [number, holes]
  | .blank _ => by simp [number, holes]
  | .box _ inside => by
    simpa only [number, holes] using holesAll_number blanks inside
  | .code _ _ inside => by
    simpa only [number, holes] using holesAll_number blanks inside

theorem holesAll_number (blanks : Nat) : ∀ layouts : List (Layout β),
    holesAll (numberAll blanks layouts).1 =
        List.range' (blanks + 1) (holesAll layouts).length ∧
      (numberAll blanks layouts).2 = blanks + (holesAll layouts).length
  | [] => by simp [numberAll, holesAll]
  | layout :: layouts => by
    obtain ⟨h1, h2⟩ := holes_number blanks layout
    obtain ⟨h3, h4⟩ := holesAll_number (number blanks layout).2 layouts
    simp only [numberAll, holesAll, List.length_append]
    refine ⟨?_, by omega⟩
    rw [h1, h3, h2, ← List.range'_append_1]
    congr 2
    omega

end

mutual

/-- A filling that gives the holes the numbers that follow is the numbering. -/
theorem number_eq_fill {f : β → Nat} {blanks : Nat} : ∀ {layout : Layout β},
    (holes layout).map f = List.range' (blanks + 1) (holes layout).length →
      number blanks layout = (fill f layout, blanks + (holes layout).length)
  | .text _, _ | .answer, _ | .image _, _ | .line, _ => by simp [number, fill, holes]
  | .blank b, h => by
    simp [holes] at h
    simp [number, fill, holes, h]
  | .box _ inside, h => by
    simp only [holes] at h
    simp [number, fill, holes, numberAll_eq_fillAll h]
  | .code _ _ inside, h => by
    simp only [holes] at h
    simp [number, fill, holes, numberAll_eq_fillAll h]

theorem numberAll_eq_fillAll {f : β → Nat} {blanks : Nat} : ∀ {layouts : List (Layout β)},
    (holesAll layouts).map f = List.range' (blanks + 1) (holesAll layouts).length →
      numberAll blanks layouts = (fillAll f layouts, blanks + (holesAll layouts).length)
  | [], _ => by simp [numberAll, fillAll, holesAll]
  | layout :: layouts, h => by
    simp only [holesAll, List.map_append, List.length_append] at h
    rw [← List.range'_append_1] at h
    obtain ⟨h1, h2⟩ := List.append_inj h (by simp)
    have h3 := number_eq_fill h1
    rw [show blanks + 1 + (holes layout).length = blanks + (holes layout).length + 1 by omega] at h2
    have h4 := numberAll_eq_fillAll h2
    simp [numberAll, fillAll, holesAll, h3, h4]
    omega

end

end Layout

/-! ## Rendering through layouts -/

namespace Layout

variable {β : Type}

/-- What is shown of some layouts after a number of blanks. -/
def shown (options : Options) (blanks : Nat) (layouts : List (Layout β)) : Shown :=
  ⟨writeAll options (numberAll blanks layouts).1, (numberAll blanks layouts).2⟩

@[simp] theorem shown_nil (options : Options) (blanks : Nat) :
    Layout.shown options blanks ([] : List (Layout β)) = ⟨[], blanks⟩ := rfl

theorem shown_append (options : Options) (blanks : Nat) (l m : List (Layout β)) :
    Layout.shown options blanks (l ++ m) =
      ⟨(Layout.shown options blanks l).html ++
          (Layout.shown options (Layout.shown options blanks l).blanks m).html,
        (Layout.shown options (Layout.shown options blanks l).blanks m).blanks⟩ := by
  simp [Layout.shown]

theorem shown_box (options : Options) (blanks : Nat) (around : Box) (inside : List (Layout β)) :
    Layout.shown options blanks [.box around inside] =
      (Layout.shown options blanks inside).within (around.start options) around.tag := by
  simp [Layout.shown, numberAll, number, writeAll, write, Shown.within]

theorem shown_code (options : Options) (blanks : Nat) (afterBlank beforeBlank : Bool)
    (inside : List (Layout β)) :
    Layout.shown options blanks [.code afterBlank beforeBlank inside] =
      ⟨codeHtml (trimBesideBlanks afterBlank beforeBlank (Layout.shown options blanks inside).html),
        (Layout.shown options blanks inside).blanks⟩ := by
  simp [Layout.shown, numberAll, number, writeAll, write]

/-- Code that no blank stands beside is a tag like any other. -/
theorem within_code (shown : Shown) :
    shown.within "<code".toList "code".toList =
      ⟨codeHtml (trimBesideBlanks false false shown.html), shown.blanks⟩ := by
  simp only [Shown.within, trimBesideBlanks, Bool.false_eq_true, if_false, List.append_assoc]
  rfl

end Layout

open Layout

theorem start_pre (options : Options) (children : List Node) :
    (Box.pre (children.any (·.isElement blankName))).start options = preStart options children := by
  unfold preStart
  cases children.any (·.isElement blankName) <;> rfl

mutual

theorem renderNode_eq_shown (options : Options) (spacing : Spacing) (blanks : Nat) (place : Place) :
    ∀ node : Node, renderNode options spacing blanks node =
      Layout.shown options blanks (layoutNode spacing place node)
  | .text s => by
    simp only [renderNode, layoutNode, Spacing.render]
    split
    · rfl
    · simp [Layout.shown, numberAll, number, writeAll, write]
  | .comment _ => by simp [renderNode, layoutNode]
  | .element tag attributes children => by
    simp only [renderNode, layoutNode]
    cases Rule.ofName (localName tag) with
    | wrap name =>
      simp only [shown_box, ← renderNodes_eq_shown options spacing blanks place 0 children]
      rfl
    | link =>
      simp only [shown_box, ← renderNodes_eq_shown options spacing blanks place 0 children]
      rfl
    | code =>
      simp only [shown_code, ← renderNodes_eq_shown options spacing.keeping blanks place 0 children]
      exact within_code _
    | pre =>
      simp only [shown_box, start_pre, ← renderPre_eq_shown options false blanks place 0 children]
      rfl
    | orderedList =>
      simp only [shown_box, ← renderNodes_eq_shown options spacing blanks place 0 children]
      rfl
    | image => simp [Layout.shown, numberAll, number, writeAll, write]
    | line =>
      simp only [Layout.shown, numberAll, number, writeAll, write, List.append_nil]
      rfl
    | blank => simp [Layout.shown, numberAll, number, writeAll, write]
    | extendedText => simp [Layout.shown, numberAll, number, writeAll, write]
    | choices =>
      simp only [shown_box, ← renderChoices_eq_shown options blanks place 0 children]
      rfl
    | hidden => rfl
    | transparent => exact renderNodes_eq_shown options spacing blanks place 0 children

/-- Rendering is laying out, numbering the blanks from left to right and writing the result. -/
theorem renderNodes_eq_shown (options : Options) (spacing : Spacing) (blanks : Nat) (parent : Place)
    (i : Nat) : ∀ nodes : List Node, renderNodes options spacing blanks nodes =
      Layout.shown options blanks (layoutNodes spacing parent i nodes)
  | [] => rfl
  | node :: nodes => by
    simp only [renderNodes, layoutNodes, shown_append,
      renderNode_eq_shown options spacing blanks (parent ++ [i]) node,
      renderNodes_eq_shown options spacing _ parent (i + 1) nodes]

theorem renderPre_eq_shown (options : Options) (afterBlank : Bool) (blanks : Nat) (parent : Place)
    (i : Nat) : ∀ nodes : List Node, renderPre options afterBlank blanks nodes =
      Layout.shown options blanks (layoutPre afterBlank parent i nodes)
  | [] => rfl
  | .comment _ :: nodes => by
    simpa only [renderPre, layoutPre] using
      renderPre_eq_shown options afterBlank blanks parent (i + 1) nodes
  | .text s :: nodes => by
    simp only [renderPre, layoutPre]
    split
    · exact renderPre_eq_shown options afterBlank blanks parent (i + 1) nodes
    · next hs =>
      rw [renderPre_eq_shown options false blanks parent (i + 1) nodes]
      simp [Layout.shown, numberAll, number, writeAll, write, Spacing.render, hs]
  | .element tag attributes children :: nodes => by
    simp only [renderPre, layoutPre]
    split
    · rw [← List.singleton_append, shown_append, shown_code,
        ← renderNodes_eq_shown options Spacing.pre.keeping blanks (parent ++ [i]) 0 children]
      simp only [← renderPre_eq_shown options false _ parent (i + 1) nodes]
      rfl
    · rw [shown_append,
        ← renderNode_eq_shown options Spacing.pre blanks (parent ++ [i])
          (.element tag attributes children)]
      simp only [← renderPre_eq_shown options _ _ parent (i + 1) nodes]

theorem renderChoicesOf_eq_shown (options : Options) (blanks : Nat) (place : Place) :
    ∀ node : Node, renderChoicesOf options blanks node =
      Layout.shown options blanks (layoutChoicesOf place node)
  | .text _ => rfl
  | .comment _ => rfl
  | .element tag attributes children => by
    simp only [renderChoicesOf, layoutChoicesOf]
    split
    · rw [← List.singleton_append, shown_append, shown_box,
        ← renderNodes_eq_shown options Spacing.root blanks place 0 children]
      simp only [← renderChoices_eq_shown options _ place 0 children]
      rfl
    · exact renderChoices_eq_shown options blanks place 0 children

theorem renderChoices_eq_shown (options : Options) (blanks : Nat) (parent : Place) (i : Nat) :
    ∀ nodes : List Node, renderChoices options blanks nodes =
      Layout.shown options blanks (layoutChoices parent i nodes)
  | [] => rfl
  | node :: nodes => by
    simp only [renderChoices, layoutChoices, shown_append,
      renderChoicesOf_eq_shown options blanks (parent ++ [i]) node,
      renderChoices_eq_shown options _ parent (i + 1) nodes]

end

end Assessment.Scoring
