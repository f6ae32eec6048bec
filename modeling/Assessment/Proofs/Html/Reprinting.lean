import Assessment.Proofs.Html.LastingNodes

/-!
# Proofs: reading printed nodes again

Nodes that last are printed as a text that is read as nodes with the same elements, in the same order and
with the same attributes (`exists_parse_serialize`), as long as no marked section holds a bracket: such a
section would be printed as an instruction that ends there. What a document has outside of its body is not
printed.
-/

namespace Assessment.Html

open Assessment.Markup Assessment.Text

/-! ## Marked sections -/

namespace Node

mutual

/-- What is neither text nor an element, at and below the node. -/
def specials : Node → List (Special × List Char)
  | .text _ => []
  | .special kind s => [(kind, s)]
  | .element _ _ children => specialsOf children

/-- What is neither text nor an element, among some nodes and below them. -/
def specialsOf : List Node → List (Special × List Char)
  | [] => []
  | node :: nodes => specials node ++ specialsOf nodes

end

/-- No marked section holds a bracket, character data apart. -/
def PlainSections (nodes : List Node) : Prop :=
  ∀ e ∈ specialsOf nodes, e.1 = .declaration → '>' ∉ e.2

instance (nodes : List Node) : Decidable (PlainSections nodes) :=
  inferInstanceAs (Decidable (∀ e ∈ specialsOf nodes, e.1 = .declaration → '>' ∉ e.2))

end Node

open Node

/-! ## Printing -/

/-- An element as it is read again. -/
def reread (element : List Char × Attributes) : List Char × Attributes :=
  (element.1, elementAttributes element.1 (sortAttributes element.2))

theorem RawContent.exists_text {name : List Char} {children : List Node} (h : RawContent name children) :
    ∃ text, StaysText name text [] ∧ writeAll true children = text ∧ elementsOf children = [] := by
  match children, h with
  | [], _ => exact ⟨[], staysText_nil name [], rfl, rfl⟩
  | [.text s], h => exact ⟨s, h, List.append_nil s, rfl⟩

/-- An element of which the text is no markup is read again. -/
theorem lexes_raw {name text : List Char} {attributes : Attributes} (hraw : isRaw name = true)
    (htag : LastingTag name attributes) (htext : StaysText name text []) :
    Lexes ('<' :: name ++ writeAttributes attributes ++ ['>'] ++ text ++ "</".toList ++ name ++ ['>'])
      [.startTag name (sortAttributes attributes) false, .text text, .endTag name] := by
  intro b rest
  have hstart : Step.next false none ('<' :: (name ++ (writeAttributes attributes ++ ['>'])) ++
      (text ++ ("</".toList ++ name ++ ['>'] ++ rest))) =
        .read (.startTag name (sortAttributes attributes) false)
          (text ++ ("</".toList ++ name ++ ['>'] ++ rest)) := htag.readAs false _
  have hopen := @readFrom_of_read none b _ _ _ hstart
  have hafter : (Token.startTag name (sortAttributes attributes) false).rawAfter none = some name :=
    if_pos hraw
  have hend : EndsRaw name ("</".toList ++ name ++ ['>']) := ⟨hraw, name, rfl, htag.name.lower⟩
  rw [hafter, htext.readFrom hraw hend] at hopen
  show readFrom none b _ = readFrom none _ rest
  simpa using hopen

/-- An element of which the text is markup is read again, with what it holds. -/
theorem exists_lexes_element {name inside : List Char} {attributes : Attributes}
    (hmarkup : isRaw name = false) (htag : LastingTag name attributes) {tokens : List Token}
    (hinside : Lexes inside tokens) :
    ∃ other, Lexes
      ('<' :: name ++ writeAttributes attributes ++ ['>'] ++ inside ++ "</".toList ++ name ++ ['>'])
      (.startTag name (sortAttributes attributes) false :: tokens ++ [.endTag other]) := by
  obtain ⟨other, hend⟩ := htag.name.readAs
  have hafter : (Token.startTag name (sortAttributes attributes) false).rawAfter none = none :=
    if_neg (ne_true_of_eq_false hmarkup)
  have hstart := (htag.readAs false).lexes hafter
  have hall := (hstart.append hinside).append (hend.lexes rfl)
  refine ⟨other, ?_⟩
  simpa [StartTag.closing] using hall

mutual

theorem exists_lexes_write : ∀ {node : Node}, Node.Lasting node →
    (∀ e ∈ specials node, e.1 = .declaration → '>' ∉ e.2) →
      ∃ tokens, Lexes (write false node) tokens ∧
        tokens.filterMap Token.opened? = (elements node).map reread
  | .text s, _, _ => ⟨_, lexes_escapeText s, rfl⟩
  | .special kind s, h, hsections => by
    have hlasting : LastingSpecial kind s := by
      by_cases hkind : kind = Special.declaration
      · obtain rfl := hkind
        exact hsections (.declaration, s) List.mem_cons_self rfl
      · exact h hkind
    exact hlasting.exists_lexes
  | .element name attributes children, h, hsections => by
    obtain ⟨htag, hvoid, hrawContent, hmarkup⟩ := h
    rw [write]
    split
    · next hempty =>
      obtain ⟨-, hnone⟩ := Bool.and_eq_true_iff.1 hempty
      obtain rfl := List.isEmpty_iff.1 hnone
      have hlexes := (htag.readAs true).lexes rfl
      refine ⟨[.startTag name (sortAttributes attributes) true], ?_, rfl⟩
      simpa [StartTag.closing] using hlexes
    · by_cases hraw : isRaw name = true
      · obtain ⟨text, htext, hwrite, hnone⟩ := (hrawContent hraw).exists_text
        refine ⟨[.startTag name (sortAttributes attributes) false, .text text, .endTag name], ?_, ?_⟩
        · rw [hraw, hwrite]
          exact lexes_raw hraw htag htext
        · rw [elements, hnone]
          rfl
      · obtain ⟨tokens, hinside, hopened⟩ := exists_lexes_writeAll
          (hmarkup (eq_false_of_ne_true hraw)) hsections
        obtain ⟨other, hlexes⟩ := exists_lexes_element (eq_false_of_ne_true hraw) htag hinside
        refine ⟨.startTag name (sortAttributes attributes) false :: tokens ++ [.endTag other], ?_, ?_⟩
        · rw [eq_false_of_ne_true hraw]
          exact hlexes
        · rw [List.filterMap_append, List.filterMap_cons, hopened, elements]
          simp [Token.opened?, reread]

/-- Printed nodes are read as tokens that open the same elements. -/
theorem exists_lexes_writeAll : ∀ {nodes : List Node}, LastingAll nodes → PlainSections nodes →
    ∃ tokens, Lexes (writeAll false nodes) tokens ∧
      tokens.filterMap Token.opened? = (elementsOf nodes).map reread
  | [], _, _ => ⟨[], .nil, rfl⟩
  | node :: nodes, h, hsections => by
    obtain ⟨tokens, hnode, hopened⟩ := exists_lexes_write h.1 fun e he =>
      hsections e (List.mem_append_left _ he)
    obtain ⟨more, hnodes, hmore⟩ := exists_lexes_writeAll h.2 fun e he =>
      hsections e (List.mem_append_right _ he)
    refine ⟨tokens ++ more, hnode.append hnodes, ?_⟩
    rw [List.filterMap_append, hopened, hmore, elementsOf, List.map_append]

end

/-! ## Fragments -/

theorem firstNamed?_text (name s : List Char) : firstNamed? name (.text s) = none := by
  rw [firstNamed?]
  simp

theorem firstNamed?_special (name : List Char) (kind : Special) (s : List Char) :
    firstNamed? name (.special kind s) = none := by
  rw [firstNamed?]
  simp

/-- The nodes of a fragment that are printed: what its body holds, if it has one. -/
def printedNodes (nodes : List Node) : List Node := (firstNamedOf? "body".toList nodes).getD nodes

theorem serialize_eq (nodes : List Node) : serialize nodes = writeAll false (printedNodes nodes) := by
  unfold serialize printedNodes
  split
  · next h => rw [h]; rfl
  · next h => rw [h]; rfl

mutual

theorem firstNamed?_spec {name : List Char} (hname : isRaw name = false) : ∀ {node : Node}
    {children : List Node}, firstNamed? name node = some children → Node.Lasting node →
      LastingAll children ∧ specialsOf children ⊆ specials node
  | .text s, _, h, _ => absurd h (by simp [firstNamed?_text])
  | .special kind s, _, h, _ => absurd h (by simp [firstNamed?_special])
  | .element tag attributes inside, children, h, hlasting => by
    obtain ⟨-, -, hrawContent, hmarkup⟩ := hlasting
    rw [firstNamed?] at h
    split at h
    · next htag =>
      cases h
      exact ⟨hmarkup (htag ▸ hname), List.Subset.refl _⟩
    · by_cases hraw : isRaw tag = true
      · have hnone : firstNamedOf? name inside = none := by
          match inside, hrawContent hraw with
          | [], _ => rfl
          | [.text s], _ => rfl
        rw [hnone] at h
        cases h
      · exact firstNamedOf?_spec hname h (hmarkup (eq_false_of_ne_true hraw))

/-- What an element holds that lasts lasts. -/
theorem firstNamedOf?_spec {name : List Char} (hname : isRaw name = false) : ∀ {nodes : List Node}
    {children : List Node}, firstNamedOf? name nodes = some children → LastingAll nodes →
      LastingAll children ∧ specialsOf children ⊆ specialsOf nodes
  | [], _, h, _ => by
    rw [firstNamedOf?] at h
    cases h
  | node :: nodes, children, h, hlasting => by
    rw [firstNamedOf?] at h
    rcases Option.or_eq_some_iff.1 h with h | ⟨-, h⟩
    · obtain ⟨hchildren, hsubset⟩ := firstNamed?_spec hname h hlasting.1
      exact ⟨hchildren, List.Subset.trans hsubset (List.subset_append_left _ _)⟩
    · obtain ⟨hchildren, hsubset⟩ := firstNamedOf?_spec hname h hlasting.2
      exact ⟨hchildren, List.Subset.trans hsubset (List.subset_append_right _ _)⟩

end

theorem lastingAll_printedNodes {nodes : List Node} (h : LastingAll nodes) :
    LastingAll (printedNodes nodes) ∧ specialsOf (printedNodes nodes) ⊆ specialsOf nodes := by
  unfold printedNodes
  cases hbody : firstNamedOf? "body".toList nodes with
  | none => exact ⟨h, List.Subset.refl _⟩
  | some children => exact firstNamedOf?_spec (by decide) hbody h

/-- A printed fragment is read as nodes with the elements that were printed. -/
theorem exists_parse_serialize {nodes : List Node} (h : LastingAll nodes) (hsections : PlainSections nodes) :
    ∃ others, parse (serialize nodes) = some others ∧
      elementsOf others = (elementsOf (printedNodes nodes)).map reread := by
  obtain ⟨hprinted, hsubset⟩ := lastingAll_printedNodes h
  obtain ⟨tokens, hlexes, hopened⟩ := exists_lexes_writeAll hprinted fun e he => hsections e (hsubset he)
  refine ⟨ofTokens tokens, ?_, ?_⟩
  · rw [serialize_eq, parse_of_lexes hlexes]
  · rw [elementsOf_ofTokens, hopened]

/-! ## Updated nodes -/

section Updating

variable {σ : Type} {f : σ → List Char → Attributes → Attributes × σ}

theorem rawContent_updateAll {name : List Char} {children : List Node} (h : RawContent name children)
    (known : σ) : RawContent name (updateAll f known children).1 := by
  match children, h with
  | [], _ => trivial
  | [.text s], h => exact h

mutual

theorem lasting_update
    (hf : ∀ known name attributes, LastingTag name attributes → LastingTag name (f known name attributes).1)
    (known : σ) : ∀ {node : Node}, Node.Lasting node → Node.Lasting (update f known node).1
  | .text s, _ => by
    rw [update]
    trivial
  | .special kind s, h => by
    rw [update]
    exact h
  | .element name attributes children, h => by
    obtain ⟨htag, hvoid, hraw, hmarkup⟩ := h
    rw [update]
    refine ⟨hf known name attributes htag, fun hname => ?_, fun hname => ?_, fun hname => ?_⟩
    · rw [hvoid hname, updateAll]
    · exact rawContent_updateAll (hraw hname) _
    · exact lastingAll_updateAll hf _ (hmarkup hname)

/-- Changing attributes keeps nodes lasting if it keeps tags lasting. -/
theorem lastingAll_updateAll
    (hf : ∀ known name attributes, LastingTag name attributes → LastingTag name (f known name attributes).1)
    (known : σ) : ∀ {nodes : List Node}, LastingAll nodes → LastingAll (updateAll f known nodes).1
  | [], _ => by
    rw [updateAll]
    trivial
  | node :: nodes, h => by
    rw [updateAll]
    exact ⟨lasting_update hf known h.1, lastingAll_updateAll hf _ h.2⟩

end

mutual

theorem specials_update (known : σ) : ∀ node : Node, specials (update f known node).1 = specials node
  | .text s => by rw [update]
  | .special kind s => by rw [update]
  | .element name attributes children => by
    rw [update, specials, specials, specialsOf_updateAll]

theorem specialsOf_updateAll (known : σ) : ∀ nodes : List Node,
    specialsOf (updateAll f known nodes).1 = specialsOf nodes
  | [] => by rw [updateAll]
  | node :: nodes => by
    rw [updateAll, specialsOf, specialsOf, specials_update, specialsOf_updateAll]

end

mutual

theorem firstNamed?_update (name : List Char) (known : σ) : ∀ node : Node,
    ∃ later, firstNamed? name (update f known node).1 =
      (firstNamed? name node).map fun children => (updateAll f later children).1
  | .text s => ⟨known, by rw [update, firstNamed?_text]; rfl⟩
  | .special kind s => ⟨known, by rw [update, firstNamed?_special]; rfl⟩
  | .element tag attributes children => by
    obtain ⟨later, hinside⟩ := firstNamedOf?_updateAll name (f known tag attributes).2 children
    rw [update, firstNamed?, firstNamed?]
    split
    · exact ⟨_, rfl⟩
    · exact ⟨later, hinside⟩

/-- The first element of a name holds what it held, with changed attributes. -/
theorem firstNamedOf?_updateAll (name : List Char) (known : σ) : ∀ nodes : List Node,
    ∃ later, firstNamedOf? name (updateAll f known nodes).1 =
      (firstNamedOf? name nodes).map fun children => (updateAll f later children).1
  | [] => ⟨known, by rw [updateAll, firstNamedOf?]; rfl⟩
  | node :: nodes => by
    obtain ⟨later, hfirst⟩ := firstNamed?_update name known node
    obtain ⟨last, hrest⟩ := firstNamedOf?_updateAll name (update f known node).2 nodes
    rw [updateAll, firstNamedOf?, firstNamedOf?, hfirst, hrest]
    cases firstNamed? name node with
    | none => exact ⟨last, rfl⟩
    | some children => exact ⟨later, rfl⟩

end

end Updating

/-! ## Elements of nodes that last -/

mutual

theorem lastingTag_of_mem_elements : ∀ {node : Node}, Node.Lasting node → ∀ e ∈ elements node,
    LastingTag e.1 e.2
  | .text s, _, e, he => by
    rw [elements] at he
    · cases he
    · simp
  | .special kind s, _, e, he => by
    rw [elements] at he
    · cases he
    · simp
  | .element name attributes children, h, e, he => by
    obtain ⟨htag, -, hraw, hmarkup⟩ := h
    rw [elements] at he
    rcases List.mem_cons.1 he with rfl | he
    · exact htag
    · by_cases hname : isRaw name = true
      · obtain ⟨-, -, -, hnone⟩ := (hraw hname).exists_text
        rw [hnone] at he
        cases he
      · exact lastingTag_of_mem_elementsOf (hmarkup (eq_false_of_ne_true hname)) e he

/-- The tags of nodes that last do so. -/
theorem lastingTag_of_mem_elementsOf : ∀ {nodes : List Node}, LastingAll nodes → ∀ e ∈ elementsOf nodes,
    LastingTag e.1 e.2
  | [], _, e, he => by
    rw [elementsOf] at he
    cases he
  | node :: nodes, h, e, he => by
    rw [elementsOf] at he
    rcases List.mem_append.1 he with he | he
    · exact lastingTag_of_mem_elements h.1 e he
    · exact lastingTag_of_mem_elementsOf h.2 e he

end

mutual

theorem elementsOf_sublist_of_firstNamed? {name : List Char} : ∀ {node : Node} {children : List Node},
    firstNamed? name node = some children → List.Sublist (elementsOf children) (elements node)
  | .text s, _, h => absurd h (by simp [firstNamed?_text])
  | .special kind s, _, h => absurd h (by simp [firstNamed?_special])
  | .element tag attributes inside, children, h => by
    rw [firstNamed?] at h
    rw [elements]
    split at h
    · cases h
      exact List.sublist_cons_self _ _
    · exact (elementsOf_sublist_of_firstNamedOf? h).cons _

/-- What an element holds comes in the order of the document. -/
theorem elementsOf_sublist_of_firstNamedOf? {name : List Char} : ∀ {nodes children : List Node},
    firstNamedOf? name nodes = some children → List.Sublist (elementsOf children) (elementsOf nodes)
  | [], _, h => by
    rw [firstNamedOf?] at h
    cases h
  | node :: nodes, children, h => by
    rw [firstNamedOf?] at h
    rw [elementsOf]
    rcases Option.or_eq_some_iff.1 h with h | ⟨-, h⟩
    · exact (elementsOf_sublist_of_firstNamed? h).trans (List.sublist_append_left _ _)
    · exact (elementsOf_sublist_of_firstNamedOf? h).trans (List.sublist_append_right _ _)

end

/-- What is printed comes in the order of the document. -/
theorem elementsOf_printedNodes_sublist (nodes : List Node) :
    List.Sublist (elementsOf (printedNodes nodes)) (elementsOf nodes) := by
  unfold printedNodes
  cases hbody : firstNamedOf? "body".toList nodes with
  | none => exact List.Sublist.refl _
  | some children => exact elementsOf_sublist_of_firstNamedOf? hbody

/-- Of nodes with changed attributes the same ones are printed. -/
theorem printedNodes_updateAll {σ : Type} (f : σ → List Char → Attributes → Attributes × σ) (known : σ)
    (nodes : List Node) :
    ∃ later, printedNodes (updateAll f known nodes).1 = (updateAll f later (printedNodes nodes)).1 := by
  obtain ⟨later, hbody⟩ := firstNamedOf?_updateAll "body".toList known nodes
  unfold printedNodes
  rw [hbody]
  cases firstNamedOf? "body".toList nodes with
  | none => exact ⟨known, rfl⟩
  | some children => exact ⟨later, rfl⟩

end Assessment.Html
