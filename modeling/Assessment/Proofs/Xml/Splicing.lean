import Assessment.Proofs.Xml.Locate
import Assessment.Xml.Namespace

/-!
# Proofs: replacing an element

Nodes in which one element gives way to other nodes, such as the nodes it holds or none at all. Pieces of
text that meet become one. `Spliced` says which element it is and inside which elements it lies. What is
found first in document order is found in the same place before and after
(`Spliced.find?_elementsOf`).
-/

namespace Assessment.Xml

/-! ## Joining nodes -/

@[simp] theorem contents_joinText (s : List Char) (nodes : List Node) :
    contents (joinText s nodes) = s ++ contents nodes := by
  fun_cases joinText s nodes with
  | case1 t nodes => simp [contents, Node.content]
  | case2 nodes _ hempty => simp [List.isEmpty_iff.1 hempty]
  | case3 nodes _ hsome => simp [contents, Node.content]

@[simp] theorem elementsOf_joinText (s : List Char) (nodes : List Node) :
    elementsOf (joinText s nodes) = elementsOf nodes := by
  fun_cases joinText s nodes with
  | case1 t nodes => rfl
  | case2 nodes _ hempty => rfl
  | case3 nodes _ hsome => rfl

/-- Nodes with a node put in front of them. -/
def prepend : Node → List Node → List Node
  | .text s, nodes => joinText s nodes
  | node, nodes => node :: nodes

@[simp] theorem contents_prepend (node : Node) (nodes : List Node) :
    contents (prepend node nodes) = node.content ++ contents nodes := by
  cases node with
  | text s => exact contents_joinText s nodes
  | comment s => rfl
  | element tag attributes children => rfl

@[simp] theorem elementsOf_prepend (node : Node) (nodes : List Node) :
    elementsOf (prepend node nodes) = node.elements ++ elementsOf nodes := by
  cases node with
  | text s => exact elementsOf_joinText s nodes
  | comment s => rfl
  | element tag attributes children => rfl

/-- Nodes with others put in front of them. -/
def joinNodes (before nodes : List Node) : List Node := before.foldr prepend nodes

@[simp] theorem contents_joinNodes (before nodes : List Node) :
    contents (joinNodes before nodes) = contents before ++ contents nodes := by
  induction before with
  | nil => rfl
  | cons node before ih =>
    rw [joinNodes, List.foldr_cons, contents_prepend, contents, List.append_assoc, ← ih, joinNodes]

@[simp] theorem elementsOf_joinNodes (before nodes : List Node) :
    elementsOf (joinNodes before nodes) = elementsOf before ++ elementsOf nodes := by
  induction before with
  | nil => rfl
  | cons node before ih =>
    rw [joinNodes, List.foldr_cons, elementsOf_prepend, elementsOf, List.append_assoc, ← ih, joinNodes]

/-! ## Replacing an element -/

/-- The second nodes are the first ones with the element `e` replaced by `inner`. `path` lists the
elements that `e` lies in, the outermost first. -/
inductive Spliced (e : Element) (inner : List Node) : List Element → List Node → List Node → Prop where
  /-- The element is the first of the nodes. -/
  | here (nodes : List Node) : Spliced e inner [] (e.toNode :: nodes) (joinNodes inner nodes)
  /-- The element lies in the first of the nodes. -/
  | inside {path : List Element} {tag : List Char} {attributes : Attributes}
      {children children' nodes : List Node} (h : Spliced e inner path children children') :
      Spliced e inner (⟨tag, attributes, children⟩ :: path)
        (.element tag attributes children :: nodes) (.element tag attributes children' :: nodes)
  /-- The element comes after the first of the nodes. -/
  | later {path : List Element} {node : Node} {nodes nodes' : List Node}
      (h : Spliced e inner path nodes nodes') :
      Spliced e inner path (node :: nodes) (prepend node nodes')

mutual

theorem exists_spliced_of_mem_elements {e : Element} (inner : List Node) : ∀ {node : Node},
    e ∈ node.elements → ∀ nodes, ∃ path nodes', Spliced e inner path (node :: nodes) nodes'
  | .text _, h, _ => absurd h List.not_mem_nil
  | .comment _, h, _ => absurd h List.not_mem_nil
  | .element tag attributes children, h, nodes => by
    rcases List.mem_cons.1 h with rfl | h
    · exact ⟨[], _, .here nodes⟩
    · obtain ⟨path, children', hinside⟩ := exists_spliced inner h
      exact ⟨_, _, .inside hinside⟩

/-- Every element below some nodes can be replaced, wherever it lies. -/
theorem exists_spliced {e : Element} (inner : List Node) : ∀ {nodes : List Node},
    e ∈ elementsOf nodes → ∃ path nodes', Spliced e inner path nodes nodes'
  | [], h => absurd h List.not_mem_nil
  | node :: nodes, h => by
    rcases List.mem_append.1 h with h | h
    · exact exists_spliced_of_mem_elements inner h nodes
    · obtain ⟨path, nodes', hlater⟩ := exists_spliced inner h
      exact ⟨path, _, .later hlater⟩

end

/-- What is asked of elements depends on their tags and attributes alone. -/
def OfTag (p : Element → Bool) : Prop :=
  ∀ tag attributes children children', p ⟨tag, attributes, children⟩ = p ⟨tag, attributes, children'⟩

/-- The second element is the first one, or what it becomes if the element that is replaced lies in it. -/
inductive SplicedIn (e : Element) (inner : List Node) (path : List Element) :
    Element → Element → Prop where
  /-- The element does not lie in it. -/
  | apart (d : Element) : SplicedIn e inner path d d
  /-- The element lies in it. -/
  | around (outer : List Element) {within : List Element} {tag : List Char} {attributes : Attributes}
      {children children' : List Node} (hpath : path = outer ++ ⟨tag, attributes, children⟩ :: within)
      (h : Spliced e inner within children children') :
      SplicedIn e inner path ⟨tag, attributes, children⟩ ⟨tag, attributes, children'⟩

section

variable {e : Element} {inner : List Node} {path : List Element} {nodes nodes' : List Node}
  {p : Element → Bool}

theorem SplicedIn.cons {d d' : Element} (h : SplicedIn e inner path d d') (a : Element) :
    SplicedIn e inner (a :: path) d d' := by
  cases h with
  | apart => exact .apart _
  | around outer hpath h => exact .around (a :: outer) (congrArg (a :: ·) hpath) h

theorem rel_splicedIn_self (found : Option Element) :
    Option.Rel (SplicedIn e inner path) found found := by
  cases found with
  | none => exact .none
  | some d => exact .some (.apart d)

namespace Spliced

/-- What is lost of the elements that something holds of is what is lost with the element. -/
theorem countP_elementsOf (h : Spliced e inner path nodes nodes') (hp : OfTag p) :
    (elementsOf nodes').countP p + e.toNode.elements.countP p =
      (elementsOf nodes).countP p + (elementsOf inner).countP p := by
  induction h with
  | here nodes =>
    simp only [elementsOf_joinNodes, elementsOf, List.countP_append]
    omega
  | @inside path tag attributes children children' nodes h ih =>
    simp only [elementsOf, Node.elements, List.cons_append, List.countP_cons, List.countP_append,
      hp tag attributes children' children]
    omega
  | later h ih =>
    simp only [elementsOf_prepend, elementsOf, List.countP_append]
    omega

/-- The text stays the same if the element had the text of what comes for it. -/
theorem contents_eq (h : Spliced e inner path nodes nodes') (htext : contents inner = e.content) :
    contents nodes' = contents nodes := by
  induction h with
  | here nodes =>
    rw [contents_joinNodes, htext]
    rfl
  | inside h ih => rw [contents, contents, Node.content, Node.content, ih]
  | later h ih => rw [contents_prepend, contents, ih]

/-- The elements that something holds of keep their texts if none are lost with the element and if it
lies in none of them or had the text of what comes for it. -/
theorem map_content_filter (h : Spliced e inner path nodes nodes') (hp : OfTag p)
    (hlost : ((elementsOf inner).filter p).map Element.content =
      (e.toNode.elements.filter p).map Element.content)
    (htext : contents inner = e.content ∨ ∀ d ∈ path, p d = false) :
    ((elementsOf nodes').filter p).map Element.content =
      ((elementsOf nodes).filter p).map Element.content := by
  induction h with
  | here nodes =>
    rw [elementsOf_joinNodes, elementsOf, List.filter_append, List.filter_append, List.map_append,
      List.map_append, hlost]
  | @inside path tag attributes children children' nodes h ih =>
    have hbelow := ih (htext.imp_right fun hnone d hd => hnone d (List.mem_cons_of_mem _ hd))
    rw [elementsOf, elementsOf, Node.elements, Node.elements, List.cons_append, List.cons_append]
    by_cases hhere : p ⟨tag, attributes, children⟩ = true
    · have hhere' : p ⟨tag, attributes, children'⟩ = true :=
        hp tag attributes children children' ▸ hhere
      have htext : contents inner = e.content := htext.resolve_right fun hnone =>
        Bool.false_ne_true ((hnone _ List.mem_cons_self).symm.trans hhere)
      have hsame : Element.content ⟨tag, attributes, children'⟩ =
          Element.content ⟨tag, attributes, children⟩ := h.contents_eq htext
      rw [List.filter_cons_of_pos hhere, List.filter_cons_of_pos hhere', List.map_cons, List.map_cons,
        hsame, List.filter_append, List.filter_append, List.map_append, List.map_append, hbelow]
    · have hhere' : ¬ p ⟨tag, attributes, children'⟩ = true :=
        hp tag attributes children children' ▸ hhere
      rw [List.filter_cons_of_neg hhere, List.filter_cons_of_neg hhere', List.filter_append,
        List.filter_append, List.map_append, List.map_append, hbelow]
  | later h ih =>
    rw [elementsOf_prepend, elementsOf, List.filter_append, List.filter_append, List.map_append,
      List.map_append, ih htext]

/-- The first element that something holds of is found in the same place, if one lies around the element
that is replaced or if that element and what comes for it have the same first one. -/
theorem find?_elementsOf (h : Spliced e inner path nodes nodes') (hp : OfTag p)
    (hfirst : (∃ d ∈ path, p d = true) ∨ (elementsOf inner).find? p = e.toNode.elements.find? p) :
    Option.Rel (SplicedIn e inner path) ((elementsOf nodes).find? p) ((elementsOf nodes').find? p) := by
  induction h with
  | here nodes =>
    obtain ⟨d, hd, -⟩ | hfirst := hfirst
    · exact absurd hd List.not_mem_nil
    · rw [elementsOf_joinNodes, elementsOf, List.find?_append, List.find?_append, hfirst]
      exact rel_splicedIn_self _
  | @inside path tag attributes children children' nodes h ih =>
    rw [elementsOf, elementsOf, Node.elements, Node.elements, List.cons_append, List.cons_append]
    by_cases hhere : p ⟨tag, attributes, children⟩ = true
    · rw [List.find?_cons_of_pos hhere,
        List.find?_cons_of_pos (hp tag attributes children children' ▸ hhere)]
      exact .some (.around [] rfl h)
    · have hhere' : ¬ p ⟨tag, attributes, children'⟩ = true :=
        hp tag attributes children children' ▸ hhere
      rw [List.find?_cons_of_neg hhere, List.find?_cons_of_neg hhere', List.find?_append,
        List.find?_append]
      have hinside := ih <| hfirst.imp_left fun ⟨d, hd, hpd⟩ => by
        rcases List.mem_cons.1 hd with rfl | hd
        · exact absurd hpd hhere
        · exact ⟨d, hd, hpd⟩
      generalize (elementsOf children).find? p = found at hinside
      generalize (elementsOf children').find? p = found' at hinside
      cases hinside with
      | none => exact rel_splicedIn_self _
      | some hfound => exact .some (hfound.cons _)
  | @later path node nodes nodes' h ih =>
    rw [elementsOf_prepend, elementsOf, List.find?_append, List.find?_append]
    cases node.elements.find? p with
    | none => exact ih hfirst
    | some d => exact .some (.apart d)

end Spliced

end

end Assessment.Xml
