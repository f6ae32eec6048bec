import Assessment.Proofs.Scoring.DocumentOrder
import Assessment.Proofs.Xml.Locate

/-!
# Proofs: elements are looked up in document order

The places of the elements below some nodes (`elementPlaces`) are increasing, which is document order,
and the element at each of them is the one that the nodes list there (`map_nodeAt?_elementPlaces`).
Looking up a name is choosing from these places, so nothing is found twice, nothing out of order, and
nothing is missed whatever namespaces are mixed (`locate_in_document_order`).
-/

namespace Assessment.Xml

open Assessment.Scoring

/-! ## The places of elements -/

mutual

/-- The places of a node, if it is an element, and of the elements below it, as seen from the node. -/
def Node.elementPlaces : Node → List Place
  | .element _ _ children => [] :: elementPlaces 0 children
  | _ => []

/-- The places of the elements among some siblings, the first of which is at position `i`, and below
them. -/
def elementPlaces (i : Nat) : List Node → List Place
  | [] => []
  | node :: nodes => node.elementPlaces.map (i :: ·) ++ elementPlaces (i + 1) nodes

end

theorem elementPlaces_eq (i : Nat) (nodes : List Node) :
    elementPlaces i nodes = placesAmong Node.elementPlaces i nodes := by
  induction nodes generalizing i with
  | nil => rw [elementPlaces, placesAmong]
  | cons node nodes ih => rw [elementPlaces, placesAmong, ih]

theorem ne_nil_of_mem_elementPlaces {i : Nat} {nodes : List Node} {place : Place}
    (h : place ∈ elementPlaces i nodes) : place ≠ [] := by
  rw [elementPlaces_eq, mem_placesAmong] at h
  obtain ⟨k, node, rest, -, -, rfl⟩ := h
  exact List.cons_ne_nil _ _

mutual

theorem pairwise_node_elementPlaces : ∀ node : Node, node.elementPlaces.Pairwise (· < ·)
  | .text _ => by
    rw [Node.elementPlaces]
    · exact .nil
    · simp
  | .comment _ => by
    rw [Node.elementPlaces]
    · exact .nil
    · simp
  | .element _ _ children => by
    rw [Node.elementPlaces, List.pairwise_cons]
    refine ⟨fun place hplace => ?_, ?_⟩
    · -- An element comes before all that it holds.
      obtain ⟨k, rest, rfl⟩ := List.exists_cons_of_ne_nil (ne_nil_of_mem_elementPlaces hplace)
      exact List.nil_lt_cons k rest
    · rw [elementPlaces_eq]
      exact pairwise_placesAmong (forall_pairwise_node_elementPlaces children)

theorem forall_pairwise_node_elementPlaces : ∀ nodes : List Node,
    ∀ node ∈ nodes, node.elementPlaces.Pairwise (· < ·)
  | [] => fun _ hnode => absurd hnode List.not_mem_nil
  | first :: nodes => List.forall_mem_cons.2
      ⟨pairwise_node_elementPlaces first, forall_pairwise_node_elementPlaces nodes⟩

end

/-- Elements are listed in document order, each at one place. -/
theorem pairwise_elementPlaces (nodes : List Node) : (elementPlaces 0 nodes).Pairwise (· < ·) := by
  rw [elementPlaces_eq]
  exact pairwise_placesAmong (forall_pairwise_node_elementPlaces nodes)

/-! ## What stands at these places -/

/-- A place that goes on below an element is a place below its children. -/
theorem nodeAt?_cons_cons {nodes children : List Node} {tag : List Char} {attributes : Attributes}
    {k : Nat} (h : nodes[k]? = some (.element tag attributes children)) (j : Nat) (rest : Place) :
    nodeAt? nodes (k :: j :: rest) = nodeAt? children (j :: rest) := by
  rw [nodeAt?, h]
  simp

mutual

theorem map_nodeAt?_node_elementPlaces {all : List Node} {k : Nat} : ∀ {node : Node},
    all[k]? = some node →
      node.elementPlaces.map (fun place => nodeAt? all (k :: place)) =
        node.elements.map fun e => some e.toNode
  | .text _, _ => by simp [Node.elementPlaces, Node.elements]
  | .comment _, _ => by simp [Node.elementPlaces, Node.elements]
  | .element tag attributes children, h => by
    rw [Node.elementPlaces, Node.elements, List.map_cons, List.map_cons]
    congr 1
    rw [← map_nodeAt?_elementPlaces 0 (fun k => by rw [Nat.zero_add])]
    refine List.map_congr_left fun place hplace => ?_
    obtain ⟨j, rest, rfl⟩ := List.exists_cons_of_ne_nil (ne_nil_of_mem_elementPlaces hplace)
    exact nodeAt?_cons_cons h j rest

/-- At the places of the elements below some nodes stand the elements that the nodes list. -/
theorem map_nodeAt?_elementPlaces {all : List Node} (i : Nat) : ∀ {nodes : List Node},
    (∀ k, all[i + k]? = nodes[k]?) →
      (elementPlaces i nodes).map (nodeAt? all) = (elementsOf nodes).map fun e => some e.toNode
  | [], _ => by rw [elementPlaces, elementsOf, List.map_nil, List.map_nil]
  | node :: nodes, h => by
    have hnode := @map_nodeAt?_node_elementPlaces all i node (h 0)
    have hnodes := @map_nodeAt?_elementPlaces all (i + 1) nodes fun k => by
      rw [Nat.add_right_comm, Nat.add_assoc]
      exact h (k + 1)
    rw [elementPlaces, elementsOf, List.map_append, List.map_append, List.map_map, ← hnodes, ← hnode]
    rfl

end

theorem cons_mem_elementPlaces {nodes : List Node} {k : Nat} {place : Place} :
    k :: place ∈ elementPlaces 0 nodes ↔ ∃ node, nodes[k]? = some node ∧ place ∈ node.elementPlaces := by
  rw [elementPlaces_eq, mem_placesAmong]
  constructor
  · rintro ⟨j, node, rest, hnode, hrest, heq⟩
    rw [Nat.zero_add] at heq
    obtain ⟨rfl, rfl⟩ := List.cons.inj heq
    exact ⟨node, hnode, hrest⟩
  · rintro ⟨node, hnode, hplace⟩
    exact ⟨k, node, place, hnode, hplace, by rw [Nat.zero_add]⟩

/-- The places computed are those of all elements below some nodes. -/
theorem mem_elementPlaces_iff {nodes : List Node} {place : Place} :
    place ∈ elementPlaces 0 nodes ↔
      ∃ tag attributes children, nodeAt? nodes place = some (.element tag attributes children) := by
  induction place generalizing nodes with
  | nil => simp [nodeAt?, elementPlaces_eq, mem_placesAmong]
  | cons k place ih =>
    rw [cons_mem_elementPlaces]
    constructor
    · rintro ⟨node, hnode, hplace⟩
      cases node with
      | text s => simp [Node.elementPlaces] at hplace
      | comment s => simp [Node.elementPlaces] at hplace
      | element tag attributes children =>
        rw [Node.elementPlaces] at hplace
        rcases List.mem_cons.1 hplace with rfl | hbelow
        · exact ⟨tag, attributes, children, hnode⟩
        · obtain ⟨j, rest, rfl⟩ := List.exists_cons_of_ne_nil (ne_nil_of_mem_elementPlaces hbelow)
          rw [nodeAt?_cons_cons hnode]
          exact ih.1 hbelow
    · rintro ⟨tag, attributes, children, helement⟩
      cases place with
      | nil => exact ⟨_, helement, by rw [Node.elementPlaces]; exact List.mem_cons_self⟩
      | cons j rest =>
        rw [nodeAt?] at helement
        · split at helement
          · next hnode =>
            refine ⟨_, hnode, ?_⟩
            rw [Node.elementPlaces]
            exact List.mem_cons_of_mem _ (ih.2 ⟨tag, attributes, children, helement⟩)
          · cases helement
        · simp

/-! ## Looking up -/

/-- The places of the elements below some nodes with the given local name. -/
def namedPlaces (name : List Char) (nodes : List Node) : List Place :=
  (elementPlaces 0 nodes).filter fun place => (nodeAt? nodes place).any (·.isElement name)

theorem mem_namedPlaces_iff {name : List Char} {nodes : List Node} {place : Place} :
    place ∈ namedPlaces name nodes ↔ ∃ tag attributes children,
      nodeAt? nodes place = some (.element tag attributes children) ∧ localName tag = name := by
  rw [namedPlaces, List.mem_filter, mem_elementPlaces_iff]
  constructor
  · rintro ⟨⟨tag, attributes, children, helement⟩, hname⟩
    rw [helement] at hname
    exact ⟨tag, attributes, children, helement, eq_of_beq hname⟩
  · rintro ⟨tag, attributes, children, helement, hname⟩
    refine ⟨⟨tag, attributes, children, helement⟩, ?_⟩
    rw [helement]
    exact beq_iff_eq.2 hname

/-- At these places stand the elements of that name that the nodes list. -/
theorem map_nodeAt?_namedPlaces (name : List Char) (nodes : List Node) :
    (namedPlaces name nodes).map (nodeAt? nodes) =
      ((elementsOf nodes).filter fun e => e.name == name).map fun e => some e.toNode := by
  have hall : (elementPlaces 0 nodes).map (nodeAt? nodes) =
      (elementsOf nodes).map fun e => some e.toNode :=
    map_nodeAt?_elementPlaces 0 fun k => by rw [Nat.zero_add]
  calc (namedPlaces name nodes).map (nodeAt? nodes)
      = ((elementPlaces 0 nodes).map (nodeAt? nodes)).filter (·.any (·.isElement name)) := by
        rw [List.filter_map]
        rfl
    _ = ((elementsOf nodes).map fun e => some e.toNode).filter (·.any (·.isElement name)) := by
        rw [hall]
    _ = ((elementsOf nodes).filter fun e => e.name == name).map fun e => some e.toNode := by
        rw [List.filter_map]
        rfl

/-- Looking up a name finds the elements below with that local name, the name by which elements are told
apart everywhere else: each of them once and in document order, for their places are increasing. They
are all found by the look-up in every namespace, so the one without a namespace adds none. -/
theorem locate_in_document_order {name : List Char} (h : '}' ∉ name) (root : Element) :
    (root.locate name = root.descendants.filter fun e => isNamed name e.tag) ∧
      ∃ places : List Place,
        places.Pairwise (· < ·) ∧
          (∀ place, place ∈ places ↔ ∃ tag attributes children,
            nodeAt? root.children place = some (.element tag attributes children) ∧
              localName tag = name) ∧
          places.map (nodeAt? root.children) = (root.locate name).map fun e => some e.toNode := by
  refine ⟨Element.locate_eq name root, namedPlaces name root.children,
    (pairwise_elementPlaces root.children).filter _, fun place => mem_namedPlaces_iff, ?_⟩
  rw [map_nodeAt?_namedPlaces, Element.locate_eq_filter h, Element.descendants]

/-- Elements of one local name in two namespaces and in none, one of them inside another, with comments
between them. -/
def mixedNamespaces : Element :=
  ⟨"i".toList, [],
    [.comment "first".toList, .element "{a}p".toList [] [.text "x".toList, .element "p".toList [] []],
      .element "{b}q".toList [] [.comment "p".toList, .element "{b}p".toList [] []],
      .element "p".toList [] [.element "{a}pp".toList [] []]]⟩

theorem locate_in_document_order_mixedNamespaces :
    '}' ∉ "p".toList ∧
      (mixedNamespaces.locate "p".toList).map Element.tag =
        ["{a}p".toList, "p".toList, "{b}p".toList, "p".toList] ∧
      (mixedNamespaces.locate "p".toList =
        mixedNamespaces.descendants.filter fun e => isNamed "p".toList e.tag) ∧
      ∃ places : List Place,
        places.Pairwise (· < ·) ∧
          (∀ place, place ∈ places ↔ ∃ tag attributes children,
            nodeAt? mixedNamespaces.children place = some (.element tag attributes children) ∧
              localName tag = "p".toList) ∧
          places.map (nodeAt? mixedNamespaces.children) =
            (mixedNamespaces.locate "p".toList).map fun e => some e.toNode :=
  ⟨by decide, by decide, locate_in_document_order (by decide) mixedNamespaces⟩

end Assessment.Xml
