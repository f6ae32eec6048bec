import Assessment.Proofs.Scoring.Numbering

/-!
# Proofs: blanks are numbered in document order

Which blanks are shown is said by reachability (`Reached`), one step at a time: from a choice
interaction to what its choices hold, from elements that show nothing of what they hold nowhere, and
from any other element to its children. The places of the blanks that are reached are computed by
`blankPlaces`, and where no choice lies inside another they are increasing, so that each of them is
there once and the `k`-th in document order is the `k`-th that is rendered.
-/

namespace Assessment.Scoring

open Assessment.Item Assessment.Text Assessment.Xml

/-! ## Reachability -/

/-- The name of the elements that show the choices below them. -/
def interactionName : List Char := "qti-choice-interaction".toList

/-- The names of the elements that show nothing of what they hold. -/
def endNames : List (List Char) :=
  ["qti-rubric-block".toList, blankName, "qti-extended-text-interaction".toList, "qti-img".toList,
    "qti-hr".toList]

/-- The node at a place among some nodes and below them. -/
def nodeAt? (nodes : List Node) : Place → Option Node
  | [] => none
  | [i] => nodes[i]?
  | i :: place =>
    match nodes[i]? with
    | some (.element _ _ children) => nodeAt? children place
    | _ => none

/-- A node is reached at a place from some nodes. -/
inductive Reached (nodes : List Node) : Place → Node → Prop where
  /-- The nodes themselves are reached. -/
  | root {i : Nat} {node : Node} (h : nodes[i]? = some node) : Reached nodes [i] node
  /-- From most elements their children are reached. -/
  | child {place : Place} {tag : List Char} {attributes : Attributes} {children : List Node}
      {i : Nat} {node : Node} (h : Reached nodes place (.element tag attributes children))
      (hinteraction : localName tag ≠ interactionName) (hend : localName tag ∉ endNames)
      (hnode : children[i]? = some node) : Reached nodes (place ++ [i]) node
  /-- From a choice interaction the children of all choices below it are reached. -/
  | choice {place between : Place} {tag choiceTag : List Char}
      {attributes choiceAttributes : Attributes} {children inside : List Node} {i : Nat} {node : Node}
      (h : Reached nodes place (.element tag attributes children))
      (hinteraction : localName tag = interactionName)
      (hbelow : nodeAt? children between = some (.element choiceTag choiceAttributes inside))
      (hchoice : localName choiceTag = choiceName)
      (hnode : inside[i]? = some node) : Reached nodes (place ++ (between ++ [i])) node

/-- A blank is shown at a place. -/
def ShownBlank (nodes : List Node) (place : Place) : Prop :=
  ∃ node, Reached nodes place node ∧ node.isElement blankName

/-! ## The rules of the elements -/

namespace Rule

theorem ofName_eq_choices_iff {name : List Char} :
    ofName name = choices ↔ name = interactionName := by
  constructor
  · intro h
    have htable : ∀ entry ∈ table, entry.2 = choices → entry.1 = interactionName := by decide
    exact htable _ (mem_table_of_ofName h (by decide)) rfl
  · rintro rfl
    decide

theorem ofName_eq_blank_iff {name : List Char} : ofName name = blank ↔ name = blankName := by
  constructor
  · intro h
    have htable : ∀ entry ∈ table, entry.2 = blank → entry.1 = blankName := by decide
    exact htable _ (mem_table_of_ofName h (by decide)) rfl
  · rintro rfl
    decide

theorem goesOn_ofName_iff {name : List Char} :
    (ofName name).goesOn ↔ name ≠ interactionName ∧ name ∉ endNames := by
  constructor
  · intro h
    have hends : ∀ other ∈ interactionName :: endNames, (ofName other).goesOn = false := by decide
    have hnot : name ∉ interactionName :: endNames := by
      intro hmem
      rw [hends name hmem] at h
      cases h
    simpa using hnot
  · rintro ⟨hinteraction, hend⟩
    have htable : ∀ entry ∈ table, entry.2.goesOn = false →
        entry.1 ∈ interactionName :: endNames := by decide
    cases hgoes : (ofName name).goesOn with
    | true => rfl
    | false =>
      have hmem := htable _ (@mem_table_of_ofName name _ rfl (by
        intro htransparent
        rw [htransparent] at hgoes
        cases hgoes)) hgoes
      rcases List.mem_cons.1 hmem with h | h
      · exact absurd h hinteraction
      · exact absurd h hend

end Rule

open Layout

/-! ## Siblings -/

/-- Places below some siblings, the first of which is at position `i`, from the places below each. -/
def placesAmong (below : Node → List Place) (i : Nat) : List Node → List Place
  | [] => []
  | node :: nodes => (below node).map (i :: ·) ++ placesAmong below (i + 1) nodes

theorem blankPlaces_eq (i : Nat) (nodes : List Node) :
    blankPlaces i nodes = placesAmong blankPlacesOf i nodes := by
  induction nodes generalizing i with
  | nil => rw [blankPlaces, placesAmong]
  | cons node nodes ih => rw [blankPlaces, placesAmong, ih]

theorem choicePlaces_eq (i : Nat) (nodes : List Node) :
    choicePlaces i nodes = placesAmong choicePlacesOf i nodes := by
  induction nodes generalizing i with
  | nil => rw [choicePlaces, placesAmong]
  | cons node nodes ih => rw [choicePlaces, placesAmong, ih]

theorem mem_placesAmong {below : Node → List Place} {i : Nat} {nodes : List Node} {place : Place} :
    place ∈ placesAmong below i nodes ↔
      ∃ k node rest, nodes[k]? = some node ∧ rest ∈ below node ∧ place = (i + k) :: rest := by
  induction nodes generalizing i with
  | nil => simp [placesAmong]
  | cons node nodes ih =>
    rw [placesAmong, List.mem_append, ih]
    constructor
    · rintro (h | ⟨k, other, rest, hk, hrest, rfl⟩)
      · obtain ⟨rest, hrest, rfl⟩ := List.mem_map.1 h
        exact ⟨0, node, rest, rfl, hrest, rfl⟩
      · exact ⟨k + 1, other, rest, hk, hrest, by rw [Nat.add_right_comm, Nat.add_assoc]⟩
    · rintro ⟨k, other, rest, hk, hrest, rfl⟩
      cases k with
      | zero =>
        cases hk
        exact .inl (List.mem_map.2 ⟨rest, hrest, rfl⟩)
      | succ k => exact .inr ⟨k, other, rest, hk, hrest, by rw [Nat.add_right_comm, Nat.add_assoc]⟩

/-- Places below siblings are increasing if those below each of them are. -/
theorem pairwise_placesAmong {below : Node → List Place} {i : Nat} {nodes : List Node}
    (h : ∀ node ∈ nodes, (below node).Pairwise (· < ·)) :
    (placesAmong below i nodes).Pairwise (· < ·) := by
  induction nodes generalizing i with
  | nil => exact .nil
  | cons node nodes ih =>
    rw [placesAmong, List.pairwise_append]
    refine ⟨?_, ih fun other hother => h other (by simp [hother]), ?_⟩
    · rw [List.pairwise_map]
      exact (h node (by simp)).imp fun hlt => List.cons_lt_cons_iff.2 (.inr ⟨rfl, hlt⟩)
    · intro first hfirst second hsecond
      obtain ⟨rest, -, rfl⟩ := List.mem_map.1 hfirst
      obtain ⟨k, other, rest, -, -, rfl⟩ := mem_placesAmong.1 hsecond
      exact List.cons_lt_cons_iff.2 (.inl (by omega))

/-! ## Document order -/

/-- No choice lies inside another. -/
def ChoicesApart (nodes : List Node) : Prop :=
  ∀ e ∈ elementsOf nodes, e.name = choiceName → ∀ inner ∈ e.descendants, inner.name ≠ choiceName

instance (nodes : List Node) : Decidable (ChoicesApart nodes) :=
  inferInstanceAs (Decidable (∀ e ∈ elementsOf nodes, e.name = choiceName →
    ∀ inner ∈ e.descendants, inner.name ≠ choiceName))

theorem elementsOf_subset {node : Node} {nodes : List Node} (h : node ∈ nodes) :
    ∀ e ∈ node.elements, e ∈ elementsOf nodes := by
  intro e he
  induction nodes with
  | nil => cases h
  | cons first nodes ih =>
    rw [elementsOf, List.mem_append]
    rcases List.mem_cons.1 h with rfl | h
    · exact .inl he
    · exact .inr (ih h)

theorem ChoicesApart.of_mem {node : Node} {nodes : List Node} (h : ChoicesApart nodes)
    (hmem : node ∈ nodes) : ChoicesApart [node] := by
  intro e he
  refine h e (elementsOf_subset hmem e ?_)
  simpa [elementsOf] using he

theorem ChoicesApart.tail {node : Node} {nodes : List Node} (h : ChoicesApart (node :: nodes)) :
    ChoicesApart nodes := by
  intro e he
  refine h e ?_
  rw [elementsOf]
  exact List.mem_append_right _ he

theorem ChoicesApart.children {tag : List Char} {attributes : Attributes} {children : List Node}
    (h : ChoicesApart [.element tag attributes children]) : ChoicesApart children := by
  intro e he
  refine h e ?_
  simp only [elementsOf, Node.elements, List.append_nil]
  exact List.mem_cons_of_mem _ he

mutual

theorem choicePlacesOf_of_forall : ∀ {node : Node}, (∀ e ∈ node.elements, e.name ≠ choiceName) →
    choicePlacesOf node = []
  | .text _, _ => by
    rw [choicePlacesOf]
    simp
  | .comment _, _ => by
    rw [choicePlacesOf]
    simp
  | .element tag attributes children, h => by
    rw [Node.elements] at h
    have htag : ¬ (localName tag == choiceName) = true := by
      intro heq
      exact h ⟨tag, attributes, children⟩ (by simp) (eq_of_beq heq)
    rw [choicePlacesOf, if_neg htag, List.nil_append]
    exact choicePlaces_of_forall 0 fun e he => h e (by simp [he])

/-- Where there is no choice, no choice holds a blank. -/
theorem choicePlaces_of_forall (i : Nat) : ∀ {nodes : List Node},
    (∀ e ∈ elementsOf nodes, e.name ≠ choiceName) → choicePlaces i nodes = []
  | [], _ => by rw [choicePlaces]
  | node :: nodes, h => by
    rw [elementsOf] at h
    have hnode := @choicePlacesOf_of_forall node fun e he => h e (by simp [he])
    rw [choicePlaces, hnode, choicePlaces_of_forall (i + 1) fun e he => h e (by simp [he])]
    rfl

end

mutual

theorem pairwise_blankPlacesOf : ∀ {node : Node}, ChoicesApart [node] →
    (blankPlacesOf node).Pairwise (· < ·)
  | .text _, _ => by
    rw [blankPlacesOf]
    · exact .nil
    · simp
  | .comment _, _ => by
    rw [blankPlacesOf]
    · exact .nil
    · simp
  | .element tag attributes children, h => by
    rw [blankPlacesOf]
    split
    · exact List.pairwise_singleton _ _
    · rw [choicePlaces_eq]
      exact pairwise_placesAmong (forall_pairwise_choicePlacesOf h.children)
    · split
      · rw [blankPlaces_eq]
        exact pairwise_placesAmong (forall_pairwise_blankPlacesOf h.children)
      · exact .nil

theorem forall_pairwise_blankPlacesOf : ∀ {nodes : List Node}, ChoicesApart nodes →
    ∀ node ∈ nodes, (blankPlacesOf node).Pairwise (· < ·)
  | [], _ => by
    intro node hnode
    cases hnode
  | first :: nodes, h => by
    have hfirst := @pairwise_blankPlacesOf first (h.of_mem (by simp))
    exact List.forall_mem_cons.2 ⟨hfirst, forall_pairwise_blankPlacesOf h.tail⟩

theorem pairwise_choicePlacesOf : ∀ {node : Node}, ChoicesApart [node] →
    (choicePlacesOf node).Pairwise (· < ·)
  | .text _, _ => by
    rw [choicePlacesOf]
    · exact .nil
    · simp
  | .comment _, _ => by
    rw [choicePlacesOf]
    · exact .nil
    · simp
  | .element tag attributes children, h => by
    rw [choicePlacesOf]
    split
    · next hchoice =>
      have hnone : choicePlaces 0 children = [] := choicePlaces_of_forall 0 fun inner hinner =>
        h ⟨tag, attributes, children⟩ (by simp [elementsOf, Node.elements])
          (eq_of_beq hchoice) inner hinner
      rw [hnone, List.append_nil, blankPlaces_eq]
      exact pairwise_placesAmong (forall_pairwise_blankPlacesOf h.children)
    · rw [List.nil_append, choicePlaces_eq]
      exact pairwise_placesAmong (forall_pairwise_choicePlacesOf h.children)

theorem forall_pairwise_choicePlacesOf : ∀ {nodes : List Node}, ChoicesApart nodes →
    ∀ node ∈ nodes, (choicePlacesOf node).Pairwise (· < ·)
  | [], _ => by
    intro node hnode
    cases hnode
  | first :: nodes, h => by
    have hfirst := @pairwise_choicePlacesOf first (h.of_mem (by simp))
    exact List.forall_mem_cons.2 ⟨hfirst, forall_pairwise_choicePlacesOf h.tail⟩

end

/-- Where no choice lies inside another, the places of the blanks are increasing. -/
theorem pairwise_blankPlaces {nodes : List Node} (h : ChoicesApart nodes) :
    (blankPlaces 0 nodes).Pairwise (· < ·) := by
  rw [blankPlaces_eq]
  exact pairwise_placesAmong (forall_pairwise_blankPlacesOf h)

/-! ## The blanks that are reached -/

theorem mem_blankPlaces {i : Nat} {nodes : List Node} {place : Place} :
    place ∈ blankPlaces i nodes ↔
      ∃ k node rest, nodes[k]? = some node ∧ rest ∈ blankPlacesOf node ∧ place = (i + k) :: rest := by
  rw [blankPlaces_eq, mem_placesAmong]

theorem mem_choicePlaces {i : Nat} {nodes : List Node} {place : Place} :
    place ∈ choicePlaces i nodes ↔
      ∃ k node rest, nodes[k]? = some node ∧ rest ∈ choicePlacesOf node ∧
        place = (i + k) :: rest := by
  rw [choicePlaces_eq, mem_placesAmong]

/-- The blanks shown of a child of a choice are among those of the choices below an element. -/
theorem mem_choicePlaces_of_nodeAt? {children inside : List Node} {between rest : Place}
    {tag : List Char} {attributes : Attributes} {i : Nat} {node : Node}
    (hbelow : nodeAt? children between = some (.element tag attributes inside))
    (hchoice : localName tag = choiceName) (hnode : inside[i]? = some node)
    (hrest : rest ∈ blankPlacesOf node) : between ++ [i] ++ rest ∈ choicePlaces 0 children := by
  induction between generalizing children with
  | nil => cases hbelow
  | cons k between ih =>
    have hstep : ∃ outerTag outerAttributes outer,
        children[k]? = some (.element outerTag outerAttributes outer) ∧
          between ++ [i] ++ rest ∈ choicePlacesOf (.element outerTag outerAttributes outer) := by
      cases between with
      | nil =>
        refine ⟨tag, attributes, inside, hbelow, ?_⟩
        rw [choicePlacesOf, if_pos (by rw [hchoice]; exact beq_self_eq_true _)]
        refine List.mem_append_left _ (mem_blankPlaces.2 ⟨i, node, rest, hnode, hrest, ?_⟩)
        simp
      | cons j between =>
        unfold nodeAt? at hbelow
        split at hbelow
        · next outerTag outerAttributes outer houter =>
          refine ⟨outerTag, outerAttributes, outer, houter, ?_⟩
          rw [choicePlacesOf]
          exact List.mem_append_right _ (ih hbelow)
        · cases hbelow
    obtain ⟨outerTag, outerAttributes, outer, houter, hmem⟩ := hstep
    refine mem_choicePlaces.2 ⟨k, _, between ++ [i] ++ rest, houter, hmem, ?_⟩
    simp

/-- The blanks shown of a node that is reached are shown. -/
theorem mem_blankPlaces_of_reached {nodes : List Node} {place rest : Place} {node : Node}
    (h : Reached nodes place node) (hrest : rest ∈ blankPlacesOf node) :
    place ++ rest ∈ blankPlaces 0 nodes := by
  induction h generalizing rest with
  | root hnode => exact mem_blankPlaces.2 ⟨_, _, rest, hnode, hrest, by simp⟩
  | @child place tag attributes children i node _ hinteraction hend hnode ih =>
    have hmem : i :: rest ∈ blankPlacesOf (.element tag attributes children) := by
      have hgoes := Rule.goesOn_ofName_iff.2 ⟨hinteraction, hend⟩
      rw [blankPlacesOf]
      split
      · next hrule =>
        rw [hrule] at hgoes
        cases hgoes
      · next hrule =>
        rw [hrule] at hgoes
        cases hgoes
      · rw [if_pos hgoes]
        exact mem_blankPlaces.2 ⟨i, node, rest, hnode, hrest, by simp⟩
    simpa using ih hmem
  | @choice place between tag choiceTag attributes choiceAttributes children inside i node _
      hinteraction hbelow hchoice hnode ih =>
    have hmem : between ++ [i] ++ rest ∈ blankPlacesOf (.element tag attributes children) := by
      rw [blankPlacesOf, Rule.ofName_eq_choices_iff.2 hinteraction]
      exact mem_choicePlaces_of_nodeAt? hbelow hchoice hnode hrest
    simpa using ih hmem

/-- Below an element, places are looked up among its children. -/
theorem nodeAt?_append {nodes children : List Node} {place : Place} {tag : List Char}
    {attributes : Attributes} (h : nodeAt? nodes place = some (.element tag attributes children))
    {rest : Place} (hrest : rest ≠ []) : nodeAt? nodes (place ++ rest) = nodeAt? children rest := by
  obtain ⟨i, below, rfl⟩ := List.exists_cons_of_ne_nil hrest
  induction place generalizing nodes with
  | nil => cases h
  | cons k place ih =>
    cases place with
    | nil =>
      have hk : nodes[k]? = some (.element tag attributes children) := h
      simp [nodeAt?, hk]
    | cons j place =>
      simp only [nodeAt?, List.cons_append] at h ⊢
      split
      · next hk =>
        rw [hk] at h
        exact ih h
      · next hk =>
        split at h
        · next hk' => exact absurd hk' (hk _ _ _)
        · cases h

/-- A node that is reached at a place stands there. -/
theorem nodeAt?_of_reached {nodes : List Node} {place : Place} {node : Node}
    (h : Reached nodes place node) : nodeAt? nodes place = some node := by
  induction h with
  | root hnode => exact hnode
  | child _ _ _ hnode ih =>
    rw [nodeAt?_append ih (by simp)]
    exact hnode
  | choice _ _ hbelow _ hnode ih =>
    rw [nodeAt?_append ih (by simp), nodeAt?_append hbelow (by simp)]
    exact hnode

mutual

theorem shownBlank_of_mem_blankPlacesOf {nodes : List Node} {place : Place} :
    ∀ {node : Node}, Reached nodes place node →
      ∀ rest ∈ blankPlacesOf node, ShownBlank nodes (place ++ rest)
  | .text _, _ => by simp [blankPlacesOf]
  | .comment _, _ => by simp [blankPlacesOf]
  | .element tag attributes children, h => by
    intro rest hrest
    rw [blankPlacesOf] at hrest
    split at hrest
    · next hrule =>
      rw [List.mem_singleton.1 hrest, List.append_nil]
      refine ⟨_, h, ?_⟩
      rw [Node.isElement, Rule.ofName_eq_blank_iff.1 hrule]
      exact beq_self_eq_true _
    · next hrule =>
      exact @shownBlank_of_mem_choicePlaces _ children _ [] _ _ 0 _ h
        (Rule.ofName_eq_choices_iff.1 hrule) (fun k node hk => by simpa [nodeAt?] using hk) rest hrest
    · split at hrest
      · next hgoes =>
        obtain ⟨hinteraction, hend⟩ := Rule.goesOn_ofName_iff.1 hgoes
        exact shownBlank_of_mem_blankPlaces 0
          (fun k node hk => by simpa using h.child hinteraction hend hk) rest hrest
      · cases hrest

/-- Where nodes are reached, the blanks shown of them are reached. -/
theorem shownBlank_of_mem_blankPlaces {nodes : List Node} {place : Place} (i : Nat) :
    ∀ {siblings : List Node},
      (∀ k node, siblings[k]? = some node → Reached nodes (place ++ [i + k]) node) →
        ∀ rest ∈ blankPlaces i siblings, ShownBlank nodes (place ++ rest)
  | [], _ => by simp [blankPlaces]
  | first :: siblings, h => by
    intro rest hrest
    have hfirst := shownBlank_of_mem_blankPlacesOf (h 0 first rfl)
    have hothers := @shownBlank_of_mem_blankPlaces nodes place (i + 1) siblings
      fun k node hk => by
        have hnode := h (k + 1) node hk
        rwa [show i + (k + 1) = i + 1 + k by omega] at hnode
    rw [blankPlaces] at hrest
    rcases List.mem_append.1 hrest with hrest | hrest
    · obtain ⟨below, hbelow, rfl⟩ := List.mem_map.1 hrest
      simpa using hfirst below hbelow
    · exact hothers rest hrest

theorem shownBlank_of_mem_choicePlacesOf {nodes top : List Node} {place between : Place}
    {tag : List Char} {attributes : Attributes} :
    ∀ {node : Node}, Reached nodes place (.element tag attributes top) →
      localName tag = interactionName → nodeAt? top between = some node →
        ∀ rest ∈ choicePlacesOf node, ShownBlank nodes (place ++ (between ++ rest))
  | .text _, _, _, _ => by simp [choicePlacesOf]
  | .comment _, _, _, _ => by simp [choicePlacesOf]
  | .element choiceTag choiceAttributes children, h, hinteraction, hnode => by
    intro rest hrest
    rw [choicePlacesOf] at hrest
    rcases List.mem_append.1 hrest with hrest | hrest
    · split at hrest
      · next hchoice =>
        have hshown := @shownBlank_of_mem_blankPlaces nodes (place ++ between) 0 children
          (fun k node hk => by
            simpa using h.choice hinteraction hnode (eq_of_beq hchoice) hk) rest hrest
        simpa using hshown
      · cases hrest
    · exact shownBlank_of_mem_choicePlaces 0 h hinteraction
        (fun k node hk => by rw [Nat.zero_add, nodeAt?_append hnode (by simp)]; exact hk) rest hrest

theorem shownBlank_of_mem_choicePlaces {nodes top : List Node} {place between : Place}
    {tag : List Char} {attributes : Attributes} (i : Nat) :
    ∀ {siblings : List Node}, Reached nodes place (.element tag attributes top) →
      localName tag = interactionName →
        (∀ k node, siblings[k]? = some node → nodeAt? top (between ++ [i + k]) = some node) →
          ∀ rest ∈ choicePlaces i siblings, ShownBlank nodes (place ++ (between ++ rest))
  | [], _, _, _ => by simp [choicePlaces]
  | first :: siblings, h, hinteraction, hnodes => by
    intro rest hrest
    have hfirst := shownBlank_of_mem_choicePlacesOf h hinteraction (hnodes 0 first rfl)
    have hothers := @shownBlank_of_mem_choicePlaces _ _ _ between _ _ (i + 1) siblings h
      hinteraction fun k node hk => by
        have hnode := hnodes (k + 1) node hk
        rwa [show i + (k + 1) = i + 1 + k by omega] at hnode
    rw [choicePlaces] at hrest
    rcases List.mem_append.1 hrest with hrest | hrest
    · obtain ⟨below, hbelow, rfl⟩ := List.mem_map.1 hrest
      simpa using hfirst below hbelow
    · exact hothers rest hrest

end

/-- The places computed are those of the blanks that are shown. -/
theorem mem_blankPlaces_iff {nodes : List Node} {place : Place} :
    place ∈ blankPlaces 0 nodes ↔ ShownBlank nodes place := by
  constructor
  · intro h
    exact @shownBlank_of_mem_blankPlaces _ [] 0 _
      (fun k node hk => by simpa using Reached.root hk) place h
  · rintro ⟨node, hreached, hblank⟩
    cases node with
    | text s => cases hblank
    | comment s => cases hblank
    | element tag attributes children =>
      have hname : localName tag = blankName := eq_of_beq hblank
      have hself : [] ∈ blankPlacesOf (.element tag attributes children) := by
        rw [blankPlacesOf, Rule.ofName_eq_blank_iff.2 hname]
        exact List.mem_singleton_self _
      simpa using mem_blankPlaces_of_reached hreached hself

/-! ## Rendering without a counter -/

/-- Nodes as HTML, with the number of each blank looked up by its place. -/
def renderLabelled (options : Options) (label : Place → Nat) (nodes : List Node) : List Char :=
  writeAll options (fillAll label (layoutNodes Spacing.root [] 0 nodes))

theorem map_idxOf_add_one {places : List Place} (h : places.Nodup) :
    places.map (places.idxOf · + 1) = List.range' 1 places.length := by
  refine List.ext_getElem (by simp) fun k hk _ => ?_
  rw [List.getElem_map, h.idxOf_getElem, List.getElem_range']
  omega

/-- The blanks of an item body in which no choice lies inside another are rendered once each, and
numbered in document order: the body is rendered as without a counter after the blanks that are shown
have been labelled with their positions in that order. -/
theorem renderNodes_in_document_order (options : Options) (body : Element)
    (h : ChoicesApart body.children) :
    ∃ places : List Place,
      (∀ place, place ∈ places ↔ ShownBlank body.children place) ∧
        places.Pairwise (· < ·) ∧
        holesAll (layoutNodes Spacing.root [] 0 body.children) = places ∧
        handedNodes options Spacing.root 0 body.children = List.range' 1 places.length ∧
        renderNodes options Spacing.root 0 body.children =
          ⟨renderLabelled options (places.idxOf · + 1) body.children, places.length⟩ := by
  have hplaces : holesAll (layoutNodes Spacing.root [] 0 body.children) =
      blankPlaces 0 body.children := by
    simpa using holes_layoutNodes_eq Spacing.root [] 0 body.children
  have hsorted := pairwise_blankPlaces h
  have hnodup : (blankPlaces 0 body.children).Nodup := hsorted.imp fun hlt => by
    rintro rfl
    exact absurd hlt (List.lt_irrefl _)
  refine ⟨_, fun place => mem_blankPlaces_iff, hsorted, hplaces, ?_, ?_⟩
  · rw [handedNodes_eq_range', blanksIn, hplaces]
  · have hlabels : (holesAll (layoutNodes Spacing.root [] 0 body.children)).map
        ((blankPlaces 0 body.children).idxOf · + 1) =
          List.range' (0 + 1) (holesAll (layoutNodes Spacing.root [] 0 body.children)).length := by
      rw [hplaces]
      exact map_idxOf_add_one hnodup
    rw [renderNodes_eq_shown options Spacing.root 0 [] 0, Layout.shown, numberAll_eq_fillAll hlabels,
      hplaces, Nat.zero_add, renderLabelled]

/-- A paragraph with a blank, and a choice interaction with a blank in each of two choices. -/
def blanksInChoices : Element :=
  let blank : Node := .element blankName [] []
  let choice : Node := .element choiceName [] [.text "or ".toList, blank]
  ⟨"qti-item-body".toList, [],
    [.element "qti-p".toList [] [.text "Fill in ".toList, blank],
      .element interactionName [] [choice, choice]]⟩

theorem renderNodes_blanksInChoices :
    ChoicesApart blanksInChoices.children ∧
      ∃ places : List Place,
        (∀ place, place ∈ places ↔ ShownBlank blanksInChoices.children place) ∧
          places.Pairwise (· < ·) ∧
          holesAll (layoutNodes Spacing.root [] 0 blanksInChoices.children) = places ∧
          handedNodes {} Spacing.root 0 blanksInChoices.children = List.range' 1 places.length ∧
          renderNodes {} Spacing.root 0 blanksInChoices.children =
            ⟨renderLabelled {} (places.idxOf · + 1) blanksInChoices.children, places.length⟩ :=
  ⟨by decide, renderNodes_in_document_order {} blanksInChoices (by decide)⟩

end Assessment.Scoring
