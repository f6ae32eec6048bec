import Assessment.Proofs.Html.Tags

/-!
# Proofs: building trees of HTML

The tokens of some nodes make these nodes again, up to their text (`ofTokens_tokensOf`): texts that are
neighbours become one, the empty ones vanish, and white space between tags is shortened. After that
nothing is left to join (`tight_joined`), and such nodes stay as they are (`joined_of_tight`).
-/

namespace Assessment.Html

open Assessment.Markup Assessment.Text

namespace Node

mutual

/-- The tokens of a node. -/
def tokens : Node → List Token
  | .text s => [.text s]
  | .special kind s => [.special kind s]
  | .element name attributes children =>
    if isVoid name then [.startTag name attributes true]
    else .startTag name attributes false :: tokensOf children ++ [.endTag name]

/-- The tokens of some nodes, one after the other. -/
def tokensOf : List Node → List Token
  | [] => []
  | node :: nodes => tokens node ++ tokensOf nodes

end

end Node

/-! ## Regular nodes -/

/-- A tag with plain names, distinct attributes and no need to change them. Its text is markup. -/
structure RegularTag (name : List Char) (attributes : Attributes) : Prop where
  /-- The name of the tag is plain. -/
  name_plain : isPlainName name
  /-- Text inside it is markup. -/
  not_raw : isRaw name = false
  /-- It is not the body of a document. -/
  not_body : name ≠ "body".toList
  /-- It says nothing of the document. -/
  not_meta : name ≠ "meta".toList
  /-- No attribute is there twice. -/
  distinct : (attributes.map (·.1)).Nodup
  /-- The names of the attributes are plain. -/
  plain : ∀ a ∈ attributes, isPlainName a.1
  /-- There is one space between the words of an attribute that holds several. -/
  words_spaced : ∀ a ∈ attributes, isWordAttribute name a.1 → spaced a.2 = a.2

namespace Node

mutual

/-- All tags of the node are regular, and void elements hold nothing. -/
def Regular : Node → Prop
  | .text _ => True
  | .special _ _ => False
  | .element name attributes children =>
    RegularTag name attributes ∧ (isVoid name → children = []) ∧ RegularAll children

/-- All tags of some nodes are regular. -/
def RegularAll : List Node → Prop
  | [] => True
  | node :: nodes => Regular node ∧ RegularAll nodes

end

end Node

open Node

theorem RegularTag.elementAttributes_eq {name : List Char} {attributes : Attributes}
    (h : RegularTag name attributes) : elementAttributes name attributes = attributes := by
  rw [elementAttributes, if_neg h.not_meta, spaceWords]
  have hspaced := h.words_spaced
  clear h
  induction attributes with
  | nil => rfl
  | cons a attributes ih =>
    obtain ⟨key, value⟩ := a
    rw [List.map_cons, ih fun b hb => hspaced b (by simp [hb])]
    by_cases hword : isWordAttribute name key
    · simp only [hword, if_true, hspaced (key, value) (by simp) hword]
    · simp only [if_neg hword]

/-! ## Joining text -/

/-- The node for some text that is waiting. `keep` says that white space counts. -/
def waiting (keep : Bool) (pending : List Char) : List Node :=
  if pending.isEmpty then [] else [.text (if keep then pending else shorten pending)]

/-- The nodes with neighbouring texts joined and white space between tags shortened. `pending` is the
text right before them, and `keep` says that white space counts. -/
def joined (keep : Bool) (pending : List Char) : List Node → List Node
  | [] => waiting keep pending
  | .text s :: nodes => joined keep (pending ++ s) nodes
  | .special kind s :: nodes =>
    waiting keep pending ++ .special kind (if keep then s else shorten s) :: joined keep [] nodes
  | .element name attributes children :: nodes =>
    waiting keep pending ++
      .element name attributes (joined (keep || spacedNames.contains name) [] children) ::
        joined keep [] nodes

namespace Builder

/-- Adds nodes to the innermost open element. -/
def addAll (nodes : List Node) (b : Builder) : Builder := nodes.foldl (fun b node => b.add node) b

@[simp] theorem addAll_nil (b : Builder) : b.addAll [] = b := rfl

theorem addAll_cons (node : Node) (nodes : List Node) (b : Builder) :
    b.addAll (node :: nodes) = (b.add node).addAll nodes := rfl

theorem addAll_append (nodes more : List Node) (b : Builder) :
    b.addAll (nodes ++ more) = (b.addAll nodes).addAll more :=
  List.foldl_append

@[simp] theorem pending_add (node : Node) (b : Builder) : (b.add node).pending = b.pending := by
  unfold add
  split <;> rfl

@[simp] theorem keepsSpace_add (node : Node) (b : Builder) :
    (b.add node).keepsSpace = b.keepsSpace := by
  unfold add
  split
  · rfl
  · next h => simp [keepsSpace, h]

@[simp] theorem pending_addAll (nodes : List Node) (b : Builder) :
    (b.addAll nodes).pending = b.pending := by
  induction nodes generalizing b with
  | nil => rfl
  | cons node nodes ih => rw [addAll_cons, ih, pending_add]

@[simp] theorem keepsSpace_addAll (nodes : List Node) (b : Builder) :
    (b.addAll nodes).keepsSpace = b.keepsSpace := by
  induction nodes generalizing b with
  | nil => rfl
  | cons node nodes ih => rw [addAll_cons, ih, keepsSpace_add]

/-- Nodes are added to the innermost open element, the last first. -/
theorem addAll_frame (nodes children : List Node) (pending name : List Char)
    (attributes : Attributes) (frames : List Frame) (top : List Node) :
    (⟨pending, ⟨name, attributes, children⟩ :: frames, top⟩ : Builder).addAll nodes =
      ⟨pending, ⟨name, attributes, nodes.reverse ++ children⟩ :: frames, top⟩ := by
  induction nodes generalizing children with
  | nil => rfl
  | cons node nodes ih =>
    rw [addAll_cons, List.reverse_cons, List.append_assoc, List.singleton_append, ← ih]
    rfl

/-- Outside of all elements nodes are added at the top, the last first. -/
theorem addAll_top (nodes : List Node) (pending : List Char) (top : List Node) :
    (⟨pending, [], top⟩ : Builder).addAll nodes = ⟨pending, [], nodes.reverse ++ top⟩ := by
  induction nodes generalizing top with
  | nil => rfl
  | cons node nodes ih =>
    rw [addAll_cons, List.reverse_cons, List.append_assoc, List.singleton_append, ← ih]
    rfl

/-- The tree without the text that is waiting. -/
def settled (b : Builder) : Builder := { b with pending := [] }

theorem flush_eq (b : Builder) : b.flush = b.settled.addAll (waiting b.keepsSpace b.pending) := by
  obtain ⟨pending, frames, top⟩ := b
  cases pending with
  | nil => rfl
  | cons c s =>
    cases frames with
    | nil => rfl
    | cons frame frames => rfl

/-- An element that is opened and filled is closed by its end tag. -/
theorem close_filled {b : Builder} (name : List Char) (attributes : Attributes)
    (children : List Node) :
    ((b.openElement name attributes).addAll children).closeNamed name =
      b.add (.element name (elementAttributes name attributes) children) := by
  obtain ⟨pending, frames, top⟩ := b
  rw [openElement, addAll_frame, closeNamed]
  have hindex : (⟨name, elementAttributes name attributes, children.reverse ++ []⟩ ::
      frames : List Frame).findIdx? (fun frame => frame.name == name) = some 0 := by
    rw [List.findIdx?_cons, if_pos (beq_self_eq_true name)]
  simp only [hindex]
  simp [closeMany, close]

end Builder

open Builder

@[simp] theorem pending_flush (b : Builder) : b.flush.pending = [] := by
  rw [flush_eq, pending_addAll]
  rfl

@[simp] theorem keepsSpace_flush (b : Builder) : b.flush.keepsSpace = b.keepsSpace := by
  rw [flush_eq, keepsSpace_addAll]
  rfl

theorem settled_of_pending {b : Builder} (h : b.pending = []) : b.settled = b := by
  obtain ⟨pending, frames, top⟩ := b
  cases h
  rfl

/-- Taking in the tokens of some nodes adds them with their texts joined. -/
theorem flush_foldl_tokensOf : ∀ {nodes : List Node}, RegularAll nodes → ∀ b : Builder,
    ((tokensOf nodes).foldl take b).flush = b.settled.addAll (joined b.keepsSpace b.pending nodes)
  | [], _, b => by
    rw [tokensOf, List.foldl_nil, flush_eq, joined]
  | .text s :: nodes, h, b => by
    have ih := flush_foldl_tokensOf h.2 (b.take (.text s))
    rw [tokensOf, tokens, List.singleton_append, List.foldl_cons, ih, joined]
    rfl
  | .element name attributes children :: nodes, h, b => by
    obtain ⟨⟨htag, hvoid, hchildren⟩, hnodes⟩ := h
    have helement : (tokens (.element name attributes children)).foldl take b =
        b.flush.add (.element name attributes
          (joined (b.keepsSpace || spacedNames.contains name) [] children)) := by
      rw [tokens]
      split
      · next hv =>
        rw [hvoid hv, joined, List.foldl_cons, List.foldl_nil]
        show (b.flush.openElement name attributes).close = _
        rw [openElement, htag.elementAttributes_eq]
        rfl
      · next hv =>
        have hopen : b.take (.startTag name attributes false) =
            b.flush.openElement name attributes := by simp [take, hv]
        have hkeeps : (b.flush.openElement name attributes).keepsSpace =
            (b.keepsSpace || spacedNames.contains name) := by
          rw [← keepsSpace_flush b, Bool.or_comm]
          rfl
        have hpending : (b.flush.openElement name attributes).pending = [] := pending_flush b
        have ih := flush_foldl_tokensOf hchildren (b.flush.openElement name attributes)
        rw [settled_of_pending hpending, hkeeps, hpending] at ih
        rw [List.cons_append, List.foldl_cons, hopen, List.foldl_append, List.foldl_cons,
          List.foldl_nil]
        show (((tokensOf children).foldl take (b.flush.openElement name attributes)).flush).closeNamed
          name = _
        rw [ih, close_filled, htag.elementAttributes_eq]
    have ih := flush_foldl_tokensOf hnodes
      (b.flush.add (.element name attributes
        (joined (b.keepsSpace || spacedNames.contains name) [] children)))
    rw [settled_of_pending (by simp), keepsSpace_add, keepsSpace_flush, pending_add,
      pending_flush] at ih
    rw [tokensOf, List.foldl_append, helement, ih, joined, addAll_append, addAll_cons, flush_eq]

/-- The tokens of some nodes make these nodes with their texts joined. -/
theorem ofTokens_tokensOf {nodes : List Node} (h : RegularAll nodes) :
    ofTokens (tokensOf nodes) = joined false [] nodes := by
  have hflush := flush_foldl_tokensOf h {}
  have htop := addAll_top (joined false [] nodes) [] []
  rw [ofTokens, finish, hflush]
  show (closeMany (addAll (joined false [] nodes) ⟨[], [], []⟩).frames.length
    (addAll (joined false [] nodes) ⟨[], [], []⟩)).top.reverse = _
  rw [htop]
  simp [closeMany]

/-! ## Nodes in which nothing is left to join -/

/-- No texts are neighbours or empty, and white space between tags is as short as can be. `keep` says
that white space counts, and `afterText` that a text comes right before. -/
def Tight (keep afterText : Bool) : List Node → Prop
  | [] => True
  | .text s :: nodes =>
    afterText = false ∧ s ≠ [] ∧ (keep = false → shorten s = s) ∧ Tight keep true nodes
  | .special _ s :: nodes => (keep = false → shorten s = s) ∧ Tight keep false nodes
  | .element name _ children :: nodes =>
    Tight (keep || spacedNames.contains name) false children ∧ Tight keep false nodes

theorem shorten_shorten (s : List Char) : shorten (shorten s) = shorten s := by
  by_cases hspace : s.all isAsciiSpace
  · by_cases hbreak : s.contains '\n'
    · simp only [shorten, hspace, hbreak, if_true]
      rfl
    · simp only [shorten, hspace, hbreak, if_true]
      rfl
  · simp only [shorten, if_neg hspace]

theorem shorten_ne_nil (s : List Char) : shorten s ≠ [] := by
  unfold shorten
  split
  · split <;> simp
  · next h =>
    rintro rfl
    exact h rfl

theorem tight_waiting_append {keep : Bool} {pending : List Char} {nodes : List Node}
    (h : Tight keep true nodes) (hfalse : Tight keep false nodes) :
    Tight keep false (waiting keep pending ++ nodes) := by
  unfold waiting
  split
  · exact hfalse
  · next hpending =>
    rw [List.singleton_append, Tight]
    refine ⟨rfl, ?_, ?_, h⟩
    · cases keep with
      | true =>
        rintro rfl
        exact hpending rfl
      | false => exact shorten_ne_nil pending
    · rintro rfl
      exact shorten_shorten pending

/-- After joining nothing is left to join. -/
theorem tight_joined (keep : Bool) (pending : List Char) : ∀ nodes : List Node,
    Tight keep false (joined keep pending nodes)
  | [] => by
    rw [joined, ← List.append_nil (waiting keep pending)]
    exact tight_waiting_append (by rw [Tight]; trivial) (by rw [Tight]; trivial)
  | .text s :: nodes => by
    rw [joined]
    exact tight_joined keep (pending ++ s) nodes
  | .special kind s :: nodes => by
    have hspecial : ∀ afterText, Tight keep afterText
        (.special kind (if keep then s else shorten s) :: joined keep [] nodes) := by
      intro afterText
      rw [Tight]
      refine ⟨?_, tight_joined keep [] nodes⟩
      rintro rfl
      exact shorten_shorten s
    rw [joined]
    exact tight_waiting_append (hspecial true) (hspecial false)
  | .element name attributes children :: nodes => by
    have helement : ∀ afterText, Tight keep afterText
        (.element name attributes (joined (keep || spacedNames.contains name) [] children) ::
          joined keep [] nodes) := by
      intro afterText
      rw [Tight]
      exact ⟨tight_joined _ [] children, tight_joined keep [] nodes⟩
    rw [joined]
    exact tight_waiting_append (helement true) (helement false)

/-- Joining leaves nodes as they are if nothing is left to join. -/
theorem joined_of_tight {keep afterText : Bool} {pending : List Char} : ∀ {nodes : List Node},
    Tight keep afterText nodes → (afterText = true ∨ pending = []) →
      joined keep pending nodes = waiting keep pending ++ nodes
  | [], _, _ => by rw [joined, List.append_nil]
  | .text s :: nodes, h, hpending => by
    rw [Tight] at h
    obtain ⟨hafter, hs, hshort, htight⟩ := h
    rcases hpending with htrue | rfl
    · rw [hafter] at htrue
      cases htrue
    · have hkept : (if keep then s else shorten s) = s := by
        cases keep with
        | true => rfl
        | false => exact hshort rfl
      rw [joined, List.nil_append, joined_of_tight htight (.inl rfl)]
      simp [waiting, hs, hkept]
  | .special kind s :: nodes, h, _ => by
    rw [Tight] at h
    have hkept : (if keep then s else shorten s) = s := by
      cases keep with
      | true => rfl
      | false => exact h.1 rfl
    rw [joined, hkept, joined_of_tight h.2 (.inr rfl)]
    rfl
  | .element name attributes children :: nodes, h, _ => by
    rw [Tight] at h
    rw [joined, joined_of_tight h.1 (.inr rfl), joined_of_tight h.2 (.inr rfl)]
    rfl

/-- Nodes in which nothing is left to join stay as they are. -/
theorem joined_nil_of_tight {nodes : List Node} (h : Tight false false nodes) :
    joined false [] nodes = nodes :=
  joined_of_tight h (.inr rfl)

theorem regularAll_waiting_append {keep : Bool} {pending : List Char} {nodes : List Node}
    (h : RegularAll nodes) : RegularAll (waiting keep pending ++ nodes) := by
  unfold waiting
  split
  · exact h
  · exact ⟨trivial, h⟩

/-- Joining texts leaves tags as they are. -/
theorem regularAll_joined (keep : Bool) (pending : List Char) : ∀ {nodes : List Node},
    RegularAll nodes → RegularAll (joined keep pending nodes)
  | [], _ => by
    rw [joined, ← List.append_nil (waiting keep pending)]
    exact regularAll_waiting_append trivial
  | .text s :: nodes, h => by
    rw [joined]
    exact regularAll_joined keep (pending ++ s) h.2
  | .element name attributes children :: nodes, h => by
    obtain ⟨⟨htag, hvoid, hchildren⟩, hnodes⟩ := h
    rw [joined]
    refine regularAll_waiting_append ⟨⟨htag, fun hv => ?_, ?_⟩, regularAll_joined keep [] hnodes⟩
    · rw [hvoid hv, joined]
      rfl
    · exact regularAll_joined _ [] hchildren

theorem elementsOf_waiting_append (keep : Bool) (pending : List Char) (nodes : List Node) :
    elementsOf (waiting keep pending ++ nodes) = elementsOf nodes := by
  unfold waiting
  split
  · rfl
  · rfl

/-- Joining texts leaves the elements as they are. -/
theorem elementsOf_joined (keep : Bool) (pending : List Char) : ∀ nodes : List Node,
    elementsOf (joined keep pending nodes) = elementsOf nodes
  | [] => by
    rw [joined, ← List.append_nil (waiting keep pending), elementsOf_waiting_append]
  | .text s :: nodes => by
    rw [joined, elementsOf_joined keep (pending ++ s) nodes, elementsOf, elements]
    · rfl
    · simp
  | .special kind s :: nodes => by
    rw [joined, elementsOf_waiting_append, elementsOf, elementsOf, elements, elements,
      elementsOf_joined keep [] nodes]
    all_goals simp
  | .element name attributes children :: nodes => by
    rw [joined, elementsOf_waiting_append, elementsOf, elementsOf, elements, elements,
      elementsOf_joined keep [] nodes, elementsOf_joined _ [] children]

end Assessment.Html
