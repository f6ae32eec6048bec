import Assessment.Proofs.Html.Holding

/-!
# Proofs: nodes that look alike

Nodes look alike if they differ in nothing but attributes, and in text that is no markup
(`Node.AlikeIn`). They are elements of the same names in the same order, and hold the same text that can be
seen (`Node.AlikeIn.outline_eq`). Tokens that look alike make nodes that look alike: each of them keeps the
trees that are being built alike (`Builder.Alike.take`).
-/

namespace Assessment.Html

open Assessment.Markup Assessment.Text

/-! ## What can be seen -/

namespace Node

mutual

/-- The text of a node that can be seen. That of elements whose text is no markup cannot. -/
def visible : Node → List Char
  | .text s => s
  | .special _ _ => []
  | .element name _ children => if isRaw name then [] else visibleIn children

/-- The text of some nodes that can be seen. -/
def visibleIn : List Node → List Char
  | [] => []
  | node :: nodes => visible node ++ visibleIn nodes

end

end Node

/-- What HTML looks like apart from its attributes. -/
structure Outline where
  /-- The names of the elements, in document order. -/
  names : List (List Char)
  /-- The text that can be seen. -/
  text : List Char
  deriving DecidableEq, Repr

/-- What some nodes look like. -/
def outline (nodes : List Node) : Outline := ⟨(Node.elementsOf nodes).map (·.1), Node.visibleIn nodes⟩

/-- What HTML looks like, if it can be read at all. -/
def outline? (html : List Char) : Option Outline := (parse html).map outline

/-! ## Nodes -/

namespace Node

mutual

/-- The nodes differ in attributes only. `raw` says that they stand in an element whose text is no markup:
there the text may differ. -/
def Alike (raw : Bool) : Node → Node → Prop
  | .text s, .text t => raw = true ∨ s = t
  | .special kind s, .special other t => kind = other ∧ s = t
  | .element name _ children, .element other _ others =>
    name = other ∧ AlikeIn (isRaw name) children others
  | _, _ => False

/-- The nodes differ in attributes only, one by one. -/
def AlikeIn (raw : Bool) : List Node → List Node → Prop
  | [], [] => True
  | node :: nodes, other :: others => Alike raw node other ∧ AlikeIn raw nodes others
  | _, _ => False

end

theorem alikeIn_iff {raw : Bool} {nodes others : List Node} :
    AlikeIn raw nodes others ↔ List.Forall₂ (Alike raw) nodes others := by
  induction nodes generalizing others with
  | nil => cases others <;> simp [AlikeIn]
  | cons node nodes ih => cases others <;> simp [AlikeIn, ih]

theorem AlikeIn.reverse {raw : Bool} {nodes others : List Node} (h : AlikeIn raw nodes others) :
    AlikeIn raw nodes.reverse others.reverse :=
  alikeIn_iff.2 (List.forall₂_reverse_iff.2 (alikeIn_iff.1 h))

mutual

theorem Alike.names_eq : ∀ {raw : Bool} {node other : Node}, Alike raw node other →
    (elements node).map (·.1) = (elements other).map (·.1)
  | _, .text _, .text _, _ => rfl
  | _, .special _ _, .special _ _, _ => rfl
  | _, .element name _ children, .element _ _ others, h => by
    obtain ⟨rfl, hchildren⟩ := h
    rw [elements, elements, List.map_cons, List.map_cons, hchildren.names_eq]

/-- Nodes that look alike are elements of the same names. -/
theorem AlikeIn.names_eq : ∀ {raw : Bool} {nodes others : List Node}, AlikeIn raw nodes others →
    (elementsOf nodes).map (·.1) = (elementsOf others).map (·.1)
  | _, [], [], _ => rfl
  | _, _ :: _, _ :: _, h => by
    rw [elementsOf, elementsOf, List.map_append, List.map_append, h.1.names_eq, h.2.names_eq]

end

mutual

theorem Alike.visible_eq : ∀ {node other : Node}, Alike false node other → visible node = visible other
  | .text _, .text _, h => by
    rcases h with h | rfl
    · cases h
    · rfl
  | .special _ _, .special _ _, _ => rfl
  | .element name _ children, .element _ _ others, h => by
    obtain ⟨rfl, hchildren⟩ := h
    rw [visible, visible]
    split
    · rfl
    · next hraw =>
      rw [eq_false_of_ne_true hraw] at hchildren
      exact hchildren.visible_eq

/-- Nodes that look alike hold the same text that can be seen. -/
theorem AlikeIn.visible_eq : ∀ {nodes others : List Node}, AlikeIn false nodes others →
    visibleIn nodes = visibleIn others
  | [], [], _ => rfl
  | _ :: _, _ :: _, h => by rw [visibleIn, visibleIn, h.1.visible_eq, h.2.visible_eq]

end

theorem AlikeIn.outline_eq {nodes others : List Node} (h : AlikeIn false nodes others) :
    outline nodes = outline others := by
  rw [outline, outline, h.names_eq, h.visible_eq]

end Node

open Node

/-! ## Trees that are being built -/

/-- The open elements differ in attributes only. -/
structure Frame.Alike (frame other : Frame) : Prop where
  /-- They have the same name. -/
  name : frame.name = other.name
  /-- What they hold so far looks alike. -/
  children : AlikeIn (isRaw frame.name) frame.children other.children

namespace Builder

/-- The trees differ in attributes only, and the text since the last tag only where it is no markup. -/
structure Alike (b c : Builder) : Prop where
  /-- What lies outside of all elements looks alike. -/
  top : AlikeIn false b.top c.top
  /-- The open elements look alike. -/
  frames : List.Forall₂ Frame.Alike b.frames c.frames
  /-- So does the node that the text since the last tag would be. -/
  pending : Node.Alike b.inRaw (.text b.pending) (.text c.pending)
  /-- There is such text in both or in none. -/
  waits : b.pending = [] ↔ c.pending = []

theorem add_of_nil {b : Builder} (h : b.frames = []) (node : Node) :
    b.add node = { b with top := node :: b.top } := by
  rw [add, h]

theorem add_of_cons {b : Builder} {frame : Frame} {frames : List Frame} (h : b.frames = frame :: frames)
    (node : Node) : b.add node =
      { b with frames := { frame with children := node :: frame.children } :: frames } := by
  rw [add, h]

theorem alike_empty : ({} : Builder).Alike {} := ⟨trivial, .nil, .inr rfl, Iff.rfl⟩

namespace Alike

variable {b c : Builder}

theorem names_eq (h : b.Alike c) : b.names = c.names := by
  have hframes := h.frames
  unfold Builder.names
  generalize b.frames = frames at hframes
  generalize c.frames = others at hframes
  induction hframes with
  | nil => rfl
  | cons hframe _ ih => rw [List.map_cons, List.map_cons, hframe.name, ih]

theorem kept_eq (h : b.Alike c) (s : List Char) : b.kept s = c.kept s := by
  have hspace {d : Builder} : d.keepsSpace = d.names.any spacedNames.contains := by
    rw [keepsSpace, names, List.any_map]
    rfl
  rw [kept, kept, hspace, hspace, h.names_eq]

/-- Nodes that look alike are added. -/
theorem add (h : b.Alike c) {node other : Node} (hnode : Node.Alike b.inRaw node other) :
    (b.add node).Alike (c.add other) := by
  have hpending : Node.Alike (b.add node).inRaw (.text (b.add node).pending)
      (.text (c.add other).pending) := by
    rw [inRaw_add, pending_add, pending_add]
    exact h.pending
  have hwaits : (b.add node).pending = [] ↔ (c.add other).pending = [] := by
    rw [pending_add, pending_add]
    exact h.waits
  have hframes := h.frames
  cases hb : b.frames with
  | nil =>
    rw [hb] at hframes
    have hc := List.forall₂_nil_left_iff.1 hframes
    have hraw : b.inRaw = false := by simp [inRaw, names, hb]
    refine ⟨?_, ?_, hpending, hwaits⟩
    · rw [add_of_nil hb, add_of_nil hc]
      exact ⟨hraw ▸ hnode, h.top⟩
    · rw [add_of_nil hb, add_of_nil hc]
      exact h.frames
  | cons frame frames =>
    rw [hb] at hframes
    obtain ⟨twin, others, hframe, hrest, hc⟩ := List.forall₂_cons_left_iff.1 hframes
    have hraw : b.inRaw = isRaw frame.name := by simp [inRaw, names, hb]
    refine ⟨?_, ?_, hpending, hwaits⟩
    · rw [add_of_cons hb, add_of_cons hc]
      exact h.top
    · rw [add_of_cons hb, add_of_cons hc]
      exact .cons ⟨hframe.name, hraw ▸ hnode, hframe.children⟩ hrest

/-- The text since the last tag becomes a node. -/
theorem flush (h : b.Alike c) : b.flush.Alike c.flush ∧ b.flush.pending = [] ∧ c.flush.pending = [] ∧
    b.flush.names = b.names := by
  by_cases hb : b.pending = []
  · have hc := h.waits.1 hb
    have hsame {d : Builder} (hd : d.pending = []) : d.flush = d := by
      rw [Builder.flush, hd]
      rfl
    rw [hsame hb, hsame hc]
    exact ⟨h, hb, hc, rfl⟩
  · have hc : c.pending ≠ [] := fun hnone => hb (h.waits.2 hnone)
    have hnext {d : Builder} (hd : d.pending ≠ []) :
        d.flush = { d.add (.text (d.kept d.pending)) with pending := [] } := by
      rw [Builder.flush, if_neg (by simpa using hd)]
    have hnode : Node.Alike b.inRaw (.text (b.kept b.pending)) (.text (c.kept c.pending)) := by
      rcases h.pending with hraw | heq
      · exact .inl hraw
      · exact .inr (by rw [heq, h.kept_eq])
    have hadd := h.add hnode
    rw [hnext hb, hnext hc]
    exact ⟨⟨hadd.top, hadd.frames, .inr rfl, Iff.rfl⟩, rfl, rfl, names_add _ _⟩

/-- The innermost element is closed. -/
theorem close (h : b.Alike c) (hb : b.pending = []) : b.close.Alike c.close ∧ b.close.pending = [] := by
  have hframes := h.frames
  unfold Builder.close
  cases hbelow : b.frames with
  | nil =>
    rw [hbelow] at hframes
    rw [List.forall₂_nil_left_iff.1 hframes]
    exact ⟨h, hb⟩
  | cons frame frames =>
    rw [hbelow] at hframes
    obtain ⟨twin, others, hframe, hrest, hc⟩ := List.forall₂_cons_left_iff.1 hframes
    rw [hc]
    have hopen : Builder.Alike { b with frames := frames } { c with frames := others } :=
      ⟨h.top, hrest, .inr (hb.trans (h.waits.1 hb).symm), h.waits⟩
    exact ⟨hopen.add ⟨hframe.name, hframe.children.reverse⟩, by rw [pending_add]; exact hb⟩

theorem closeMany (h : b.Alike c) (hb : b.pending = []) (n : Nat) :
    (b.closeMany n).Alike (c.closeMany n) := by
  induction n generalizing b c with
  | zero => exact h
  | succ n ih =>
    obtain ⟨hclose, hnone⟩ := h.close hb
    exact ih hclose hnone

theorem closeNamed (h : b.Alike c) (hb : b.pending = []) (name : List Char) :
    (b.closeNamed name).Alike (c.closeNamed name) := by
  have hfind {d : Builder} : d.frames.findIdx? (fun frame => frame.name == name) =
      d.names.findIdx? (· == name) := by
    rw [names, List.findIdx?_map]
    rfl
  unfold Builder.closeNamed
  rw [hfind, hfind, h.names_eq]
  split
  · exact h.closeMany hb _
  · exact h

theorem openElement (h : b.Alike c) (hb : b.pending = []) (name : List Char)
    (attributes others : Attributes) :
    (b.openElement name attributes).Alike (c.openElement name others) :=
  ⟨h.top, .cons ⟨rfl, trivial⟩ h.frames, .inr (hb.trans (h.waits.1 hb).symm), h.waits⟩

end Alike

end Builder

/-! ## Tokens -/

/-- The tokens differ in attributes only. -/
inductive Token.Alike : Token → Token → Prop where
  /-- The same token. -/
  | refl (token : Token) : Token.Alike token token
  /-- Start tags with different attributes. -/
  | startTag (name : List Char) (attributes others : Attributes) (closed : Bool) :
    Token.Alike (.startTag name attributes closed) (.startTag name others closed)

namespace Builder.Alike

variable {b c : Builder}

/-- Text may differ where it is no markup. -/
theorem takeText (h : b.Alike c) {s t : List Char} (hsame : b.inRaw = true ∨ s = t)
    (hwaits : s = [] ↔ t = []) : (b.take (.text s)).Alike (c.take (.text t)) := by
  refine ⟨h.top, h.frames, ?_, ?_⟩
  · rcases hsame with hraw | rfl
    · exact .inl hraw
    · rcases h.pending with hraw | heq
      · exact .inl hraw
      · exact .inr (congrArg (· ++ s) heq)
  · show b.pending ++ s = [] ↔ c.pending ++ t = []
    rw [List.append_eq_nil_iff, List.append_eq_nil_iff, h.waits, hwaits]

theorem takeStart (h : b.Alike c) (name : List Char) (attributes others : Attributes) (closed : Bool) :
    (b.take (.startTag name attributes closed)).Alike (c.take (.startTag name others closed)) := by
  obtain ⟨hflush, hnone, -, -⟩ := h.flush
  have hopened := hflush.openElement hnone name attributes others
  show Builder.Alike (if _ then _ else _) (if _ then _ else _)
  split
  · exact (hopened.close hnone).1
  · exact hopened

/-- Tokens that look alike are taken in. -/
theorem take (h : b.Alike c) {token other : Token} (htoken : token.Alike other) :
    (b.take token).Alike (c.take other) := by
  cases htoken with
  | startTag name attributes others closed => exact h.takeStart name attributes others closed
  | refl =>
    cases token with
    | text s => exact h.takeText (.inr rfl) Iff.rfl
    | startTag name attributes closed => exact h.takeStart name attributes attributes closed
    | special kind s =>
      obtain ⟨hflush, -, -, -⟩ := h.flush
      exact hflush.add ⟨rfl, hflush.kept_eq s⟩
    | endTag name =>
      obtain ⟨hflush, hnone, -, -⟩ := h.flush
      exact hflush.closeNamed hnone name

/-- Trees that look alike are finished as nodes that look alike. -/
theorem finish (h : b.Alike c) : AlikeIn false b.finish c.finish := by
  obtain ⟨hflush, hnone, -, -⟩ := h.flush
  have hlength : b.flush.frames.length = c.flush.frames.length := hflush.frames.length_eq
  unfold Builder.finish
  dsimp only
  rw [hlength]
  exact (hflush.closeMany hnone _).top.reverse

end Builder.Alike

/-- Tokens that look alike one by one make nodes that look alike. -/
theorem alikeIn_ofTokens {tokens others : List Token} (h : List.Forall₂ Token.Alike tokens others) :
    AlikeIn false (ofTokens tokens) (ofTokens others) := by
  suffices ∀ {b c : Builder}, b.Alike c →
      (tokens.foldl Builder.take b).Alike (others.foldl Builder.take c) from
    (this Builder.alike_empty).finish
  induction h with
  | nil => exact id
  | cons htoken _ ih => exact fun hbuilder => ih (hbuilder.take htoken)

end Assessment.Html
