import Assessment.Proofs.Html.Shuffled
import Assessment.Proofs.Text.Blank

/-!
# Proofs: the text that trees of HTML hold

A tree holds text (`Node.held`), and its printed form displays that text (`displays_writeAll`). Building a
tree neither loses nor adds text, up to white space: whatever a tag opens or closes, what has been taken in
stays, in order (`Builder.Holds`).
-/

namespace Assessment.Html

open Assessment.Markup Assessment.Text

/-! ## Text in trees -/

namespace Node

mutual

/-- The text that a node holds. `raw` says that it stands in an element whose text is no markup: what
stands there is printed as it is, and displays the text. -/
def held (raw : Bool) : Node → List Char
  | .text s => if raw then Entity.decode (stripTags s) else s
  | .special _ _ => []
  | .element name _ children => heldIn (isRaw name) children

/-- The text that some nodes hold. -/
def heldIn (raw : Bool) : List Node → List Char
  | [] => []
  | node :: nodes => held raw node ++ heldIn raw nodes

end

end Node

/-- A name and attributes as a tag is printed with them. The element is no body of a document. -/
structure SoundTag (name : List Char) (attributes : Attributes) : Prop where
  /-- The name holds no bracket. -/
  tag : Unbracketed name
  /-- The names of the attributes hold no bracket. -/
  keys : ∀ a ∈ attributes, Unbracketed a.1
  /-- It is not the body of a document. -/
  not_body : name ≠ "body".toList

namespace Node

mutual

/-- The tags of a node are sound, and what is printed as it is displays text. -/
def Sound (raw : Bool) : Node → Prop
  | .text s => raw = true → ∃ text, Displays Escaped s text
  | .special _ _ => False
  | .element name attributes children => SoundTag name attributes ∧ SoundIn (isRaw name) children

/-- The tags of some nodes are sound, and what is printed as it is displays text. -/
def SoundIn (raw : Bool) : List Node → Prop
  | [] => True
  | node :: nodes => Sound raw node ∧ SoundIn raw nodes

end

theorem heldIn_append (raw : Bool) (nodes more : List Node) :
    heldIn raw (nodes ++ more) = heldIn raw nodes ++ heldIn raw more := by
  induction nodes with
  | nil => rfl
  | cons node nodes ih => rw [List.cons_append, heldIn, heldIn, ih, List.append_assoc]

theorem soundIn_iff {raw : Bool} {nodes : List Node} :
    SoundIn raw nodes ↔ ∀ node ∈ nodes, Sound raw node := by
  induction nodes with
  | nil => exact ⟨fun _ _ h => absurd h List.not_mem_nil, fun _ => trivial⟩
  | cons node nodes ih => rw [SoundIn, ih, List.forall_mem_cons]

theorem soundIn_reverse {raw : Bool} {nodes : List Node} (h : SoundIn raw nodes) :
    SoundIn raw nodes.reverse :=
  soundIn_iff.2 fun node hnode => soundIn_iff.1 h node (List.mem_reverse.1 hnode)

end Node

open Node

/-! ## Printing -/

theorem unbracketed_quotedValue {s : List Char} (h : Unbracketed s) : Unbracketed (quotedValue s) := by
  have hdouble : Unbracketed ['\x22'] := by decide
  have hsingle : Unbracketed ['\x27'] := by decide
  unfold quotedValue
  split
  · split
    · have hvalue : Unbracketed (replaceChar '\x22' "&quot;".toList s) :=
        forall_mem_replaceChar (by decide) fun c hc _ => h c hc
      exact (hdouble.append hvalue).append hdouble
    · exact (hsingle.append h).append hsingle
  · exact (hdouble.append h).append hdouble

theorem SoundTag.unbracketed_writeAttributes {name : List Char} {attributes : Attributes}
    (h : SoundTag name attributes) : Unbracketed (writeAttributes attributes) := by
  intro c hc
  obtain ⟨⟨key, value⟩, ha, hc⟩ := List.mem_flatMap.1 hc
  have hkey := h.keys _ ((perm_sortAttributes attributes).mem_iff.1 ha)
  have hstart : Unbracketed (' ' :: key) := .cons (by decide) (by decide) hkey
  have hvalue : Unbracketed ('=' :: quotedValue (escapeText value)) :=
    .cons (by decide) (by decide) (unbracketed_quotedValue (unbracketed_escapeText value))
  exact (hstart.append hvalue) c hc

mutual

theorem displays_write : ∀ {raw : Bool} {node : Node}, node.Sound raw →
    Displays Written (write raw node) (node.held raw)
  | false, .text s, _ => .of_flatMap fun _ _ => .inr rfl
  | true, .text s, h => by
    obtain ⟨text, hs⟩ := h rfl
    have htext : Entity.decode (stripTags s) = text := decode_stripTags_of_displays writing_escaped hs
    rw [write, held, if_pos rfl, if_pos rfl, htext]
    exact hs.mono .inl
  | raw, .element name attributes children, h => by
    obtain ⟨htag, hchildren⟩ := h
    have hpart := htag.tag.append htag.unbracketed_writeAttributes
    have hinside := displays_writeAll hchildren
    have hend : IsTag ('<' :: ('/' :: name) ++ ['>']) := .intro (.cons (by decide) (by decide) htag.tag)
    rw [write, held]
    split
    · next hvoid =>
      obtain ⟨-, hnone⟩ := (Bool.and_eq_true _ _).mp hvoid
      rw [List.isEmpty_iff.1 hnone, heldIn]
      have hclosed : IsTag ('<' :: (name ++ writeAttributes attributes ++ ['/']) ++ ['>']) :=
        .intro (hpart.append (by decide))
      simpa using Displays.of_isTag hclosed
    · have hwhole := Displays.tag (.intro hpart) (hinside.append (.of_isTag hend))
      simpa using hwhole

/-- Printed nodes display the text that they hold. -/
theorem displays_writeAll : ∀ {raw : Bool} {nodes : List Node}, SoundIn raw nodes →
    Displays Written (writeAll raw nodes) (heldIn raw nodes)
  | _, [], _ => .nil
  | _, node :: nodes, h => by
    rw [writeAll, heldIn]
    exact (displays_write h.1).append (displays_writeAll h.2)

end

mutual

theorem firstNamed?_body_of_sound : ∀ {raw : Bool} {node : Node}, node.Sound raw →
    firstNamed? "body".toList node = none
  | _, .text _, _ => by
    rw [firstNamed?]
    simp
  | _, .element name attributes children, h => by
    rw [firstNamed?, if_neg h.1.not_body, firstNamedOf?_body_of_sound h.2]

/-- Sound nodes have no body. -/
theorem firstNamedOf?_body_of_sound : ∀ {raw : Bool} {nodes : List Node}, SoundIn raw nodes →
    firstNamedOf? "body".toList nodes = none
  | _, [], _ => by rw [firstNamedOf?]
  | _, node :: nodes, h => by
    rw [firstNamedOf?, firstNamed?_body_of_sound h.1, firstNamedOf?_body_of_sound h.2]
    rfl

end

/-- A fragment without a body displays the text that it holds. -/
theorem displays_serialize {nodes : List Node} (h : SoundIn false nodes) :
    Displays Written (serialize nodes) (heldIn false nodes) := by
  rw [serialize, firstNamedOf?_body_of_sound h]
  exact displays_writeAll h

section Updating

variable {σ : Type} {f : σ → List Char → Attributes → Attributes × σ}

mutual

theorem update_sound (hf : ∀ {known name attributes}, SoundTag name attributes →
      SoundTag name (f known name attributes).1) (known : σ) :
    ∀ {raw : Bool} {node : Node}, node.Sound raw →
      (update f known node).1.Sound raw ∧ (update f known node).1.held raw = node.held raw
  | _, .text s, h => ⟨h, rfl⟩
  | raw, .element name attributes children, h => by
    obtain ⟨hsound, hheld⟩ := updateAll_sound hf (f known name attributes).2 h.2
    exact ⟨⟨hf h.1, hsound⟩, hheld⟩

/-- Changing attributes leaves the text. -/
theorem updateAll_sound (hf : ∀ {known name attributes}, SoundTag name attributes →
      SoundTag name (f known name attributes).1) (known : σ) :
    ∀ {raw : Bool} {nodes : List Node}, SoundIn raw nodes →
      SoundIn raw (updateAll f known nodes).1 ∧
        heldIn raw (updateAll f known nodes).1 = heldIn raw nodes
  | _, [], h => ⟨h, rfl⟩
  | raw, node :: nodes, h => by
    obtain ⟨hfirst, hheldFirst⟩ := update_sound hf known h.1
    obtain ⟨hrest, hheldRest⟩ := updateAll_sound hf (update f known node).2 h.2
    refine ⟨⟨hfirst, hrest⟩, ?_⟩
    rw [updateAll, heldIn, heldIn, hheldFirst, hheldRest]

end

end Updating

/-! ## Trees that are being built -/

/-- The text that some open elements hold, the innermost first. -/
def heldOpen : List Frame → List Char
  | [] => []
  | frame :: frames => heldOpen frames ++ heldIn (isRaw frame.name) frame.children.reverse

/-- An open element is sound. -/
structure Frame.Sound (frame : Frame) : Prop where
  /-- Its tag is. -/
  tag : SoundTag frame.name frame.attributes
  /-- What it holds so far is. -/
  children : SoundIn (isRaw frame.name) frame.children

namespace Builder

/-- The names of the open elements, the innermost first. -/
def names (b : Builder) : List (List Char) := b.frames.map Frame.name

/-- Text is no markup here. -/
def inRaw (b : Builder) : Bool := b.names.head?.any isRaw

/-- The text in the nodes so far. -/
def stored (b : Builder) : List Char := heldIn false b.top.reverse ++ heldOpen b.frames

/-- The text that has been taken in. -/
def held (b : Builder) : List Char := b.stored ++ Node.held b.inRaw (.text b.pending)

/-- All nodes so far are sound, and so is the node that the text since the last tag would be. -/
structure Sound (b : Builder) : Prop where
  /-- What lies outside of all elements is sound. -/
  top : SoundIn false b.top
  /-- The open elements are sound. -/
  frames : ∀ frame ∈ b.frames, frame.Sound
  /-- The text since the last tag is sound. -/
  pending : Node.Sound b.inRaw (.text b.pending)

theorem sound_empty : ({} : Builder).Sound where
  top := trivial
  frames _ h := absurd h List.not_mem_nil
  pending h := absurd h Bool.false_ne_true

@[simp] theorem names_add (node : Node) (b : Builder) : (b.add node).names = b.names := by
  unfold add
  split
  · rfl
  · next h => simp [names, h]

@[simp] theorem inRaw_add (node : Node) (b : Builder) : (b.add node).inRaw = b.inRaw := by
  rw [inRaw, names_add, inRaw]

theorem stored_add (node : Node) (b : Builder) :
    (b.add node).stored = b.stored ++ node.held b.inRaw := by
  unfold add
  split
  · next h => simp [stored, inRaw, names, h, heldOpen, heldIn_append, heldIn]
  · next frame frames h =>
    simp [stored, inRaw, names, h, heldOpen, heldIn_append, heldIn]

theorem Sound.add {b : Builder} {node : Node} (h : b.Sound) (hnode : node.Sound b.inRaw) :
    (b.add node).Sound := by
  have hpending : (b.add node).pending = b.pending := pending_add node b
  refine ⟨?_, ?_, by rw [inRaw_add, hpending]; exact h.pending⟩
  · unfold Builder.add
    split
    · next hframes =>
      have hraw : b.inRaw = false := by simp [inRaw, names, hframes]
      exact ⟨hraw ▸ hnode, h.top⟩
    · exact h.top
  · have hall := h.frames
    unfold Builder.add
    split
    · exact hall
    · next frame frames hframes =>
      have hraw : b.inRaw = isRaw frame.name := by simp [inRaw, names, hframes]
      rw [hframes] at hall
      obtain ⟨hframe, hothers⟩ := List.forall_mem_cons.1 hall
      exact List.forall_mem_cons.2 ⟨⟨hframe.tag, hraw ▸ hnode, hframe.children⟩, hothers⟩

end Builder

/-! ### White space between tags -/

theorem isBlank_of_isAsciiSpace {c : Char} (h : isAsciiSpace c = true) : isBlank c = true := by
  simp only [isAsciiSpace, Bool.or_eq_true, beq_iff_eq] at h
  rcases h with (((rfl | rfl) | rfl) | rfl) | rfl <;> decide

theorem escaped_of_isAsciiSpace {c : Char} (h : isAsciiSpace c = true) : Escaped c [c] := by
  simp only [isAsciiSpace, Bool.or_eq_true, beq_iff_eq] at h
  rcases h with (((rfl | rfl) | rfl) | rfl) | rfl <;> rfl

theorem displays_of_isAsciiSpace {s : List Char} (h : s.all isAsciiSpace = true) :
    Displays Escaped s s := by
  induction s with
  | nil => exact .nil
  | cons c s ih =>
    rw [List.all_cons, Bool.and_eq_true] at h
    exact .char (escaped_of_isAsciiSpace h.1) (ih h.2)

/-- White space holds itself, whether or not text is markup. -/
theorem held_of_isAsciiSpace {s : List Char} (h : s.all isAsciiSpace = true) (raw : Bool) :
    Node.held raw (.text s) = s := by
  rw [held]
  split
  · exact decode_stripTags_of_displays writing_escaped (displays_of_isAsciiSpace h)
  · rfl

theorem withoutBlanks_of_isAsciiSpace {s : List Char} (h : s.all isAsciiSpace = true) :
    withoutBlanks s = [] :=
  withoutBlanks_of_isBlankText <| List.all_eq_true.2 fun c hc =>
    isBlank_of_isAsciiSpace (List.all_eq_true.1 h c hc)

/-- Shortening leaves the text up to white space. -/
theorem sound_shorten {raw : Bool} {s : List Char} (h : Node.Sound raw (.text s)) :
    Node.Sound raw (.text (shorten s)) ∧
      withoutBlanks (Node.held raw (.text (shorten s))) = withoutBlanks (Node.held raw (.text s)) := by
  by_cases hspace : s.all isAsciiSpace = true
  · have hshort : (shorten s).all isAsciiSpace = true := by
      rw [shorten, if_pos hspace]
      split <;> decide
    rw [held_of_isAsciiSpace hshort, held_of_isAsciiSpace hspace,
      withoutBlanks_of_isAsciiSpace hshort, withoutBlanks_of_isAsciiSpace hspace]
    exact ⟨fun _ => ⟨_, displays_of_isAsciiSpace hshort⟩, rfl⟩
  · rw [shorten, if_neg hspace]
    exact ⟨h, rfl⟩

theorem held_text_nil (raw : Bool) : Node.held raw (.text []) = [] :=
  held_of_isAsciiSpace rfl raw

theorem sound_text_nil (raw : Bool) : Node.Sound raw (.text []) := fun _ => ⟨[], .nil⟩

namespace Builder

variable {b : Builder}

theorem held_of_pending (h : b.pending = []) : b.held = b.stored := by
  rw [held, h, held_text_nil, List.append_nil]

theorem sound_kept {raw : Bool} {s : List Char} (h : Node.Sound raw (.text s)) :
    Node.Sound raw (.text (b.kept s)) ∧
      withoutBlanks (Node.held raw (.text (b.kept s))) = withoutBlanks (Node.held raw (.text s)) := by
  rw [kept]
  split
  · exact ⟨h, rfl⟩
  · exact sound_shorten h

/-- Text becomes a node up to white space. -/
theorem Sound.flush (h : b.Sound) : b.flush.Sound ∧ b.flush.names = b.names ∧
    withoutBlanks b.flush.stored = withoutBlanks b.held := by
  unfold Builder.flush
  split
  · next hnone => exact ⟨h, rfl, by rw [held_of_pending (List.isEmpty_iff.1 hnone)]⟩
  · obtain ⟨hkept, hsame⟩ := @sound_kept b _ _ h.pending
    have hadd := h.add hkept
    have hstored := stored_add (.text (b.kept b.pending)) b
    refine ⟨⟨hadd.top, hadd.frames, sound_text_nil _⟩, names_add _ _, ?_⟩
    have hboth : withoutBlanks (b.add (.text (b.kept b.pending))).stored = withoutBlanks b.held := by
      rw [hstored, held, withoutBlanks_append, withoutBlanks_append, hsame]
    exact hboth

/-! ### Closing elements -/

/-- Closing an element keeps what it holds. -/
theorem Sound.close (h : b.Sound) (hpending : b.pending = []) :
    b.close.Sound ∧ b.close.pending = [] ∧ b.close.names = b.names.tail ∧
      b.close.stored = b.stored := by
  unfold Builder.close
  split
  · next hnone => exact ⟨h, hpending, by simp [names, hnone], rfl⟩
  · next frame frames hframes =>
    obtain ⟨hframe, hothers⟩ := List.forall_mem_cons.1 (hframes ▸ h.frames)
    have hbelow : Builder.Sound { b with frames := frames } :=
      ⟨h.top, hothers, by rw [hpending]; exact sound_text_nil _⟩
    have helement : Node.Sound (Builder.inRaw { b with frames := frames })
        (.element frame.name frame.attributes frame.children.reverse) :=
      ⟨hframe.tag, soundIn_reverse hframe.children⟩
    have hadd := hbelow.add helement
    refine ⟨hadd, by rw [pending_add, hpending], ?_, ?_⟩
    · rw [names_add]
      simp [names, hframes]
    · rw [stored_add]
      simp [stored, hframes, heldOpen, Node.held]

theorem Sound.closeMany (h : b.Sound) (hpending : b.pending = []) (n : Nat) :
    (b.closeMany n).Sound ∧ (b.closeMany n).pending = [] ∧ (b.closeMany n).names = b.names.drop n ∧
      (b.closeMany n).stored = b.stored := by
  induction n generalizing b with
  | zero => exact ⟨h, hpending, rfl, rfl⟩
  | succ n ih =>
    obtain ⟨hclose, hnothing, hnames, hstored⟩ := h.close hpending
    obtain ⟨hmany, hnone, hdrop, hsame⟩ := ih hclose hnothing
    refine ⟨hmany, hnone, ?_, hsame.trans hstored⟩
    exact hdrop.trans (by rw [hnames, List.drop_tail])

end Builder

/-! ### Opening elements -/

theorem SoundTag.put {name : List Char} {attributes : Attributes} (h : SoundTag name attributes)
    {key : List Char} (hkey : Unbracketed key) (value : List Char) :
    SoundTag name (attributes.put key value) where
  tag := h.tag
  keys a ha := by
    rcases Attributes.mem_put ha with rfl | ha
    · exact hkey
    · exact h.keys a ha
  not_body := h.not_body

theorem SoundTag.metaAttributes {name : List Char} {attributes : Attributes}
    (h : SoundTag name attributes) : SoundTag name (metaAttributes attributes) := by
  unfold Html.metaAttributes
  split
  · exact h.put (by decide) _
  · split
    · split
      · exact h.put (by decide) _
      · exact h
    · exact h

/-- An element is opened with attributes of the names that the start tag has. -/
theorem SoundTag.elementAttributes {name : List Char} {attributes : Attributes}
    (h : SoundTag name attributes) : SoundTag name (elementAttributes name attributes) := by
  have hmeta : SoundTag name
      (if name = "meta".toList then Html.metaAttributes attributes else attributes) := by
    split
    · exact h.metaAttributes
    · exact h
  refine ⟨h.tag, fun a ha => ?_, h.not_body⟩
  obtain ⟨b, hb, rfl⟩ := List.mem_map.1 ha
  exact hmeta.keys b hb

namespace Builder

variable {b : Builder} {name : List Char} {attributes : Attributes}

theorem Sound.openElement (h : b.Sound) (hpending : b.pending = []) (htag : SoundTag name attributes) :
    (b.openElement name attributes).Sound where
  top := h.top
  frames := List.forall_mem_cons.2 ⟨⟨htag.elementAttributes, trivial⟩, h.frames⟩
  pending := by
    have hnone : (b.openElement name attributes).pending = [] := hpending
    rw [hnone]
    exact sound_text_nil _

theorem stored_openElement : (b.openElement name attributes).stored = b.stored := by
  simp [stored, Builder.openElement, heldOpen, heldIn]

end Builder

/-! ### Taking in tokens -/

/-- The names of the open elements, the innermost first, where the reading is inside of the element `raw`,
whose text is no markup. -/
inductive OpenIn : Option (List Char) → List (List Char) → Prop where
  /-- The text of all of them is markup. -/
  | markup {names : List (List Char)} (h : ∀ name ∈ names, isRaw name = false) : OpenIn none names
  /-- The text of the innermost is no markup. -/
  | raw {name : List Char} {names : List (List Char)} (hname : isRaw name = true)
      (h : ∀ other ∈ names, isRaw other = false) : OpenIn (some name) (name :: names)

/-- A tree that is being built is sound and holds a text up to white space, and the reading is inside of
the element `raw`, if it is inside of one whose text is no markup. -/
structure Builder.Holds (raw : Option (List Char)) (text : List Char) (b : Builder) : Prop where
  /-- All nodes are sound. -/
  sound : b.Sound
  /-- The elements that are open. -/
  openIn : OpenIn raw b.names
  /-- The text that has been taken in. -/
  held : withoutBlanks b.held = withoutBlanks text

theorem isVoid_of_isRaw {name : List Char} (h : isRaw name = true) : isVoid name = false :=
  (by decide : ∀ name ∈ rawNames, isVoid name = false) name (List.contains_iff_mem.1 h)

theorem inRaw_of_openIn_none {b : Builder} (h : OpenIn none b.names) : b.inRaw = false := by
  generalize hnames : b.names = names at h
  cases h with
  | markup hall =>
    rw [Builder.inRaw, hnames]
    cases names with
    | nil => rfl
    | cons name names => exact hall name List.mem_cons_self

theorem inRaw_of_openIn_some {b : Builder} {name : List Char} (h : OpenIn (some name) b.names) :
    b.inRaw = true := by
  generalize hnames : b.names = names at h
  cases h with
  | raw hname _ =>
    rw [Builder.inRaw, hnames]
    exact hname

namespace Builder

theorem holds_empty : Holds none [] {} where
  sound := sound_empty
  openIn := .markup fun _ h => absurd h List.not_mem_nil
  held := rfl

variable {b : Builder} {raw : Option (List Char)} {text name : List Char}

/-- Text is held. -/
theorem Holds.takeText (h : Holds none text b) (s : List Char) :
    Holds none (text ++ s) (b.take (.text s)) := by
  have hraw := inRaw_of_openIn_none h.openIn
  have hrawAfter : (b.take (.text s)).inRaw = false := hraw
  refine ⟨⟨h.sound.top, h.sound.frames, fun htrue => ?_⟩, h.openIn, ?_⟩
  · rw [hrawAfter] at htrue
    cases htrue
  · have hheld : (b.take (.text s)).held = b.held ++ s := by
      simp only [Builder.held, Node.held, hraw, hrawAfter, Bool.false_eq_true, if_false]
      rw [List.append_assoc]
      rfl
    rw [hheld, withoutBlanks_append, h.held, withoutBlanks_append]

/-- Text that is no markup is held as what it displays. -/
theorem Holds.takeRaw (h : Holds (some name) text b) {s shown : List Char}
    (hs : Displays Escaped s shown) : Holds (some name) (text ++ shown) (b.take (.text s)) := by
  have hraw := inRaw_of_openIn_some h.openIn
  have hrawAfter : (b.take (.text s)).inRaw = true := hraw
  obtain ⟨before, hbefore⟩ := h.sound.pending hraw
  have hboth : Displays Escaped (b.take (.text s)).pending (before ++ shown) := hbefore.append hs
  refine ⟨⟨h.sound.top, h.sound.frames, fun _ => ⟨_, hboth⟩⟩, h.openIn, ?_⟩
  have hheld : (b.take (.text s)).held = b.held ++ shown := by
    simp only [Builder.held, Node.held, hraw, hrawAfter, if_true,
      decode_stripTags_of_displays writing_escaped hboth,
      decode_stripTags_of_displays writing_escaped hbefore]
    rw [List.append_assoc]
    rfl
  rw [hheld, withoutBlanks_append, h.held, withoutBlanks_append]

/-- Opening an element adds no text and loses none. -/
theorem Holds.openElement (h : Holds none text b) {attributes : Attributes}
    (htag : SoundTag name attributes) : (b.flush.openElement name attributes).Sound ∧
      (b.flush.openElement name attributes).pending = [] ∧
      (b.flush.openElement name attributes).names = name :: b.names ∧
      withoutBlanks (b.flush.openElement name attributes).stored = withoutBlanks text := by
  obtain ⟨hflush, hnames, hstored⟩ := h.sound.flush
  refine ⟨hflush.openElement (pending_flush b) htag, pending_flush b, congrArg (name :: ·) hnames, ?_⟩
  rw [stored_openElement, hstored, h.held]

/-- No text is read in an element that is closed at once. -/
theorem rawAfter_of_closed {attributes : Attributes} {closed : Bool}
    (h : (closed || isVoid name) = true) :
    (Token.startTag name attributes closed).rawAfter none = none := by
  cases closed with
  | true => rfl
  | false =>
    refine if_neg fun hname => ?_
    rw [Bool.false_or, isVoid_of_isRaw hname] at h
    cases h

/-- A start tag adds no text and loses none. -/
theorem Holds.takeStart (h : Holds none text b) {attributes : Attributes}
    (htag : SoundTag name attributes) (closed : Bool) :
    Holds ((Token.startTag name attributes closed).rawAfter none) text
      (b.take (.startTag name attributes closed)) := by
  obtain ⟨hopened, hpending, hnames, hstored⟩ := h.openElement htag
  have hall : ∀ other ∈ b.names, isRaw other = false := by
    have hopen := h.openIn
    cases hopen with
    | markup hall => exact hall
  by_cases hclosed : (closed || isVoid name) = true
  · obtain ⟨hclose, hnone, htail, hsame⟩ := hopened.close hpending
    have htake : b.take (.startTag name attributes closed) =
        (b.flush.openElement name attributes).close := if_pos hclosed
    rw [htake, rawAfter_of_closed hclosed]
    refine ⟨hclose, ?_, by rw [held_of_pending hnone, hsame, hstored]⟩
    rw [htail, hnames]
    exact .markup hall
  · have htake : b.take (.startTag name attributes closed) = b.flush.openElement name attributes :=
      if_neg hclosed
    obtain rfl : closed = false := eq_false_of_ne_true fun hc => hclosed (by rw [hc, Bool.true_or])
    rw [htake]
    refine ⟨hopened, ?_, by rw [held_of_pending hpending, hstored]⟩
    rw [hnames, Token.rawAfter]
    split
    · next hname => exact .raw hname hall
    · next hname => exact .markup (List.forall_mem_cons.2 ⟨eq_false_of_ne_true hname, hall⟩)

/-- Closing an element by name leaves some of the elements that are open around it. -/
theorem Sound.closeNamed (h : b.Sound) (hpending : b.pending = []) :
    ∃ n, (b.closeNamed name).Sound ∧ (b.closeNamed name).pending = [] ∧
      (b.closeNamed name).names = b.names.drop n ∧ (b.closeNamed name).stored = b.stored ∧
      (b.names.head? = some name → n = 1) := by
  unfold Builder.closeNamed
  split
  · next depth hfind =>
    refine ⟨depth + 1, ?_⟩
    obtain ⟨hmany, hnone, hdrop, hsame⟩ := h.closeMany hpending (depth + 1)
    refine ⟨hmany, hnone, hdrop, hsame, fun hhead => ?_⟩
    obtain ⟨frame, hframe, hname⟩ := Option.map_eq_some_iff.1 (List.head?_map.symm.trans hhead)
    obtain ⟨frames, hframes⟩ := List.head?_eq_some_iff.1 hframe
    rw [hframes, List.findIdx?_cons, if_pos (beq_iff_eq.2 hname)] at hfind
    rw [← Option.some.inj hfind]
  · next hfind =>
    refine ⟨0, h, hpending, rfl, rfl, fun hhead => ?_⟩
    obtain ⟨frame, hframe, hname⟩ := Option.map_eq_some_iff.1 (List.head?_map.symm.trans hhead)
    obtain ⟨frames, hframes⟩ := List.head?_eq_some_iff.1 hframe
    rw [hframes, List.findIdx?_cons, if_pos (beq_iff_eq.2 hname)] at hfind
    cases hfind

/-- An end tag adds no text and loses none. Inside of an element whose text is no markup, it is that of
the element. -/
theorem Holds.takeEnd (h : Holds raw text b) (hraw : raw = none ∨ raw = some name) :
    Holds none text (b.take (.endTag name)) := by
  obtain ⟨hflush, hnames, hstored⟩ := h.sound.flush
  obtain ⟨n, hclosed, hnone, hdrop, hsame, hone⟩ :=
    @Sound.closeNamed b.flush name hflush (pending_flush b)
  rw [hnames] at hdrop hone
  refine ⟨hclosed, ?_, ?_⟩
  · have hopen := h.openIn
    show OpenIn none (b.flush.closeNamed name).names
    rw [hdrop]
    generalize b.names = names at hopen hone
    cases hopen with
    | markup hall => exact .markup fun other hother => hall other (List.drop_subset n _ hother)
    | raw hname hall =>
      cases hraw.resolve_left (Option.some_ne_none _)
      rw [hone rfl]
      exact .markup hall
  · have hheld : (b.take (.endTag name)).held = b.flush.stored := (held_of_pending hnone).trans hsame
    rw [hheld, hstored, h.held]

/-- The nodes of a sound tree are sound and hold its text. -/
theorem Holds.finish (h : Holds raw text b) : SoundIn false b.finish ∧
    withoutBlanks (heldIn false b.finish) = withoutBlanks text := by
  obtain ⟨hflush, -, hstored⟩ := h.sound.flush
  obtain ⟨hclosed, -, hdrop, hsame⟩ := hflush.closeMany (pending_flush b) b.flush.frames.length
  have hframes : (b.flush.closeMany b.flush.frames.length).frames = [] := by
    have hlength : b.flush.names.length = b.flush.frames.length := List.length_map ..
    rw [← hlength, List.drop_length] at hdrop
    rw [← hlength]
    exact List.map_eq_nil_iff.1 hdrop
  refine ⟨soundIn_reverse hclosed.top, ?_⟩
  have hheld : heldIn false b.finish = (b.flush.closeMany b.flush.frames.length).stored := by
    rw [stored, hframes, heldOpen, List.append_nil]
    rfl
  rw [hheld, hsame, hstored, h.held]

end Builder

end Assessment.Html
