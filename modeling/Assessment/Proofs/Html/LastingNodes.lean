import Assessment.Proofs.Html.Holding
import Assessment.Proofs.Html.LastingMarkup
import Assessment.Proofs.Html.LastingText

/-!
# Proofs: elements that last

The nodes that any text makes *last* (`lastingAll_of_parse`): when they are printed and read again, the
elements come out in the same order, whatever else the text held. They may be nested in another way, since
an end tag that is printed need not be read as one of the same name, and attributes come out in the order in
which they are printed. The one exception are marked sections with a bracket in them.
-/

namespace Assessment.Html

open Assessment.Markup Assessment.Text

/-! ## Nodes that last -/

/-- What an element holds of which the text is no markup: text that looks like no end tag of it. -/
def RawContent (name : List Char) : List Node → Prop
  | [] => True
  | [.text s] => StaysText name s []
  | _ => False

namespace Node

mutual

/-- The elements at and below the node are read again from what is printed of it. -/
def Lasting : Node → Prop
  | .text _ => True
  | .special kind s => kind ≠ .declaration → LastingSpecial kind s
  | .element name attributes children =>
    LastingTag name attributes ∧ (isVoid name = true → children = []) ∧
      (isRaw name = true → RawContent name children) ∧ (isRaw name = false → LastingAll children)

/-- The elements among some nodes and below them are read again from what is printed of them. -/
def LastingAll : List Node → Prop
  | [] => True
  | node :: nodes => Lasting node ∧ LastingAll nodes

end

theorem lastingAll_iff {nodes : List Node} : LastingAll nodes ↔ ∀ node ∈ nodes, Lasting node := by
  induction nodes with
  | nil => exact ⟨fun _ _ h => absurd h List.not_mem_nil, fun _ => trivial⟩
  | cons node nodes ih => rw [LastingAll, ih, List.forall_mem_cons]

theorem lastingAll_reverse {nodes : List Node} (h : LastingAll nodes) : LastingAll nodes.reverse :=
  lastingAll_iff.2 fun node hnode => lastingAll_iff.1 h node (List.mem_reverse.1 hnode)

end Node

open Node

theorem lastingSpecial_shorten {kind : Special} {s : List Char} (h : LastingSpecial kind s) :
    LastingSpecial kind (shorten s) := by
  unfold shorten
  split
  · split
    · exact lastingSpecial_of_not_mem (by decide) kind
    · exact lastingSpecial_of_not_mem (by decide) kind
  · exact h

theorem staysText_shorten {name s : List Char} (hraw : isRaw name = true) (h : StaysText name s []) :
    StaysText name (shorten s) [] := by
  unfold shorten
  split
  · split
    · exact staysText_of_not_mem (by decide) hraw []
    · exact staysText_of_not_mem (by decide) hraw []
  · exact h

theorem LastingTag.elementAttributes {name : List Char} {attributes : Attributes}
    (h : LastingTag name attributes) : LastingTag name (elementAttributes name attributes) :=
  h.of_keys (keys_elementAttributes name attributes)

/-- An element that holds nothing lasts if its tag does. -/
theorem lasting_empty {name : List Char} {attributes : Attributes} (h : LastingTag name attributes) :
    Lasting (.element name attributes []) :=
  ⟨h, fun _ => rfl, fun _ => trivial, fun _ => trivial⟩

/-! ## Trees that are being built -/

/-- An open element of which the text is markup, and all that it holds lasts. -/
structure Frame.Lasting (frame : Frame) : Prop where
  /-- Its tag lasts. -/
  tag : LastingTag frame.name frame.attributes
  /-- It may hold something. -/
  not_void : isVoid frame.name = false
  /-- Its text is markup. -/
  not_raw : isRaw frame.name = false
  /-- What it holds so far lasts. -/
  children : LastingAll frame.children

namespace Builder

/-- The text of all open elements is markup, and all nodes so far last. -/
structure Lasting (b : Builder) : Prop where
  /-- What lies outside of all elements lasts. -/
  top : LastingAll b.top
  /-- The open elements last. -/
  frames : ∀ frame ∈ b.frames, frame.Lasting

/-- All nodes so far last, where the reading is before the text `rest`, and inside of the element `raw` if
it is inside of one of which the text is no markup. -/
inductive LastingIn : Option (List Char) → List Char → Builder → Prop where
  /-- Text is markup. -/
  | markup {rest : List Char} {b : Builder} (h : b.Lasting) : LastingIn none rest b
  /-- Text is no markup. -/
  | raw {name pending rest : List Char} {attributes : Attributes} {frames : List Frame}
      {top : List Node} (hraw : isRaw name = true) (htag : LastingTag name attributes)
      (h : Lasting ⟨[], frames, top⟩) (hpending : StaysText name pending rest) :
      LastingIn (some name) rest ⟨pending, ⟨name, attributes, []⟩ :: frames, top⟩

variable {b : Builder} {name : List Char} {attributes : Attributes}

theorem lasting_empty : ({} : Builder).Lasting where
  top := trivial
  frames _ h := absurd h List.not_mem_nil

theorem Lasting.of_pending (h : b.Lasting) (s : List Char) : Lasting { b with pending := s } where
  top := h.top
  frames := h.frames

theorem Lasting.add (h : b.Lasting) {node : Node} (hnode : node.Lasting) : (b.add node).Lasting := by
  unfold Builder.add
  split
  · exact ⟨⟨hnode, h.top⟩, h.frames⟩
  · next frame frames hframes =>
    have hall := h.frames
    rw [hframes] at hall
    obtain ⟨hframe, hothers⟩ := List.forall_mem_cons.1 hall
    exact ⟨h.top, List.forall_mem_cons.2
      ⟨⟨hframe.tag, hframe.not_void, hframe.not_raw, hnode, hframe.children⟩, hothers⟩⟩

theorem Lasting.flush (h : b.Lasting) : b.flush.Lasting := by
  unfold Builder.flush
  split
  · exact h
  · have htext : Node.Lasting (.text (b.kept b.pending)) := trivial
    exact (h.add htext).of_pending []

theorem Lasting.close (h : b.Lasting) : b.close.Lasting := by
  unfold Builder.close
  split
  · exact h
  · next frame frames hframes =>
    have hall := h.frames
    rw [hframes] at hall
    obtain ⟨hframe, hothers⟩ := List.forall_mem_cons.1 hall
    have helement : Node.Lasting (.element frame.name frame.attributes frame.children.reverse) :=
      ⟨hframe.tag, fun hvoid => absurd hvoid (ne_true_of_eq_false hframe.not_void),
        fun hraw => absurd hraw (ne_true_of_eq_false hframe.not_raw),
        fun _ => lastingAll_reverse hframe.children⟩
    have hbelow : Lasting { b with frames := frames } := ⟨h.top, hothers⟩
    exact hbelow.add helement

theorem Lasting.closeMany (h : b.Lasting) (n : Nat) : (b.closeMany n).Lasting := by
  induction n generalizing b with
  | zero => exact h
  | succ n ih => exact ih h.close

theorem Lasting.closeNamed (h : b.Lasting) : (b.closeNamed name).Lasting := by
  unfold Builder.closeNamed
  split
  · exact h.closeMany _
  · exact h

/-- Closing an element of which the text is no markup. -/
theorem lasting_flush_close {pending : List Char} {frames : List Frame} {top : List Node}
    (hraw : isRaw name = true) (htag : LastingTag name attributes) (h : Lasting ⟨[], frames, top⟩)
    (hpending : StaysText name pending []) :
    (flush ⟨pending, ⟨name, attributes, []⟩ :: frames, top⟩).close.Lasting := by
  have hclosed {children : List Node} (hcontent : RawContent name children) :
      (add (.element name attributes children) ⟨[], frames, top⟩).Lasting :=
    h.add ⟨htag, fun hvoid => absurd hvoid (ne_true_of_eq_false (isVoid_of_isRaw hraw)),
      fun _ => hcontent, fun hmarkup => absurd hraw (ne_true_of_eq_false hmarkup)⟩
  cases pending with
  | nil => exact hclosed trivial
  | cons c pending =>
    have hkept : StaysText name
        (kept (c :: pending) ⟨c :: pending, ⟨name, attributes, []⟩ :: frames, top⟩) [] := by
      unfold kept
      split
      · exact hpending
      · exact staysText_shorten hraw hpending
    exact hclosed hkept

/-- A step of the reading where text is markup. -/
theorem Lasting.take (h : b.Lasting) {token : Token} (htoken : token.Lasting) (rest : List Char) :
    LastingIn (token.rawAfter none) rest (b.take token) := by
  cases token with
  | text s => exact .markup (h.of_pending _)
  | special kind s =>
    refine .markup (h.flush.add fun hkind => ?_)
    unfold kept
    split
    · exact htoken hkind
    · exact lastingSpecial_shorten (htoken hkind)
  | endTag name => exact .markup h.flush.closeNamed
  | startTag name attributes closed =>
    have htag : LastingTag name (elementAttributes name attributes) := htoken.elementAttributes
    by_cases hclosed : (closed || isVoid name) = true
    · have htake : b.take (.startTag name attributes closed) =
          b.flush.add (.element name (elementAttributes name attributes) []) := if_pos hclosed
      rw [htake, rawAfter_of_closed hclosed]
      exact .markup (h.flush.add (Html.lasting_empty htag))
    · have htake : b.take (.startTag name attributes closed) = b.flush.openElement name attributes :=
        if_neg hclosed
      obtain ⟨rfl, hvoid⟩ : closed = false ∧ isVoid name = false := by simpa using hclosed
      have hpending : b.flush = ⟨[], b.flush.frames, b.flush.top⟩ := by
        rw [← pending_flush b]
      rw [htake, Token.rawAfter]
      split
      · next hraw =>
        rw [hpending]
        exact .raw hraw htag (hpending ▸ h.flush) (staysText_nil name rest)
      · next hraw =>
        exact .markup ⟨h.flush.top, List.forall_mem_cons.2
          ⟨⟨htag, hvoid, eq_false_of_ne_true hraw, trivial⟩, h.flush.frames⟩⟩

theorem names_flush (b : Builder) : b.flush.names = b.names := by
  unfold Builder.flush
  split
  · rfl
  · exact names_add _ b

theorem closeNamed_of_names {names : List (List Char)} (h : b.names = name :: names) :
    b.closeNamed name = b.close := by
  obtain ⟨frame, frames, hframes, hname, -⟩ := List.map_eq_cons_iff.1 h
  have hfind : (b.frames.findIdx? fun other => other.name == name) = some 0 := by
    rw [hframes, List.findIdx?_cons, if_pos (beq_iff_eq.2 hname)]
  simp only [closeNamed, hfind]
  rfl

variable {last : Bool} {raw : Option (List Char)} {s rest : List Char}

/-- A step of the reading. -/
theorem LastingIn.step (h : LastingIn raw s b) {token : Token}
    (hstep : Step.next last raw s = .read token rest) :
    LastingIn (token.rawAfter raw) rest (b.take token) := by
  cases h with
  | markup h => exact h.take (Step.lasting_inMarkup hstep) rest
  | raw hraw htag h hpending =>
    rcases inRaw_cases hraw hstep with rfl | ⟨text, rfl, rfl, htext⟩
    · have hclose := lasting_flush_close hraw htag h (hpending.before_nil hraw)
      rw [← closeNamed_of_names (names_flush _)] at hclose
      exact .markup hclose
    · exact .raw hraw htag h (hpending.append htext)

/-- The end of a reading. -/
theorem LastingIn.halt (h : LastingIn raw s b) {text : List Char}
    (hstep : Step.next last raw s = .halt text rest) : LastingIn raw rest (b.take (.text text)) := by
  cases h with
  | markup h => exact .markup (h.of_pending _)
  | @raw name _ _ _ _ _ hraw htag h hpending =>
    have hhalt : text = [] ∧ rest = s := by
      have hraw : Step.inRaw name s = .halt text rest := hstep
      unfold Step.inRaw at hraw
      split at hraw
      · cases hraw
        exact ⟨rfl, rfl⟩
      · split at hraw
        · split at hraw
          · cases hraw
          · cases hraw
            exact ⟨rfl, rfl⟩
        · cases hraw
          exact ⟨rfl, rfl⟩
      · cases hraw
    obtain ⟨rfl, rfl⟩ := hhalt
    rw [take_text_nil]
    exact .raw hraw htag h hpending

/-- A whole reading. -/
theorem LastingIn.run (h : LastingIn raw s b) {r : Run} (hrun : Html.run last raw s = some r) :
    LastingIn r.raw r.rest (r.tokens.foldl Builder.take b) := by
  fun_induction Html.run last raw s generalizing b r with
  | case1 raw s token rest hstep ih =>
    obtain ⟨more, hmore, rfl⟩ := Option.map_eq_some_iff.1 hrun
    exact ih (h.step hstep) hmore
  | case2 raw s text rest hstep =>
    cases hrun
    exact h.halt hstep
  | case3 => cases hrun

/-- All nodes last where the reading ends. -/
theorem LastingIn.finish (h : LastingIn raw rest b) : LastingAll b.finish := by
  cases h with
  | markup h => exact lastingAll_reverse (h.flush.closeMany _).top
  | @raw name pending _ attributes frames top hraw htag h hpending =>
    have hclose := lasting_flush_close hraw htag h (hpending.before_nil hraw)
    have hlength : (flush ⟨pending, ⟨name, attributes, []⟩ :: frames, top⟩).frames.length =
        frames.length + 1 := by
      have hnames := congrArg List.length (names_flush ⟨pending, ⟨name, attributes, []⟩ :: frames, top⟩)
      simpa [names] using hnames
    unfold Builder.finish
    dsimp only
    rw [hlength]
    exact lastingAll_reverse (hclose.closeMany _).top

end Builder

/-- The nodes that any text makes last. -/
theorem lastingAll_of_parse {s : List Char} {nodes : List Node} (h : parse s = some nodes) :
    LastingAll nodes := by
  obtain ⟨tokens, htokens, rfl⟩ := Option.map_eq_some_iff.1 h
  obtain ⟨first, hfirst, htokens⟩ := Option.bind_eq_some_iff.1 htokens
  obtain ⟨second, hsecond, htokens⟩ := Option.bind_eq_some_iff.1 htokens
  cases htokens
  have hone := (Builder.LastingIn.markup Builder.lasting_empty).run hfirst
  have htwo := hone.run hsecond
  rw [ofTokens, List.foldl_append, List.foldl_append]
  cases hraw : second.raw with
  | none =>
    rw [hraw] at htwo
    generalize second.tokens.foldl Builder.take (first.tokens.foldl Builder.take {}) = b at htwo
    cases htwo with
    | markup h =>
      have hlast : Builder.LastingIn none [] (b.take (.text second.rest)) := .markup (h.of_pending _)
      exact hlast.finish
  | some name => exact htwo.finish

end Assessment.Html
