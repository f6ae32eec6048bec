import Assessment.Html.Tree

/-!
# Proofs: start tags and elements

Whatever end tags there are, the elements of the nodes that tokens make, in document order, are those of
the start tags, one by one (`elementsOf_ofTokens`): an end tag moves elements into others, but it neither
adds nor drops nor swaps any.
-/

namespace Assessment.Html

/-- The element that a token opens. -/
def Token.opened? : Token → Option (List Char × Attributes)
  | .startTag name attributes _ => some (name, elementAttributes name attributes)
  | _ => none

namespace Node

theorem elementsOf_append (nodes more : List Node) :
    elementsOf (nodes ++ more) = elementsOf nodes ++ elementsOf more := by
  induction nodes with
  | nil => rfl
  | cons node nodes ih => rw [List.cons_append, elementsOf, elementsOf, ih, List.append_assoc]

theorem elementsOf_reverse_cons (node : Node) (nodes : List Node) :
    elementsOf (node :: nodes).reverse = elementsOf nodes.reverse ++ elements node := by
  rw [List.reverse_cons, elementsOf_append, elementsOf, elementsOf, List.append_nil]

end Node

open Node

/-- The elements of an open element so far, itself first. -/
def Frame.opened (frame : Frame) : List (List Char × Attributes) :=
  (frame.name, frame.attributes) :: elementsOf frame.children.reverse

namespace Builder

/-- The elements so far, in document order. -/
def opened (b : Builder) : List (List Char × Attributes) :=
  elementsOf b.top.reverse ++ b.frames.reverse.flatMap Frame.opened

theorem opened_add (node : Node) (b : Builder) :
    (b.add node).opened = b.opened ++ elements node := by
  unfold add
  split
  · next h => simp only [opened, h, elementsOf_reverse_cons, List.reverse_nil, List.flatMap_nil,
      List.append_nil]
  · next frame frames h =>
    have hframe : Frame.opened { frame with children := node :: frame.children } =
        frame.opened ++ elements node := by
      rw [Frame.opened, Frame.opened, elementsOf_reverse_cons, List.cons_append]
    simp only [opened, h, List.reverse_cons, List.flatMap_append, List.flatMap_singleton, hframe,
      List.append_assoc]

theorem opened_flush (b : Builder) : b.flush.opened = b.opened := by
  unfold flush
  split
  · rfl
  · have hadd := opened_add (.text (b.kept b.pending)) b
    rw [elements, List.append_nil] at hadd
    · exact hadd
    · simp

theorem opened_close (b : Builder) : b.close.opened = b.opened := by
  unfold close
  split
  · rfl
  · next frame frames h =>
    rw [opened_add, elements]
    simp only [opened, h, List.reverse_cons, List.flatMap_append, List.flatMap_singleton,
      List.append_assoc]
    rfl

theorem opened_closeMany (n : Nat) (b : Builder) : (b.closeMany n).opened = b.opened := by
  induction n generalizing b with
  | zero => rfl
  | succ n ih => rw [closeMany, ih, opened_close]

theorem opened_closeNamed (name : List Char) (b : Builder) : (b.closeNamed name).opened = b.opened := by
  unfold closeNamed
  split
  · exact opened_closeMany _ b
  · rfl

theorem opened_openElement (name : List Char) (attributes : Attributes) (b : Builder) :
    (b.openElement name attributes).opened = b.opened ++ [(name, elementAttributes name attributes)] := by
  have hframe : Frame.opened ⟨name, elementAttributes name attributes, []⟩ =
      [(name, elementAttributes name attributes)] := rfl
  simp only [opened, openElement, List.reverse_cons, List.flatMap_append, List.flatMap_singleton, hframe,
    List.append_assoc]

/-- A token adds the element that it opens. -/
theorem opened_take (token : Token) (b : Builder) :
    (b.take token).opened = b.opened ++ token.opened?.toList := by
  cases token with
  | text s =>
    rw [Token.opened?, Option.toList_none, List.append_nil]
    · rfl
    · simp
  | special kind s =>
    rw [take, opened_add, opened_flush, elements, Token.opened?]
    · rfl
    · simp
    · simp
  | startTag name attributes closed =>
    have hopen : (b.flush.openElement name attributes).opened =
        b.opened ++ [(name, elementAttributes name attributes)] := by
      rw [opened_openElement, opened_flush]
    rw [take, Token.opened?, Option.toList_some]
    split
    · exact (opened_close _).trans hopen
    · exact hopen
  | endTag name =>
    rw [take, opened_closeNamed, opened_flush, Token.opened?, Option.toList_none, List.append_nil]
    simp

theorem opened_foldl_take (tokens : List Token) (b : Builder) :
    (tokens.foldl take b).opened = b.opened ++ tokens.filterMap Token.opened? := by
  induction tokens generalizing b with
  | nil => exact (List.append_nil _).symm
  | cons token tokens ih =>
    rw [List.foldl_cons, ih, opened_take, List.append_assoc, List.filterMap_cons]
    cases token.opened? with
    | none => rfl
    | some element => rfl

theorem length_frames_close (b : Builder) : b.close.frames.length = b.frames.length - 1 := by
  have hadd (node : Node) (c : Builder) : (c.add node).frames.length = c.frames.length := by
    unfold add
    split
    · rfl
    · next h => rw [h, List.length_cons, List.length_cons]
  unfold close
  split
  · next h => rw [h, List.length_nil]
  · next h => rw [hadd, h, List.length_cons, Nat.add_sub_cancel]

theorem length_frames_closeMany (n : Nat) (b : Builder) :
    (b.closeMany n).frames.length = b.frames.length - n := by
  induction n generalizing b with
  | zero => rfl
  | succ n ih => rw [closeMany, ih, length_frames_close, Nat.sub_sub, Nat.add_comm]

theorem elementsOf_finish (b : Builder) : elementsOf b.finish = b.opened := by
  have hframes : (b.flush.closeMany b.flush.frames.length).frames = [] := by
    rw [← List.length_eq_zero_iff, length_frames_closeMany, Nat.sub_self]
  have hopened : (b.flush.closeMany b.flush.frames.length).opened = b.opened := by
    rw [opened_closeMany, opened_flush]
  rw [opened, hframes, List.reverse_nil, List.flatMap_nil, List.append_nil] at hopened
  exact hopened

end Builder

/-- The elements that tokens make are those that they open. -/
theorem elementsOf_ofTokens (tokens : List Token) :
    elementsOf (ofTokens tokens) = tokens.filterMap Token.opened? := by
  rw [ofTokens, Builder.elementsOf_finish, Builder.opened_foldl_take]
  rfl

end Assessment.Html
