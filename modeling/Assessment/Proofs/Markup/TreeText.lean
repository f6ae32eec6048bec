import Assessment.Proofs.Markup.Shown
import Assessment.Proofs.Markup.Trim
import Assessment.Proofs.Text.Blank

/-!
# Proofs: the text of written markup

The written form of a tree shows the text of the tree (`decode_stripTags_writeAll`): its tags are tags,
and its text and the values of its attributes hold no bracket. Trimming keeps everything of the text
that is no white space (`inks_trimEdge`).
-/

namespace Assessment.Markup

open Assessment.Text

/-! ## The text of trees -/

theorem Attributed.Plain.unbracketed {attributes : Attributed} (h : attributes.Plain) :
    Unbracketed (writeAttributes attributes) := by
  intro c hc
  obtain ⟨⟨name, value⟩, hmem, hc⟩ := List.mem_flatMap.1 hc
  have hname : Unbracketed name := fun d hd =>
    (by decide : ∀ d ∈ plainChars, d ≠ '<' ∧ d ≠ '>') d
      (mem_plainChars_of_isPlainName (h _ hmem) d hd)
  have hnamed : Unbracketed (' ' :: name) := .cons (by decide) (by decide) hname
  cases value with
  | none => exact hnamed c hc
  | some value =>
    have hvalue := (unbracketed_escape value).append (by decide : Unbracketed ['\x22'])
    have hquoted := (by decide : Unbracketed "=\"".toList).append hvalue
    refine (hnamed.append hquoted) c ?_
    simpa [writeAttribute] using hc

namespace Tree

mutual

/-- The text in a piece of markup. -/
def shownText : Tree → List Char
  | .text s => s
  | .void _ _ => []
  | .element _ _ children => shownTextAll children

/-- The text in some pieces of markup. -/
def shownTextAll : List Tree → List Char
  | [] => []
  | tree :: trees => shownText tree ++ shownTextAll trees

end

theorem unbracketed_of_isPlainName {name : List Char} (h : isPlainName name) : Unbracketed name :=
  fun c hc => (by decide : ∀ c ∈ plainChars, c ≠ '<' ∧ c ≠ '>') c
    (mem_plainChars_of_isPlainName h c hc)

theorem isTag_start {name : List Char} {attributes : Attributed} (hname : isPlainName name)
    (h : attributes.Plain) : IsTag ('<' :: (name ++ writeAttributes attributes) ++ ['>']) :=
  .intro ((unbracketed_of_isPlainName hname).append h.unbracketed)

theorem isTag_end {name : List Char} (h : isPlainName name) :
    IsTag ('<' :: ('/' :: name) ++ ['>']) :=
  .intro (.cons (by decide) (by decide) (unbracketed_of_isPlainName h))

theorem isTag_write_void {name : List Char} {attributes : Attributed} (hname : isPlainName name)
    (h : attributes.Plain) : IsTag (Tree.void name attributes).write := by
  have hinside := ((unbracketed_of_isPlainName hname).append h.unbracketed).append
    (by decide : Unbracketed " /".toList)
  rw [write]
  simpa using IsTag.intro hinside

mutual

theorem shows_write : ∀ {tree : Tree}, tree.Plain → Shows tree.write (escape tree.shownText)
  | .text s, _ => .of_unbracketed (unbracketed_escape s)
  | .void name attributes, h => .of_isTag (isTag_write_void h.1 h.2)
  | .element name attributes children, h => by
    have hstart := Shows.of_isTag (isTag_start h.1 h.2.1)
    have hinside := shows_writeAll h.2.2
    have hend := Shows.of_isTag (isTag_end h.1)
    rw [write, shownText]
    simpa using hstart.append (hinside.append hend)

/-- Written markup shows its text. -/
theorem shows_writeAll : ∀ {trees : List Tree}, PlainAll trees →
    Shows (writeAll trees) (escape (shownTextAll trees))
  | [], _ => .nil
  | tree :: trees, h => by
    rw [writeAll, shownTextAll, escape_append]
    exact (shows_write h.1).append (shows_writeAll h.2)

end

/-- Without the tags and decoded, written markup is its text. -/
theorem decode_stripTags_writeAll {trees : List Tree} (h : PlainAll trees) :
    Entity.decode (stripTags (writeAll trees)) = shownTextAll trees := by
  rw [stripTags_of_shows (shows_writeAll h), Entity.decode_escape]

/-! ## Trimming keeps what is no white space -/

/-- What each of some pieces of markup shows that is no white space, where that is anything. -/
def inks (trees : List Tree) : List (List Char) :=
  (trees.map fun tree => withoutBlanks tree.shownText).filter fun ink => !ink.isEmpty

theorem flatten_inks (trees : List Tree) :
    (inks trees).flatten = withoutBlanks (shownTextAll trees) := by
  induction trees with
  | nil => rfl
  | cons tree trees ih =>
    have hfilter : (inks (tree :: trees)).flatten =
        withoutBlanks tree.shownText ++ (inks trees).flatten := by
      by_cases h : (withoutBlanks tree.shownText).isEmpty
      · rw [List.isEmpty_iff.1 h]
        simp [inks, h]
      · simp [inks, h]
    rw [hfilter, ih, shownTextAll, withoutBlanks_append]

theorem inks_reverse (trees : List Tree) : inks trees.reverse = (inks trees).reverse := by
  rw [inks, inks, List.map_reverse, List.filter_reverse]

theorem withoutBlanks_along (backward : Bool) (s : List Char) :
    withoutBlanks (along backward ((along backward s).dropWhile isBlank)) = withoutBlanks s := by
  cases backward with
  | false => exact withoutBlanks_dropWhile s
  | true =>
    have h := withoutBlanks_dropWhile s.reverse
    simp only [withoutBlanks, List.filter_reverse] at h
    simp only [along, withoutBlanks, if_true, List.filter_reverse, h, List.reverse_reverse]

theorem inks_dropEdge (backward : Bool) (trees : List Tree) :
    inks (dropEdge backward trees) = inks trees := by
  induction trees with
  | nil => rfl
  | cons tree trees ih =>
    cases tree with
    | void name attributes => rfl
    | element name attributes children => rfl
    | text s =>
      rw [dropEdge]
      by_cases hs : isBlankText s
      · have hnone : withoutBlanks (Tree.text s).shownText = [] := withoutBlanks_of_isBlankText hs
        rw [if_pos hs, ih]
        simp [inks, hnone]
      · rw [if_neg hs]
        simp [inks, shownText, withoutBlanks_along]

theorem inks_trimEdge (backward : Bool) (trees : List Tree) :
    inks (trimEdge backward trees) = inks trees := by
  unfold trimEdge
  split
  · rfl
  · exact inks_dropEdge backward trees

theorem inks_trimEnd (trees : List Tree) : inks (trimEnd trees) = inks trees := by
  rw [trimEnd, inks_reverse, inks_trimEdge, inks_reverse, List.reverse_reverse]

end Tree

end Assessment.Markup
