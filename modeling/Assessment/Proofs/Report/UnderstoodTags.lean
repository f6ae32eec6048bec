import Assessment.Proofs.Html.Twins
import Assessment.Proofs.Report.LegibleTags

/-!
# Proofs: elements with any names

Without its prefix, the name of an element need not begin with a letter. HTML has no such tags: what is
written for the start tag is read as text, and what is written for the end tag as a comment. So the tags of
a report are understood whatever the elements are called (`tagRule_understood`), if not always as tags.
-/

namespace Assessment.Html

open Assessment.Markup Assessment.Text StartTag

/-! ## Brackets that begin no tag -/

/-- The character begins neither a tag nor other markup. -/
def BeginsText (c : Char) : Prop := c.isAlpha = false ∧ c ∉ ['/', '?', '!']

instance (c : Char) : Decidable (BeginsText c) := inferInstanceAs (Decidable (_ ∧ _))

theorem inMarkup_of_beginsText {c : Char} (hc : BeginsText c) (s : List Char) :
    Step.inMarkup false ('<' :: c :: s) = .read (.text ['<']) (c :: s) := by
  obtain ⟨hletter, hmark⟩ := hc
  have hread : Markup.read (c :: s) = .found (.text ['<']) (c :: s) := by
    unfold Markup.read
    split
    · next h => cases h
    · next h => exact absurd (by simp [(List.cons.inj h).1]) hmark
    · next h => exact absurd (by simp [(List.cons.inj h).1]) hmark
    · next h => exact absurd (by simp [(List.cons.inj h).1]) hmark
    · next h => rw [← (List.cons.inj h).1, if_neg (ne_true_of_eq_false hletter)]
  show Step.atMarkup false (c :: s) = _
  simp only [Step.atMarkup, List.isEmpty_cons, hread]
  rfl

/-- An opening bracket before such a character is text. -/
theorem lexes_bracket {c : Char} {s : List Char} {tokens : List Token} (hc : BeginsText c)
    (h : Lexes (c :: s) tokens) : Lexes ('<' :: c :: s) (.text ['<'] :: tokens) := by
  intro b rest
  have hstep := readInto_of_read (b := b) (inMarkup_of_beginsText hc (s ++ rest)) rfl
  exact hstep.trans (h _ rest)

theorem not_opensRaw_of_beginsText {c : Char} {name s : List Char} (hc : BeginsText c) :
    ¬ OpensRaw name ('<' :: c :: s) := by
  rintro ⟨-, attributes, hread⟩
  have hstart := hread []
  rw [List.append_nil, inMarkup_of_beginsText hc s] at hstart
  cases hstart

/-- Characters that stand for themselves are text. -/
theorem exists_lexes_of_plain {s : List Char} (h : ∀ c ∈ s, c ≠ '<' ∧ c ≠ '&') :
    ∃ tokens, Lexes s tokens := by
  induction s with
  | nil => exact ⟨[], .nil⟩
  | cons c s ih =>
    obtain ⟨hc, hs⟩ := List.forall_mem_cons.1 h
    obtain ⟨tokens, htokens⟩ := ih hs
    exact ⟨_, (lexes_singleton hc).append htokens⟩

/-- The tag is understood, and begins like one of an element whose text is no markup if it is one. -/
def ReadTag (tag : List Char) : Prop :=
  Understood tag ∧ ∀ name, OpensRaw name tag → beginsRaw tag = true

theorem Legible.readTag {tag : List Char} (h : Legible tag) : ReadTag tag := by
  refine ⟨?_, fun _ hopens => h.beginsRaw hopens⟩
  cases h with
  | opening hc hname hs => exact .inl ⟨_, readAs_startTag hc hname hs⟩
  | ending hc hname => exact .inl ⟨_, readAs_endTag hc hname⟩

end Assessment.Html

namespace Assessment.Report

open Assessment.Html (Lexes Understood ReadTag BeginsText)
open Assessment.Item Assessment.Text Assessment.Markup Assessment.Xml

/-! ## The tags of elements -/

theorem plain_of_nameLike {s : List Char} (h : NameLike s) : ∀ c ∈ s, c ≠ '<' ∧ c ≠ '&' := by
  intro c hc
  refine ⟨(h.ne hc).1, ?_⟩
  rintro rfl
  rcases h _ hc with h | h
  · exact absurd h (by decide +kernel)
  · exact absurd h (by decide)

theorem beginsText_of_nameLike {c : Char} {s : List Char} (h : NameLike (c :: s))
    (hletter : c.isAlpha = false) : BeginsText c := by
  refine ⟨hletter, fun hmem => ?_⟩
  have hnot : ∀ d ∈ ['/', '?', '!'], isNameChar d = false ∧ d ≠ ':' := by decide +kernel
  rcases h c List.mem_cons_self with hname | hcolon
  · exact absurd hname (ne_true_of_eq_false (hnot c hmem).1)
  · exact (hnot c hmem).2 hcolon

/-- Attributes are text where they stand in no tag. -/
theorem exists_lexes_writeAttributes {attributes : Attributes}
    (h : ∀ a ∈ attributes, IsName (attributeName a.1)) :
    ∃ tokens, Lexes (Xml.writeAttributes attributes) tokens := by
  induction attributes with
  | nil => exact ⟨[], .nil⟩
  | cons a attributes ih =>
    obtain ⟨key, value⟩ := a
    obtain ⟨hkey, hothers⟩ := List.forall_mem_cons.1 h
    obtain ⟨tokens, htokens⟩ := ih hothers
    rw [writeAttributes_cons]
    split
    · exact ⟨tokens, htokens⟩
    · have hspace : Lexes [' '] [.text [' ']] := Html.lexes_singleton (by decide)
      obtain ⟨name, hname⟩ := Html.exists_lexes_of_plain (plain_of_nameLike hkey.1)
      obtain ⟨sign, hsign⟩ := Html.exists_lexes_of_plain (s := "=\"".toList) (by decide)
      have hquote : Lexes ['\x22'] [.text ['\x22']] := Html.lexes_singleton (by decide)
      have hone := (((hspace.append hname).append hsign).append (Html.lexes_escape value)).append hquote
      exact ⟨_, hone.append htokens⟩

section Tags

variable {name : List Char} {attributes : Attributes}

/-- Without a letter at its beginning, the name and the attributes of an element begin like text. -/
theorem exists_beginsText (hlike : NameLike name) (hletter : ¬ name.head?.any Char.isAlpha = true)
    (hattributes : ∀ a ∈ attributes, IsName (attributeName a.1)) :
    ∃ c rest, name ++ Xml.writeAttributes attributes ++ ['>'] = c :: rest ∧ BeginsText c := by
  cases name with
  | nil =>
    rcases (attributePart_writeAttributes hattributes).spaced with hnone | ⟨rest, hrest⟩
    · exact ⟨'>', [], by rw [hnone]; rfl, by decide⟩
    · exact ⟨' ', rest ++ ['>'], by rw [hrest]; rfl, by decide⟩
  | cons c name =>
    exact ⟨c, name ++ Xml.writeAttributes attributes ++ ['>'], by simp,
      beginsText_of_nameLike hlike (eq_false_of_ne_true hletter)⟩

/-- What is written for a start tag whose name begins with no letter is text, and opens nothing. -/
theorem understood_openTag (hlike : NameLike name) (hletter : ¬ name.head?.any Char.isAlpha = true)
    (hattributes : ∀ a ∈ attributes, IsName (attributeName a.1)) :
    Understood (openTag name (Xml.writeAttributes attributes)) ∧
      ∀ raw, ¬ Html.OpensRaw raw (openTag name (Xml.writeAttributes attributes)) := by
  obtain ⟨c, rest, htext, hc⟩ := exists_beginsText hlike hletter hattributes
  obtain ⟨first, hname⟩ := Html.exists_lexes_of_plain (plain_of_nameLike hlike)
  obtain ⟨second, hpart⟩ := exists_lexes_writeAttributes hattributes
  have hend : Lexes ['>'] [.text ['>']] := Html.lexes_singleton (by decide)
  have hall := (hname.append hpart).append hend
  rw [htext] at hall
  have hopen : openTag name (Xml.writeAttributes attributes) = '<' :: c :: rest :=
    congrArg ('<' :: ·) htext
  rw [hopen]
  exact ⟨.inr ⟨_, Html.lexes_bracket hc hall⟩, fun raw => Html.not_opensRaw_of_beginsText hc⟩

/-- The start tag of an element is understood. -/
theorem readTag_openTag (hlike : NameLike name)
    (hattributes : ∀ a ∈ attributes, IsName (attributeName a.1)) :
    ReadTag (openTag name (Xml.writeAttributes attributes)) := by
  by_cases hletter : name.head?.any Char.isAlpha = true
  · obtain ⟨c, rest, rfl, hc⟩ := exists_cons_of_letter hletter
    obtain ⟨found, hreads, -⟩ := readablePart_writeAttributes hattributes _ _ .bracket
    have hunbroken := unbroken_of_nameLike hlike
    have hopen : '<' :: (c :: rest ++ (Xml.writeAttributes attributes ++ ['>'])) =
        openTag (c :: rest) (Xml.writeAttributes attributes) := by simp [openTag]
    rw [← hopen]
    exact ⟨.inl ⟨_, Html.readAs_startTag hc hunbroken hreads⟩,
      fun _ hopens => Html.beginsRaw_of_readsAll hc hunbroken hreads hopens⟩
  · obtain ⟨hunderstood, hnot⟩ := understood_openTag hlike hletter hattributes
    exact ⟨hunderstood, fun raw hopens => absurd hopens (hnot raw)⟩

/-- What is written for an end tag is understood. -/
theorem readTag_closeTag (hlike : NameLike name) : ReadTag (closeTag name) := by
  have hbracket : '>' ∉ name := fun hmem => (hlike.unbracketed _ hmem).2 rfl
  exact ⟨.inl ⟨_, Html.readAs_ending hbracket⟩,
    fun raw hopens => absurd hopens (not_opensRaw_closeTag hbracket)⟩

end Tags

/-- The tags of elements are understood, whatever the elements are called. -/
theorem tagRule_understood : TagRule ReadTag fun e => IfSearched SpelledReadably (startOf e) where
  legible h := h.readTag
  beginsRaw h := h.2 _
  searched h := h
  tags hnamed _ :=
    have hlike := hnamed.1.of_subset (htmlName_subset _)
    ⟨readTag_openTag hlike hnamed.2.1, readTag_closeTag hlike⟩
  ended {e raw} hnamed _ hopens := by
    have hlike := hnamed.1.of_subset (htmlName_subset _)
    by_cases hletter : (htmlName e.name).head?.any Char.isAlpha = true
    · exact endsRaw_closeTag hletter hlike (readablePart_writeAttributes hnamed.2.1) hopens
    · exact absurd hopens ((understood_openTag hlike hletter hnamed.2.1).2 raw)

end Assessment.Report
