import Assessment.Proofs.Html.Holding
import Assessment.Proofs.Html.RawText
import Assessment.Proofs.Markup.StartTag

/-!
# Proofs: reading what is displayed

HTML of tags that can be read as tags (`Legible`) is read as a tree that holds what the HTML displays, up
to white space (`exists_parse_of_displays`). Text is lost only where an element whose text is no markup is
never ended, so each of these must be (`RawEnded`).
-/

namespace Assessment.Html

open Assessment.Markup Assessment.Text StartTag

/-! ## Tags that can be read -/

/-- The tag begins with a letter, holds nothing that ends a name too early, and is not that of the body of
a document. -/
inductive Legible : List Char → Prop where
  /-- A start tag. -/
  | opening {c : Char} {name s : List Char} {found : List (List Char × List Char)} {closed : Bool}
      (hc : c.isAlpha = true) (hname : Unbroken (c :: name)) (hs : ReadsAll s found closed)
      (hkeys : ∀ a ∈ found, Unbracketed a.1) (hbody : lower (c :: name) ≠ "body".toList) :
      Legible ('<' :: (c :: name ++ s))
  /-- An end tag. -/
  | ending {c : Char} {name : List Char} (hc : c.isAlpha = true) (hname : Unbroken (c :: name)) :
      Legible ("</".toList ++ (c :: name) ++ ['>'])

/-- A tag that can be read is read as a sound start tag or as an end tag. -/
theorem Legible.exists_token {tag : List Char} (h : Legible tag) (htag : IsTag tag) :
    (∃ name attributes closed, ReadAs tag (.startTag name attributes closed) ∧
      SoundTag name attributes) ∨ ∃ name, ReadAs tag (.endTag name) := by
  cases h with
  | @opening c name s found closed hc hname hs hkeys hbody =>
    obtain ⟨tail, htail, hopen⟩ := htag.exists_tail
    have hpart : Unbracketed (c :: name) := by
      refine fun d hd => ⟨hopen d ?_, fun hbracket => absurd (hbracket ▸ (hname d hd).1) (by decide)⟩
      rw [← (List.cons.inj htail).2]
      exact List.mem_append_left _ hd
    exact .inl ⟨_, _, _, readAs_startTag hc hname hs, unbracketed_lower hpart,
      fun a ha => hkeys a (Attributes.mem_ofList ha), hbody⟩
  | ending hc hname => exact .inr ⟨_, readAs_endTag hc hname⟩

/-! ## Elements that are ended -/

/-- The tag is read as the start tag of the element `name`, whose text is no markup. -/
def OpensRaw (name tag : List Char) : Prop :=
  isRaw name = true ∧ ∃ attributes, ReadAs tag (.startTag name attributes false)

/-- After each start tag of an element whose text is no markup there is an end tag of that element. -/
def RawEnded : List (List Char) → Prop
  | [] => True
  | tag :: tags =>
    (∀ name, OpensRaw name tag → ∃ ending ∈ tags, EndsRaw name ending) ∧ RawEnded tags

theorem RawEnded.append {tags more : List (List Char)} (h : RawEnded tags) (hmore : RawEnded more) :
    RawEnded (tags ++ more) := by
  induction tags with
  | nil => exact hmore
  | cons tag tags ih =>
    refine ⟨fun name hopens => ?_, ih h.2⟩
    obtain ⟨ending, hmem, hends⟩ := h.1 name hopens
    exact ⟨ending, List.mem_append_left more hmem, hends⟩

/-! ### Tags that begin like those of such elements -/

/-- The name of the tag begins like those of the elements whose text is no markup. -/
def beginsRaw : List Char → Bool
  | '<' :: '/' :: c :: _ => Step.foldLetter c == 's'
  | '<' :: c :: _ => Step.foldLetter c == 's'
  | _ => false

theorem foldLetter_of_isRaw {c : Char} {name : List Char} (h : isRaw (lower (c :: name)) = true) :
    Step.foldLetter c = 's' := by
  obtain ⟨-, hfold⟩ := @map_foldLetter_of_lowerAfter [] (c :: name) (mem_rawLetters_of_isRaw h)
  have hhead : (lower (c :: name)).head? = some 's' :=
    (by decide : ∀ name ∈ rawNames, name.head? = some 's') _ (List.contains_iff_mem.1 h)
  have hsame : (lower (c :: name)).head? = some (Step.foldLetter c) := congrArg List.head? hfold.symm
  exact Option.some.inj (hsame.symm.trans hhead)

/-- A start tag of an element whose text is no markup begins so. -/
theorem beginsRaw_of_readsAll {name : List Char} {c : Char} {rest s : List Char}
    {found : List (List Char × List Char)} {closed : Bool} (hc : c.isAlpha = true)
    (hname : Unbroken (c :: rest)) (hs : ReadsAll s found closed)
    (hopens : OpensRaw name ('<' :: (c :: rest ++ s))) : beginsRaw ('<' :: (c :: rest ++ s)) = true := by
  obtain ⟨hraw, attributes, hread⟩ := hopens
  cases (readAs_startTag hc hname hs).inj hread
  have hslash : c ≠ '/' := fun heq => absurd (heq ▸ hc) (by decide)
  have hletter := beq_iff_eq.2 (foldLetter_of_isRaw hraw)
  unfold Html.beginsRaw
  split
  · next heq => exact absurd (List.cons.inj (List.cons.inj heq).2).1 hslash
  · next heq => rwa [← (List.cons.inj (List.cons.inj heq).2).1]
  · next hnot => exact absurd rfl (hnot _ _)

theorem Legible.beginsRaw {name tag : List Char} (h : Legible tag) (hopens : OpensRaw name tag) :
    beginsRaw tag = true := by
  cases h with
  | opening hc hname hs => exact beginsRaw_of_readsAll hc hname hs hopens
  | ending hc hname =>
    obtain ⟨-, attributes, hread⟩ := hopens
    cases (readAs_endTag hc hname).inj hread

theorem EndsRaw.beginsRaw {name tag : List Char} (h : EndsRaw name tag) : beginsRaw tag = true := by
  obtain ⟨hraw, inside, rfl, rfl⟩ := h
  cases inside with
  | nil => cases hraw
  | cons c inside => exact beq_iff_eq.2 (foldLetter_of_isRaw hraw)

/-- Only tags that begin so matter for whether elements are ended. -/
theorem rawEnded_filter {tags : List (List Char)}
    (h : ∀ tag ∈ tags, ∀ name, OpensRaw name tag → beginsRaw tag = true) :
    RawEnded (tags.filter beginsRaw) ↔ RawEnded tags := by
  induction tags with
  | nil => exact Iff.rfl
  | cons tag tags ih =>
    obtain ⟨htag, htags⟩ := List.forall_mem_cons.1 h
    by_cases hbegins : beginsRaw tag = true
    · have hlater : ∀ name, (∃ ending ∈ tags.filter beginsRaw, EndsRaw name ending) ↔
          ∃ ending ∈ tags, EndsRaw name ending := fun name =>
        ⟨fun ⟨ending, hmem, hends⟩ => ⟨ending, (List.mem_filter.1 hmem).1, hends⟩,
          fun ⟨ending, hmem, hends⟩ => ⟨ending, List.mem_filter.2 ⟨hmem, hends.beginsRaw⟩, hends⟩⟩
      rw [List.filter_cons_of_pos hbegins, RawEnded, RawEnded, ih htags]
      simp only [hlater]
    · have hnone : ∀ name, OpensRaw name tag → ∃ ending ∈ tags, EndsRaw name ending :=
        fun name hopens => absurd (htag name hopens) hbegins
      rw [List.filter_cons_of_neg hbegins, RawEnded, ih htags]
      exact ⟨fun hrest => ⟨hnone, hrest⟩, fun hall => hall.2⟩

/-! ## Reading -/

/-- A written character is no tag. -/
theorem findAll_anyTag_append {s : List Char} (h : Unbracketed s) (html : List Char) :
    anyTag.findAll (s ++ html) = anyTag.findAll html :=
  Recognizer.findAll_of_pieces <|
    anyTag.pieces_append_of_starts (fun hc => anyTag?_cons hc _) (fun c hc => (h c hc).1) html

/-- An end tag that stands in the HTML comes later. -/
theorem EndsRaw.endsLater_of_mem {name ending html text : List Char} (h : EndsRaw name ending)
    (hhtml : Displays Escaped html text) (hmem : ending ∈ anyTag.findAll html) :
    EndsLater name html := by
  induction hhtml with
  | nil => exact absurd hmem (by simp)
  | @char c written html text hc _ ih =>
    rw [findAll_anyTag_append (writing_escaped.unbracketed hc)] at hmem
    exact (ih hmem).append written
  | @tag tag html text htag _ ih =>
    rw [anyTag.findAll_of_run (anyTag?_append htag html)] at hmem
    rcases List.mem_cons.1 hmem with rfl | hmem
    · exact h.endsLater html
    · exact (ih hmem).append tag

/-- One token is read. -/
theorem ReadAs.readFrom {s : List Char} {token : Token} (h : ReadAs s token) (b : Builder)
    (rest : List Char) :
    readFrom none b (s ++ rest) = Html.readFrom (token.rawAfter none) (b.take token) rest :=
  @readFrom_of_read none b _ rest token (h rest)

/-- The HTML can be read to its end, where the reading is inside of the element `raw`, if it is inside of
one whose text is no markup. -/
structure CanBeRead (raw : Option (List Char)) (html : List Char) : Prop where
  /-- The tags can be read. -/
  legible : ∀ tag ∈ anyTag.findAll html, Legible tag
  /-- Elements whose text is no markup are ended. -/
  ended : RawEnded (anyTag.findAll html)
  /-- So is the one that is open. -/
  inside : ∀ name, raw = some name → ∃ ending ∈ anyTag.findAll html, EndsRaw name ending

section Reading

variable {raw : Option (List Char)} {b : Builder} {html text before : List Char}

theorem CanBeRead.of_append {s : List Char} (h : CanBeRead raw (s ++ html)) (hs : Unbracketed s) :
    CanBeRead raw html := by
  obtain ⟨hlegible, hended, hinside⟩ := h
  rw [findAll_anyTag_append hs] at hlegible hended hinside
  exact ⟨hlegible, hended, hinside⟩

theorem CanBeRead.enter {name : List Char} (h : CanBeRead none html)
    (hends : ∃ ending ∈ anyTag.findAll html, EndsRaw name ending) : CanBeRead (some name) html :=
  ⟨h.legible, h.ended, fun _ hname => Option.some.inj hname ▸ hends⟩

/-- Behind a tag, HTML can be read as if it stood outside of elements whose text is no markup. -/
theorem CanBeRead.of_tag {tag : List Char} (h : CanBeRead raw (tag ++ html)) (htag : IsTag tag) :
    Legible tag ∧ (∀ name, OpensRaw name tag → ∃ ending ∈ anyTag.findAll html, EndsRaw name ending) ∧
      CanBeRead none html := by
  obtain ⟨hlegible, hended, -⟩ := h
  rw [anyTag.findAll_of_run (anyTag?_append htag html)] at hlegible hended
  obtain ⟨hfirst, hothers⟩ := List.forall_mem_cons.1 hlegible
  exact ⟨hfirst, hended.1, hothers, hended.2,
    fun name hname => absurd hname (Option.some_ne_none name).symm⟩

/-- A written character is taken in. -/
theorem exists_readFrom_char {c : Char} {written : List Char} (hc : Escaped c written)
    (hrest : Displays Escaped html text) (hread : CanBeRead raw (written ++ html))
    (hholds : b.Holds raw before) :
    ∃ after : Builder, readFrom raw b (written ++ html) = readFrom raw after html ∧
      after.Holds raw (before ++ [c]) := by
  have hwritten := writing_escaped.unbracketed hc
  cases raw with
  | none => exact ⟨b.take (.text [c]), hc ▸ lexes_escapeChar c b html, hholds.takeText [c]⟩
  | some name =>
    obtain ⟨ending, hmem, hends⟩ := (hread.of_append hwritten).inside name rfl
    have hshown : Displays Escaped written [c] := by simpa using Displays.char hc .nil
    exact ⟨_, readFrom_append (fun d hd => (hwritten d hd).1) (hends.endsLater_of_mem hrest hmem),
      hholds.takeRaw hshown⟩

/-- A tag opens or closes elements where text is markup. -/
theorem exists_readFrom_tag {tag : List Char} (htag : IsTag tag) (hread : CanBeRead none (tag ++ html))
    (hholds : b.Holds none before) :
    ∃ raw after, readFrom none b (tag ++ html) = readFrom raw after html ∧
      Builder.Holds raw before after ∧ CanBeRead raw html := by
  obtain ⟨hlegible, hopens, hrest⟩ := hread.of_tag htag
  rcases hlegible.exists_token htag with ⟨name, attributes, closed, hstart, hsound⟩ | ⟨name, hend⟩
  · refine ⟨_, _, hstart.readFrom b html, hholds.takeStart hsound closed, ?_⟩
    cases closed with
    | true => exact hrest
    | false =>
      rw [Token.rawAfter]
      split
      · next hraw => exact hrest.enter (hopens name ⟨hraw, attributes, hstart⟩)
      · exact hrest
  · exact ⟨_, _, hend.readFrom b html, hholds.takeEnd (.inl rfl), hrest⟩

/-- A tag is text where text is no markup, or it ends the element. -/
theorem exists_readFrom_rawTag {tag name : List Char} (htag : IsTag tag)
    (hdisplays : Displays Escaped html text) (hread : CanBeRead (some name) (tag ++ html))
    (hholds : b.Holds (some name) before) :
    ∃ raw after, readFrom (some name) b (tag ++ html) = readFrom raw after html ∧
      Builder.Holds raw before after ∧ CanBeRead raw html := by
  obtain ⟨-, -, hrest⟩ := hread.of_tag htag
  have hclosed : Builder.Holds none before (b.take (.endTag name)) := hholds.takeEnd (.inr rfl)
  obtain ⟨ending, hmem, hends⟩ := hread.inside name rfl
  rw [anyTag.findAll_of_run (anyTag?_append htag html)] at hmem
  rcases List.mem_cons.1 hmem with rfl | hmem
  · exact ⟨none, _, hends.readFrom b html, hclosed, hrest⟩
  rcases readFrom_tag htag (hends.endsLater_of_mem hdisplays hmem) with htext | hend
  · have htaken := hholds.takeRaw (Displays.of_isTag htag)
    rw [List.append_nil] at htaken
    exact ⟨some name, _, htext, htaken, hrest.enter ⟨ending, hmem, hends⟩⟩
  · exact ⟨none, _, hend, hclosed, hrest⟩

/-- HTML that can be read is read to its end, and what it displays is taken in. -/
theorem exists_readFrom_of_displays (h : Displays Escaped html text) :
    ∀ {raw : Option (List Char)} {b : Builder} {before : List Char}, CanBeRead raw html →
      b.Holds raw before → ∃ after : Builder, readFrom raw b html = some (after, none, []) ∧
        after.Holds none (before ++ text) := by
  induction h with
  | nil =>
    intro raw b before hread hholds
    cases raw with
    | none => exact ⟨b, readInto_nil b, by rwa [List.append_nil]⟩
    | some name =>
      obtain ⟨ending, hmem, -⟩ := hread.inside name rfl
      exact absurd hmem (by simp)
  | @char c written html text hc hrest ih =>
    intro raw b before hread hholds
    obtain ⟨next, hnext, htaken⟩ := exists_readFrom_char hc hrest hread hholds
    rw [hnext, List.append_cons]
    exact ih (hread.of_append (writing_escaped.unbracketed hc)) htaken
  | @tag tag html text htag hrest ih =>
    intro raw b before hread hholds
    obtain ⟨raw', next, hnext, htaken, hleft⟩ : ∃ raw' next,
        readFrom raw b (tag ++ html) = readFrom raw' next html ∧ Builder.Holds raw' before next ∧
          CanBeRead raw' html := by
      cases raw with
      | none => exact exists_readFrom_tag htag hread hholds
      | some name => exact exists_readFrom_rawTag htag hrest hread hholds
    rw [hnext]
    exact ih hleft htaken

end Reading

/-- HTML of tags that can be read, in which all elements whose text is no markup are ended, is read as a
tree that holds what the HTML displays. -/
theorem exists_parse_of_displays {html text : List Char} (h : Displays Escaped html text)
    (hlegible : ∀ tag ∈ anyTag.findAll html, Legible tag) (hended : RawEnded (anyTag.findAll html)) :
    ∃ nodes, parse html = some nodes ∧ Node.SoundIn false nodes ∧
      withoutBlanks (Node.heldIn false nodes) = withoutBlanks text := by
  have hcan : CanBeRead none html :=
    ⟨hlegible, hended, fun name hname => absurd hname (Option.some_ne_none name).symm⟩
  obtain ⟨after, hread, hholds⟩ := exists_readFrom_of_displays h hcan Builder.holds_empty
  exact ⟨after.finish, parse_of_readInto hread, hholds.finish⟩

end Assessment.Html
