import Assessment.Proofs.Html.Alike
import Assessment.Proofs.Html.LastingText
import Assessment.Proofs.Html.Reading

/-!
# Proofs: texts that differ in attributes

Two texts of HTML that differ in the attributes of start tags only (`Twin`) are read in step, and make nodes
that look alike. Where text is markup, each tag of one text and the tag in its place in the other are read
as tokens that look alike; inside of an element whose text is no markup, both are text, or the same end of
that element (`exists_readFrom_twins`). So the texts have the same outline (`exists_outline_of_twins`).
-/

namespace Assessment.Html

open Assessment.Markup Assessment.Text Node

/-! ## Texts that are read as tokens -/

/-- The texts are read as tokens that differ in attributes only. -/
def LexAlike (s t : List Char) : Prop :=
  ∃ tokens others, Lexes s tokens ∧ Lexes t others ∧ List.Forall₂ Token.Alike tokens others

theorem LexAlike.refl {s : List Char} {tokens : List Token} (h : Lexes s tokens) : LexAlike s s :=
  ⟨tokens, tokens, h, h, List.forall₂_same.2 fun token _ => .refl token⟩

theorem LexAlike.append {s t u v : List Char} (h : LexAlike s t) (hmore : LexAlike u v) :
    LexAlike (s ++ u) (t ++ v) := by
  obtain ⟨tokens, others, hs, ht, hsame⟩ := h
  obtain ⟨more, rest, hu, hv, hthen⟩ := hmore
  exact ⟨tokens ++ more, others ++ rest, hs.append hu, ht.append hv, List.rel_append hsame hthen⟩

/-- Texts that are read as such tokens have the same outline. -/
theorem LexAlike.exists_outline {s t : List Char} (h : LexAlike s t) :
    ∃ shape, outline? s = some shape ∧ outline? t = some shape := by
  obtain ⟨tokens, others, hs, ht, hsame⟩ := h
  refine ⟨outline (ofTokens tokens), ?_, ?_⟩
  · rw [outline?, parse_of_lexes hs]
    rfl
  · rw [outline?, parse_of_lexes ht, (alikeIn_ofTokens hsame).outline_eq]
    rfl

/-! ## Pieces of two texts -/

/-- A piece of two texts: a character that stands in both, or a tag of one and what stands in its place in
the other. -/
abbrev Twin := Piece (List Char × List Char)

/-- A piece as it is written in one of the texts. -/
def writeTwin (side : List Char × List Char → List Char) : Twin → List Char
  | .char c => escapeChar c
  | .found tags => side tags

/-- The pieces as they are written in one of the texts. -/
def writeTwins (side : List Char × List Char → List Char) (twins : List Twin) : List Char :=
  twins.flatMap (writeTwin side)

/-- The tags of both texts, in pairs. -/
def twinTags (twins : List Twin) : List (List Char × List Char) := twins.filterMap Piece.found?

@[simp] theorem writeTwins_nil (side : List Char × List Char → List Char) : writeTwins side [] = [] := rfl

@[simp] theorem writeTwins_char (side : List Char × List Char → List Char) (c : Char)
    (twins : List Twin) : writeTwins side (.char c :: twins) = escapeChar c ++ writeTwins side twins := rfl

@[simp] theorem writeTwins_found (side : List Char × List Char → List Char)
    (tags : List Char × List Char) (twins : List Twin) :
    writeTwins side (.found tags :: twins) = side tags ++ writeTwins side twins := rfl

@[simp] theorem writeTwins_append (side : List Char × List Char → List Char) (twins more : List Twin) :
    writeTwins side (twins ++ more) = writeTwins side twins ++ writeTwins side more := List.flatMap_append

@[simp] theorem twinTags_found (tags : List Char × List Char) (twins : List Twin) :
    twinTags (.found tags :: twins) = tags :: twinTags twins := rfl

/-- Pieces of which the tags are read as tokens that look alike are read as such. -/
theorem lexAlike_writeTwins {twins : List Twin}
    (h : ∀ tags ∈ twinTags twins, LexAlike tags.1 tags.2) :
    LexAlike (writeTwins Prod.fst twins) (writeTwins Prod.snd twins) := by
  induction twins with
  | nil => exact .refl .nil
  | cons twin twins ih =>
    cases twin with
    | char c => exact (LexAlike.refl (lexes_escapeChar c)).append (ih h)
    | found tags =>
      obtain ⟨htags, hothers⟩ := List.forall_mem_cons.1 h
      exact htags.append (ih hothers)

/-! ## Tags in the same place -/

/-- The tag is read as one token, or it is text. -/
def Understood (tag : List Char) : Prop :=
  (∃ token, ReadAs tag token) ∨ ∃ tokens, Lexes tag tokens

/-- The tags are the same, or they differ in attributes and start an element whose text is markup. -/
inductive TwinTags : List Char → List Char → Prop where
  /-- The same tag. -/
  | same {tag : List Char} (htag : IsTag tag) (h : Understood tag) : TwinTags tag tag
  /-- Start tags with different attributes. -/
  | starts {c : Char} {s t name : List Char} {attributes others : Attributes} {closed : Bool}
      (hc : c ≠ '/') (hs : IsTag ('<' :: c :: s)) (ht : IsTag ('<' :: c :: t))
      (hread : ReadAs ('<' :: c :: s) (.startTag name attributes closed))
      (hother : ReadAs ('<' :: c :: t) (.startTag name others closed)) (hraw : isRaw name = false) :
      TwinTags ('<' :: c :: s) ('<' :: c :: t)

theorem TwinTags.eq_of_endsRaw {name tag other : List Char} (h : TwinTags tag other)
    (hends : EndsRaw name tag) : tag = other := by
  cases h with
  | same => rfl
  | starts hc =>
    obtain ⟨-, inside, heq, -⟩ := hends
    exact absurd (List.cons.inj (List.cons.inj heq).2).1 hc

/-! ## Text that is no markup -/

section Raw

variable {name tag : List Char} {b : Builder} {s : List Char}

/-- Whether a tag looks like an end tag of the element does not depend on what follows. -/
theorem exists_inside_of_tag (hraw : isRaw name = true) (htag : IsTag tag)
    (h : Step.startsRawEnd name (tag ++ s) = true) :
    ∃ inside, tag = "</".toList ++ inside ++ ['>'] ∧ '>' ∉ inside ∧
      ∀ other, Step.startsRawEnd name (tag ++ other) = true := by
  obtain ⟨inside, rest, heq, hinside, hall⟩ := exists_inside_of_startsRawEnd hraw h
  have hend : IsTag ("</".toList ++ inside ++ ['>']) := by
    have hslash : "</".toList ++ inside ++ ['>'] = '<' :: ('/' :: inside) ++ ['>'] := rfl
    rw [hslash]
    exact .intro (.cons (by decide) (by decide) hinside)
  have hfound := anyTag?_append htag s
  rw [heq, anyTag?_append hend rest] at hfound
  obtain rfl := (Prod.mk.inj (Option.some.inj hfound)).1
  exact ⟨inside, rfl, fun hmem => (hinside _ hmem).2 rfl, hall⟩

/-- A tag is text, whatever follows, or it ends the element, whatever follows. -/
theorem readFrom_rawTag (hraw : isRaw name = true) (htag : IsTag tag) :
    (∀ {b : Builder} {s : List Char}, EndsLater name s →
        readFrom (some name) b (tag ++ s) = readFrom (some name) (b.take (.text tag)) s) ∨
      ∀ {b : Builder} {s : List Char},
        readFrom (some name) b (tag ++ s) = readFrom none (b.take (.endTag name)) s := by
  by_cases hstarts : Step.startsRawEnd name (tag ++ []) = true
  · obtain ⟨inside, rfl, hinside, hall⟩ := exists_inside_of_tag hraw htag hstarts
    have hstep {s : List Char} := inRaw_of_startsRawEnd (s := s) hinside (hall s)
    rcases rawEndTagOf_cases name inside with hend | htext
    · rw [hend] at hstep
      exact .inr (readFrom_of_read hstep)
    · rw [htext] at hstep
      exact .inl fun _ => readFrom_of_read hstep
  · refine .inl fun hlater => readFrom_textTag htag (eq_false_of_ne_true fun hother => ?_) hlater
    obtain ⟨-, -, -, hall⟩ := exists_inside_of_tag hraw htag hother
    exact hstarts (hall [])

end Raw

/-! ## Reading in step -/

theorem exists_of_rawAfter {name : List Char} {token : Token} (h : token.rawAfter none = some name) :
    isRaw name = true ∧ ∃ attributes, token = .startTag name attributes false := by
  cases token with
  | text s => cases h
  | special kind s => cases h
  | endTag other => cases h
  | startTag other attributes closed =>
    cases closed with
    | true => cases h
    | false =>
      rw [Token.rawAfter] at h
      split at h
      · next hraw =>
        obtain rfl := Option.some.inj h
        exact ⟨hraw, attributes, rfl⟩
      · cases h

theorem inRaw_takeStart {name : List Char} (hraw : isRaw name = true) (attributes : Attributes)
    (b : Builder) : (b.take (.startTag name attributes false)).inRaw = true := by
  have hvoid : isVoid name = false :=
    (by decide : ∀ other ∈ rawNames, isVoid other = false) name (List.contains_iff_mem.1 hraw)
  have htake : b.take (.startTag name attributes false) = b.flush.openElement name attributes := by
    simp [Builder.take, hvoid]
  rw [htake]
  exact hraw

/-- Reading is inside of the element `raw`, if it is inside of one whose text is no markup: the element is
open, and it is ended later. -/
def Inside (raw : Option (List Char)) (b : Builder) (twins : List Twin) : Prop :=
  ∀ name, raw = some name → isRaw name = true ∧ b.inRaw = true ∧
    ∃ tags ∈ twinTags twins, EndsRaw name tags.1

theorem inside_none (b : Builder) (twins : List Twin) : Inside none b twins :=
  fun _ h => absurd h (Option.some_ne_none _).symm

/-- The texts are read to the end with the same success, as trees that look alike. -/
def ReadInStep (raw : Option (List Char)) (b c : Builder) (twins : List Twin) : Prop :=
  ∃ b' c', readFrom raw b (writeTwins Prod.fst twins) = some (b', none, []) ∧
    readFrom raw c (writeTwins Prod.snd twins) = some (c', none, []) ∧ b'.Alike c'

section Steps

variable {raw next : Option (List Char)} {b b' c c' : Builder} {twin : Twin} {twins : List Twin}

/-- A step of both readings. -/
theorem ReadInStep.step (h : ReadInStep next b' c' twins)
    (hb : readFrom raw b (writeTwins Prod.fst (twin :: twins)) =
      readFrom next b' (writeTwins Prod.fst twins))
    (hc : readFrom raw c (writeTwins Prod.snd (twin :: twins)) =
      readFrom next c' (writeTwins Prod.snd twins)) : ReadInStep raw b c (twin :: twins) := by
  unfold ReadInStep
  rw [hb, hc]
  exact h

/-- An element whose text is no markup is ended later in both texts. -/
theorem endsLater_of_mem {name : List Char} {tags : List Char × List Char}
    {side : List Char × List Char → List Char} (h : EndsRaw name (side tags))
    (hmem : tags ∈ twinTags twins) : EndsLater name (writeTwins side twins) := by
  obtain ⟨before, after, rfl⟩ := List.append_of_mem (Piece.found_mem hmem)
  rw [writeTwins_append, writeTwins_found]
  exact (h.endsLater _).append _

theorem endsLater_both {name : List Char} (h : ∀ tags ∈ twinTags twins, TwinTags tags.1 tags.2)
    {tags : List Char × List Char} (hmem : tags ∈ twinTags twins) (hends : EndsRaw name tags.1) :
    EndsLater name (writeTwins Prod.fst twins) ∧ EndsLater name (writeTwins Prod.snd twins) := by
  have hother : EndsRaw name tags.2 := (h tags hmem).eq_of_endsRaw hends ▸ hends
  exact ⟨endsLater_of_mem hends hmem, endsLater_of_mem hother hmem⟩

end Steps

section Pieces

variable {raw : Option (List Char)} {b c : Builder} {twins : List Twin}
  (ih : ∀ {raw : Option (List Char)} {b c : Builder}, b.Alike c → Inside raw b twins →
    ReadInStep raw b c twins)

include ih

/-- A character is read in both texts. -/
theorem readInStep_char (h : ∀ tags ∈ twinTags twins, TwinTags tags.1 tags.2) (d : Char)
    (hbc : b.Alike c) (hinside : Inside raw b twins) : ReadInStep raw b c (.char d :: twins) := by
  cases raw with
  | none =>
    have hsame : (b.take (.text [d])).Alike (c.take (.text [d])) := hbc.take (.refl _)
    exact (ih hsame (inside_none _ _)).step (lexes_escapeChar d b _) (lexes_escapeChar d c _)
  | some name =>
    obtain ⟨hraw, hopen, tags, hmem, hends⟩ := hinside name rfl
    obtain ⟨hfirst, hsecond⟩ := endsLater_both h hmem hends
    have hwritten : ∀ e ∈ escapeChar d, e ≠ '<' := fun e he =>
      (writing_escaped.unbracketed (rfl : Escaped d (escapeChar d)) e he).1
    have hsame : (b.take (.text (escapeChar d))).Alike (c.take (.text (escapeChar d))) :=
      hbc.take (.refl _)
    have hstill : Inside (some name) (b.take (.text (escapeChar d))) twins := fun _ heq =>
      Option.some.inj heq ▸ ⟨hraw, hopen, tags, hmem, hends⟩
    exact (ih hsame hstill).step (readFrom_append hwritten hfirst) (readFrom_append hwritten hsecond)

/-- Tags are read in both texts where text is markup. -/
theorem readInStep_tags {tags : List Char × List Char} (htags : TwinTags tags.1 tags.2)
    (hended : ∀ name, OpensRaw name tags.1 → ∃ ending ∈ (twinTags twins).map Prod.fst,
      EndsRaw name ending) (hbc : b.Alike c) : ReadInStep none b c (.found tags :: twins) := by
  obtain ⟨tag, other⟩ := tags
  cases htags with
  | same htag hunderstood =>
    rcases hunderstood with ⟨token, hread⟩ | ⟨tokens, hlexes⟩
    · have hsame : (b.take token).Alike (c.take token) := hbc.take (.refl token)
      have hinside : Inside (token.rawAfter none) (b.take token) twins := by
        intro name hname
        obtain ⟨hraw, attributes, rfl⟩ := exists_of_rawAfter hname
        obtain ⟨ending, hmem, hends⟩ := hended name ⟨hraw, attributes, hread⟩
        obtain ⟨pair, hpair, rfl⟩ := List.mem_map.1 hmem
        exact ⟨hraw, inRaw_takeStart hraw attributes b, pair, hpair, hends⟩
      exact (ih hsame hinside).step (hread.readFrom b _) (hread.readFrom c _)
    · have hsame : (tokens.foldl Builder.take b).Alike (tokens.foldl Builder.take c) := by
        clear hlexes
        induction tokens generalizing b c with
        | nil => exact hbc
        | cons token tokens ihTokens => exact ihTokens (hbc.take (.refl token))
      exact (ih hsame (inside_none _ _)).step (hlexes b _) (hlexes c _)
  | @starts d s t name attributes others closed hd hs ht hread hother hraw =>
    have hsame := hbc.takeStart name attributes others closed
    have hafter (any : Attributes) : (Token.startTag name any closed).rawAfter none = none := by
      cases closed with
      | true => rfl
      | false => exact if_neg (ne_true_of_eq_false hraw)
    have hfirst := hread.readFrom b (writeTwins Prod.fst twins)
    have hsecond := hother.readFrom c (writeTwins Prod.snd twins)
    rw [hafter] at hfirst hsecond
    exact (ih hsame (inside_none _ _)).step hfirst hsecond

/-- Tags are read in both texts where text is no markup: they are text, or the same end of the element. -/
theorem readInStep_rawTags (h : ∀ tags ∈ twinTags twins, TwinTags tags.1 tags.2) {name : List Char}
    {tags : List Char × List Char} (htags : TwinTags tags.1 tags.2) (hbc : b.Alike c)
    (hinside : Inside (some name) b (.found tags :: twins)) :
    ReadInStep (some name) b c (.found tags :: twins) := by
  obtain ⟨hraw, hopen, ending, hmem, hends⟩ := hinside name rfl
  have hclosed : (b.take (.endTag name)).Alike (c.take (.endTag name)) := hbc.take (.refl _)
  rcases List.mem_cons.1 hmem with rfl | hmem
  · have hother : EndsRaw name ending.2 := htags.eq_of_endsRaw hends ▸ hends
    exact (ih hclosed (inside_none _ _)).step (hends.readFrom b _) (hother.readFrom c _)
  have hstill {s : List Char} : Inside (some name) (b.take (.text s)) twins := fun _ heq =>
    Option.some.inj heq ▸ ⟨hraw, hopen, ending, hmem, hends⟩
  obtain ⟨hfirst, hsecond⟩ := endsLater_both h hmem hends
  obtain ⟨tag, other⟩ := tags
  cases htags with
  | same htag hunderstood =>
    rcases readFrom_rawTag hraw htag with htext | hend
    · exact (ih (hbc.take (.refl _)) hstill).step (htext hfirst) (htext hsecond)
    · exact (ih hclosed (inside_none _ _)).step hend hend
  | @starts d s t name' attributes others closed hd hs ht hread hother hmarkup =>
    have hnot (u v : List Char) : Step.startsRawEnd name ('<' :: d :: u ++ v) = false := by
      have hnone : after? "</".toList ('<' :: d :: u ++ v) = none := by
        simp [after?, Ne.symm hd]
      rw [Step.startsRawEnd, hnone]
    have hsame : (b.take (.text ('<' :: d :: s))).Alike (c.take (.text ('<' :: d :: t))) :=
      hbc.takeText (.inl hopen) (by simp)
    exact (ih hsame hstill).step (readFrom_textTag hs (hnot s _) hfirst)
      (readFrom_textTag ht (hnot t _) hsecond)

end Pieces

/-- Texts that differ in the attributes of start tags are read in step, as long as all elements whose text
is no markup are ended. -/
theorem exists_readFrom_twins {twins : List Twin}
    (h : ∀ tags ∈ twinTags twins, TwinTags tags.1 tags.2)
    (hended : RawEnded ((twinTags twins).map Prod.fst)) :
    ∀ {raw : Option (List Char)} {b c : Builder}, b.Alike c → Inside raw b twins →
      ReadInStep raw b c twins := by
  induction twins with
  | nil =>
    intro raw b c hbc hinside
    cases raw with
    | none => exact ⟨b, c, readInto_nil b, readInto_nil c, hbc⟩
    | some name =>
      obtain ⟨-, -, tags, hmem, -⟩ := hinside name rfl
      exact absurd hmem List.not_mem_nil
  | cons twin twins ih =>
    intro raw b c hbc hinside
    cases twin with
    | char d =>
      have hothers : ∀ tags ∈ twinTags twins, TwinTags tags.1 tags.2 := h
      exact readInStep_char (ih hothers hended) hothers d hbc hinside
    | found tags =>
      obtain ⟨htags, hothers⟩ := List.forall_mem_cons.1 h
      cases raw with
      | none => exact readInStep_tags (ih hothers hended.2) htags hended.1 hbc
      | some name => exact readInStep_rawTags (ih hothers hended.2) hothers htags hbc hinside

/-- Texts that differ in the attributes of start tags have the same outline, as long as all elements whose
text is no markup are ended. -/
theorem exists_outline_of_twins {twins : List Twin}
    (h : ∀ tags ∈ twinTags twins, TwinTags tags.1 tags.2)
    (hended : RawEnded ((twinTags twins).map Prod.fst)) :
    ∃ shape, outline? (writeTwins Prod.fst twins) = some shape ∧
      outline? (writeTwins Prod.snd twins) = some shape := by
  obtain ⟨b, c, hb, hc, hbc⟩ :=
    exists_readFrom_twins h hended Builder.alike_empty (inside_none _ _)
  refine ⟨outline b.finish, ?_, ?_⟩
  · rw [outline?, parse_of_readInto hb]
    rfl
  · rw [outline?, parse_of_readInto hc, hbc.finish.outline_eq]
    rfl

end Assessment.Html
