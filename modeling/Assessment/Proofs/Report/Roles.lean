import Assessment.Proofs.Markup.AttributeSearch
import Assessment.Proofs.Report.TokenKinds

/-!
# Proofs: open elements

Read from left to right, a tag opens an element, closes one, or stands by itself. HTML is well nested if
each end tag has the name of the element that was opened last and is still open, and no element is open
at the end (`IsNested`). Marking a start tag does not change what it opens, because it leaves the name and
ends no tag with a slash.
-/

namespace Assessment.Report

open Assessment.Text Assessment.Markup Assessment.Markup.StartTag
open Assessment.Xml hiding Token

/-! ## Roles -/

/-- What a tag does to the open elements. -/
inductive Role where
  /-- It stands by itself. -/
  | void
  /-- It opens an element. -/
  | opens (name : List Char)
  /-- It closes an element. -/
  | closes (name : List Char)
  deriving DecidableEq

/-- The name that a text begins with. It ends at white space and at a closing bracket. -/
def nameAt (s : List Char) : List Char := s.takeWhile fun c => !(isBlank c || c == '>')

/-- What a tag does. The snippet for a blank and the tags that end with a slash stand by themselves. -/
def roleOf (tag : List Char) : Role :=
  if tag = clozeTag ∨ "/>".toList <:+ tag then .void
  else
    match tag.tail with
    | '/' :: name => .closes (nameAt name)
    | name => .opens (nameAt name)

/-- The open elements after some tags, the last opened first. There are none if an end tag does not have
the name of the element that was opened last. -/
def openAfter? : List Role → List (List Char) → Option (List (List Char))
  | [], opened => some opened
  | .void :: roles, opened => openAfter? roles opened
  | .opens name :: roles, opened => openAfter? roles (name :: opened)
  | .closes name :: roles, last :: opened => if name = last then openAfter? roles opened else none
  | .closes _ :: _, [] => none

/-- Each end tag of the HTML has the name of the element that was opened last, and all are closed. -/
def IsNested (html : List Char) : Prop := openAfter? ((anyTag.findAll html).map roleOf) [] = some []

instance (html : List Char) : Decidable (IsNested html) :=
  inferInstanceAs (Decidable (_ = _))

/-! ## Balance -/

theorem openAfter?_append (roles more : List Role) (opened : List (List Char)) :
    openAfter? (roles ++ more) opened = (openAfter? roles opened).bind (openAfter? more) := by
  induction roles, opened using openAfter?.induct with
  | case1 opened => rfl
  | case2 opened roles ih => exact ih
  | case3 opened name roles ih => exact ih
  | case4 roles last opened ih =>
    rw [List.cons_append, openAfter?, if_pos rfl, openAfter?, if_pos rfl]
    exact ih
  | case5 name roles last opened hne =>
    rw [List.cons_append, openAfter?, if_neg hne, openAfter?, if_neg hne]
    rfl
  | case6 name roles => rfl

/-- The tags leave the open elements as they are, whichever these are. -/
def Balanced (roles : List Role) : Prop := ∀ opened, openAfter? roles opened = some opened

namespace Balanced

theorem nil : Balanced [] := fun _ => rfl

theorem void {roles : List Role} (h : Balanced roles) : Balanced (.void :: roles) := h

theorem append {roles more : List Role} (h : Balanced roles) (hmore : Balanced more) :
    Balanced (roles ++ more) := by
  intro opened
  rw [openAfter?_append, h opened]
  exact hmore opened

theorem element {inside roles : List Role} (name : List Char) (hinside : Balanced inside)
    (h : Balanced roles) : Balanced (.opens name :: (inside ++ .closes name :: roles)) := by
  intro opened
  rw [openAfter?, openAfter?_append, hinside, Option.bind_some, openAfter?, if_pos rfl]
  exact h opened

end Balanced

/-! ## The roles of tokens -/

/-- The roles of the tags among the tokens. -/
def rolesOf (tokens : List Token) : List Role := (tokens.filterMap Piece.found?).map roleOf

@[simp] theorem rolesOf_nil : rolesOf [] = [] := rfl

@[simp] theorem rolesOf_char (c : Char) (tokens : List Token) :
    rolesOf (.char c :: tokens) = rolesOf tokens := rfl

@[simp] theorem rolesOf_found (tag : List Char) (tokens : List Token) :
    rolesOf (.found tag :: tokens) = roleOf tag :: rolesOf tokens := rfl

@[simp] theorem rolesOf_append (tokens more : List Token) :
    rolesOf (tokens ++ more) = rolesOf tokens ++ rolesOf more := by
  rw [rolesOf, List.filterMap_append, List.map_append]
  rfl

/-- HTML is well nested if the tags among its tokens are balanced. -/
theorem isNested_writeTokens {tokens : List Token} (h : Tokens tokens)
    (hroles : Balanced (rolesOf tokens)) : IsNested (writeTokens tokens) := by
  rw [IsNested, findAll_anyTag_writeTokens h]
  exact hroles []

/-! ## The tags of elements -/

/-- The text could be the name of a tag: it holds no white space, no slash and no bracket. -/
def TagName (s : List Char) : Prop := ∀ c ∈ s, (isBlank c = false ∧ c ≠ '/') ∧ c ≠ '<' ∧ c ≠ '>'

instance (s : List Char) : Decidable (TagName s) :=
  inferInstanceAs (Decidable (∀ c ∈ s, _))

theorem TagName.unbracketed {name : List Char} (h : TagName name) : Unbracketed name :=
  fun c hc => (h c hc).2

theorem tagName_of_nameLike {s : List Char} (h : NameLike s) : TagName s := by
  intro c hc
  refine ⟨⟨h.isBlank c hc, ?_⟩, h.unbracketed c hc⟩
  rintro rfl
  rcases h _ hc with h | h
  · exact absurd h (by decide +kernel)
  · exact absurd h (by decide)

theorem tagName_of_isTagNameChar {s : List Char} (h : ∀ c ∈ s, isTagNameChar c = true) : TagName s := by
  intro c hc
  have hsolid := solid_of_isTagNameChar h
  refine ⟨⟨hsolid.isBlank c hc, ?_⟩, hsolid.isValue.unbracketed c hc⟩
  rintro rfl
  exact absurd (h _ hc) (by decide)

theorem nameAt_append_cons {name : List Char} (h : TagName name) {d : Char}
    (hd : isBlank d = true ∨ d = '>') (rest : List Char) : nameAt (name ++ d :: rest) = name := by
  have hname : ∀ c ∈ name, (!(isBlank c || c == '>')) = true := by
    intro c hc
    obtain ⟨⟨hblank, -⟩, -, hbracket⟩ := h c hc
    rw [hblank, beq_false_of_ne hbracket]
    rfl
  have hend : (!(isBlank d || d == '>')) = false := by
    rcases hd with hblank | rfl
    · rw [hblank]
      rfl
    · rw [beq_self_eq_true, Bool.or_true]
      rfl
  exact (span_append_cons hname hend rest).1

/-- Attributes as they stand in a start tag: there are none, or they begin after a space and end with a
quote. -/
def ClosedPart (s : List Char) : Prop := s = [] ∨ ∃ t, s = ' ' :: (t ++ ['\x22'])

theorem ClosedPart.append {s t : List Char} (hs : ClosedPart s) (ht : ClosedPart t) :
    ClosedPart (s ++ t) := by
  rcases hs with rfl | ⟨u, rfl⟩
  · exact ht
  · rcases ht with rfl | ⟨v, rfl⟩
    · rw [List.append_nil]
      exact .inr ⟨u, rfl⟩
    · exact .inr ⟨u ++ '\x22' :: ' ' :: v, by simp⟩

theorem closedPart_written (key value : List Char) : ClosedPart (written key value) :=
  .inr ⟨key ++ "=\"".toList ++ replaceChar '\x22' "&quot;".toList value, by simp [written]⟩

/-- A tag ends with a slash only if its inside does. -/
theorem exists_of_slash_suffix {inside : List Char} (h : "/>".toList <:+ '<' :: inside ++ ['>']) :
    ∃ t, inside = t ++ ['/'] := by
  obtain ⟨t, ht⟩ := h
  have hslash : "/>".toList = ['/'] ++ ['>'] := rfl
  rw [hslash, ← List.append_assoc] at ht
  have hinit := List.append_inj_left' ht rfl
  cases t with
  | nil => exact absurd (List.cons.inj hinit).1 (by decide)
  | cons c t =>
    obtain ⟨-, rfl⟩ := List.cons.inj hinit
    exact ⟨t, rfl⟩

/-- The start tag of an element opens it. -/
theorem roleOf_openTag {name part : List Char} (hname : TagName name) (hpart : ClosedPart part) :
    roleOf (openTag name part) = .opens name := by
  have hnot : ¬ (openTag name part = clozeTag ∨ "/>".toList <:+ openTag name part) := by
    rintro (hcloze | hslash)
    · refine openTag_ne_clozeTag (fun hspace => ?_) (fun hsome => ?_) hcloze
      · exact absurd (hname _ hspace).1.1 (by decide)
      · obtain ⟨t, rfl⟩ := hpart.resolve_left hsome
        simp
    · obtain ⟨s, hs⟩ := exists_of_slash_suffix hslash
      rcases hpart with rfl | ⟨t, rfl⟩
      · have hmem : '/' ∈ name := by
          rw [List.append_nil] at hs
          rw [hs]
          simp
        exact (hname _ hmem).1.2 rfl
      · rw [← List.cons_append, ← List.append_assoc] at hs
        exact absurd (List.append_inj_right' hs rfl) (by decide)
  have hslash : ∀ rest, name ++ part ++ ['>'] ≠ '/' :: rest := by
    intro rest heq
    cases name with
    | nil => rcases hpart with rfl | ⟨t, rfl⟩ <;> exact absurd (List.cons.inj heq).1 (by decide)
    | cons c name => exact (hname c List.mem_cons_self).1.2 (List.cons.inj heq).1
  have hat : nameAt (name ++ part ++ ['>']) = name := by
    rcases hpart with rfl | ⟨t, rfl⟩
    · rw [List.append_nil]
      exact nameAt_append_cons hname (.inr rfl) []
    · rw [List.append_assoc]
      exact nameAt_append_cons hname (.inl (by decide)) _
  rw [roleOf, if_neg hnot]
  have htail : (openTag name part).tail = name ++ part ++ ['>'] := rfl
  rw [htail]
  split
  · next rest heq => exact absurd heq (hslash rest)
  · rw [hat]

/-- The end tag of an element closes it. -/
theorem roleOf_closeTag {name : List Char} (hname : TagName name) (hne : name ≠ []) :
    roleOf (closeTag name) = .closes name := by
  have hnot : ¬ (closeTag name = clozeTag ∨ "/>".toList <:+ closeTag name) := by
    rintro (hcloze | hslash)
    · exact absurd (List.cons.inj (List.cons.inj hcloze).2).1 (by decide)
    · obtain ⟨s, hs⟩ := exists_of_slash_suffix hslash
      cases s with
      | nil => exact hne (List.cons.inj hs).2
      | cons c s =>
        have hmem : '/' ∈ name := by
          rw [(List.cons.inj hs).2]
          simp
        exact (hname _ hmem).1.2 rfl
  have htail : (closeTag name).tail = '/' :: (name ++ ['>']) := rfl
  rw [roleOf, if_neg hnot, htail]
  exact congrArg Role.closes (nameAt_append_cons hname (.inr rfl) [])

/-! ## Marking start tags -/

/-- Replacing an attribute leaves the quote at the end: what is replaced ends with a quote. -/
theorem exists_of_replaceFirst?_quote {key value s edited : List Char}
    (h : (existing key).replaceFirst? (fun _ => written key value) (s ++ "\">".toList) = some edited) :
    ∃ s', edited = s' ++ "\">".toList ∧ (s.head? = some ' ' → s'.head? = some ' ') := by
  induction s generalizing edited with
  | nil =>
    have hnone := @replaceFirst?_append key (fun _ => written key value) "\">".toList (by decide) []
    rw [List.append_nil] at hnone
    rw [List.nil_append, hnone] at h
    cases h
  | cons c s ih =>
    rw [List.cons_append, Recognizer.replaceFirst?] at h
    cases hrun : (existing key).run (c :: (s ++ "\">".toList)) with
    | some found =>
      obtain ⟨u, rest⟩ := found
      rw [hrun] at h
      cases h
      obtain ⟨w, hw⟩ : ∃ w, written key value = ' ' :: (w ++ ['\x22']) :=
        (closedPart_written key value).resolve_left (by simp [written])
      have hexisting : existing? key (c :: (s ++ "\">".toList)) = some (u, rest) := hrun
      obtain ⟨before, heq⟩ := existing?_append hexisting
      have htext : before ++ '\x22' :: rest = (c :: s ++ ['\x22']) ++ ['>'] := by
        rw [← heq]
        simp
      -- What is left begins after a quote, so it has the last quote, or that one is the end of the match.
      obtain ⟨r, hr, hinit⟩ := exists_of_append_eq_concat htext (List.cons_ne_nil _ _)
      have hne : r ≠ [] := by
        rintro rfl
        exact absurd (List.cons.inj hr).1 (by decide)
      obtain ⟨last, rfl, -⟩ := exists_of_append_eq_concat hinit.symm hne
      cases last with
      | nil =>
        obtain ⟨-, rfl⟩ := List.cons.inj hr
        exact ⟨' ' :: w, by simp [hw], fun _ => rfl⟩
      | cons d last =>
        obtain ⟨-, rfl⟩ := List.cons.inj hr
        exact ⟨written key value ++ last, by simp, fun _ => by rw [hw]; rfl⟩
    | none =>
      rw [hrun] at h
      obtain ⟨edited', h', rfl⟩ := Option.map_eq_some_iff.1 h
      obtain ⟨s', rfl, -⟩ := ih h'
      exact ⟨c :: s', rfl, id⟩

/-- Replacing an attribute leaves attributes as they stand in a start tag. -/
theorem ClosedPart.exists_of_replaceFirst? {key value part edited : List Char} (h : ClosedPart part)
    (hedited : (existing key).replaceFirst? (fun _ => written key value) (part ++ ['>']) =
      some edited) : ∃ part', edited = part' ++ ['>'] ∧ ClosedPart part' := by
  rcases h with rfl | ⟨t, rfl⟩
  · have hnone := @replaceFirst?_append key (fun _ => written key value) ['>'] (by decide) []
    rw [List.append_nil] at hnone
    rw [List.nil_append, hnone] at hedited
    cases hedited
  · have htext : ' ' :: (t ++ ['\x22']) ++ ['>'] = (' ' :: t) ++ "\">".toList := by simp
    rw [htext] at hedited
    obtain ⟨s, rfl, hspace⟩ := exists_of_replaceFirst?_quote hedited
    obtain ⟨rest, rfl⟩ : ∃ rest, s = ' ' :: rest := by
      cases s with
      | nil => cases hspace rfl
      | cons c rest =>
        cases hspace rfl
        exact ⟨rest, rfl⟩
    exact ⟨' ' :: (rest ++ ['\x22']), by simp, .inr ⟨rest, rfl⟩⟩

/-- The tag opens an element, with a name that marking does not cut. -/
structure OpensElement (name tag : List Char) : Prop where
  /-- There is a name. -/
  ne_nil : name ≠ []
  /-- It is a name of a tag. -/
  chars : ∀ c ∈ name, isTagNameChar c = true
  /-- Attributes follow it. -/
  part : ∃ part, ClosedPart part ∧ tag = openTag name part

namespace OpensElement

variable {name tag : List Char}

theorem roleOf (h : OpensElement name tag) : roleOf tag = .opens name := by
  obtain ⟨part, hpart, rfl⟩ := h.part
  exact roleOf_openTag (tagName_of_isTagNameChar h.chars) hpart

/-- Setting an attribute of a start tag leaves its name. -/
theorem setAttribute (h : OpensElement name tag) (key value : List Char) :
    OpensElement name (StartTag.setAttribute key value tag) := by
  obtain ⟨part, hpart, rfl⟩ := h.part
  have hsolid := solid_of_isTagNameChar h.chars
  have hstart : ∀ c ∈ '<' :: name, isBlank c = false :=
    List.forall_mem_cons.2 ⟨by decide, hsolid.isBlank⟩
  have htext : openTag name part = ('<' :: name) ++ (part ++ ['>']) := by simp [openTag]
  refine ⟨h.ne_nil, h.chars, ?_⟩
  unfold StartTag.setAttribute
  rw [htext, replaceFirst?_append hstart]
  cases hfirst : (existing key).replaceFirst? (fun _ => written key value) (part ++ ['>']) with
  | some edited =>
    obtain ⟨part', rfl, hpart'⟩ := hpart.exists_of_replaceFirst? hfirst
    exact ⟨part', hpart', by simp [openTag]⟩
  | none =>
    refine ⟨written key value ++ part, (closedPart_written key value).append hpart, ?_⟩
    have hend : ∀ c ∈ (part ++ ['>']).head?, isTagNameChar c = false := by
      intro c hc
      rcases hpart with rfl | ⟨t, rfl⟩
      · cases hc
        decide
      · cases hc
        decide
    show insertAfterName (written key value) ('<' :: (name ++ (part ++ ['>']))) = _
    rw [insertAfterName_append h.ne_nil h.chars hend]
    simp [openTag]

theorem taggedStart (h : OpensElement name tag) (options : Options) (classes language : List Char) :
    OpensElement name (taggedStart options classes language tag) :=
  (h.setAttribute _ _).setAttribute _ _

theorem inlineStart (h : OpensElement name tag) (options : Options) :
    OpensElement name (inlineStart options tag) := by
  unfold Report.inlineStart
  split
  · exact h
  · dsimp only
    split
    · exact (h.setAttribute _ _).setAttribute _ _
    · exact h.setAttribute _ _

end OpensElement

/-- The tag opens an element of some name. -/
def Opening (tag : List Char) : Prop := ∃ name, OpensElement name tag

/-- Marking a block changes no role. -/
theorem rolesOf_marked (options : Options) {block : TokenBlock} (h : block.Proper)
    (hsource : ∀ t ∈ block.source, SearchedToken Opening t) :
    rolesOf (block.marked options) = rolesOf block.source := by
  obtain ⟨⟨⟨pre, hpre⟩, ⟨code, hcode⟩⟩, -⟩ := h.searched hsource
  have hpreRole := hpre.taggedStart options options.codeBlockClass (languageOf block.codeStart)
  have hcodeRole := hcode.taggedStart options options.codeBlockCodeClass (languageOf block.codeStart)
  simp only [TokenBlock.marked, TokenBlock.source, rolesOf_found, rolesOf_append]
  rw [hpreRole.roleOf, hcodeRole.roleOf, hpre.roleOf, hcode.roleOf]

theorem opening_blockMarker (options : Options) {tokens : List Token}
    (h : ∀ t ∈ tokens, SearchedToken Opening t) :
    ∀ t ∈ (blockMarker options).rewrite tokens, SearchedToken Opening t := by
  refine forall_blockMarker ?_ h
  intro block hproper hsource
  obtain ⟨⟨⟨pre, hpre⟩, ⟨code, hcode⟩⟩, -⟩ := hproper.searched hsource
  exact ⟨fun _ => ⟨pre, hpre.taggedStart options _ _⟩, fun _ => ⟨code, hcode.taggedStart options _ _⟩⟩

/-- Marking blocks of code changes no role. -/
theorem rolesOf_blockMarker (options : Options) {tokens : List Token}
    (h : ∀ t ∈ tokens, SearchedToken Opening t) :
    rolesOf ((blockMarker options).rewrite tokens) = rolesOf tokens := by
  induction tokens using (blockMarker options).rewrite_induction with
  | nil => rw [Rewriter.rewrite_nil]
  | @run tokens out rest hrun ih =>
    obtain ⟨⟨block, r⟩, hblock, hp⟩ := Option.map_eq_some_iff.1 hrun
    cases hp
    obtain ⟨rfl, hproper⟩ := tokenBlock?_eq_some_iff.1 hblock
    obtain ⟨hsource, hrest⟩ := List.forall_mem_append.1 h
    rw [Rewriter.rewrite_of_run hrun, rolesOf_append, rolesOf_append, ih hrest,
      rolesOf_marked options hproper hsource]
  | @step t tokens hrun ih =>
    rw [Rewriter.rewrite_of_not_run hrun]
    have hrest := ih (List.forall_mem_cons.1 h).2
    cases t with
    | char c => exact hrest
    | found tag => rw [rolesOf_found, rolesOf_found, hrest]

/-- Marking other code changes no role. -/
theorem rolesOf_markInline (options : Options) {tokens : List Token}
    (h : ∀ t ∈ tokens, SearchedToken Opening t) :
    rolesOf (markInline options tokens) = rolesOf tokens := by
  induction tokens with
  | nil => rfl
  | cons t tokens ih =>
    obtain ⟨ht, htokens⟩ := List.forall_mem_cons.1 h
    have hrest : rolesOf (tokens.map (TagSearch.edit (isStart "code") (inlineStart options))) =
        rolesOf tokens := ih htokens
    cases t with
    | char c => exact hrest
    | found tag =>
      rw [markInline, List.map_cons, TagSearch.edit]
      by_cases hcode : isStart "code" tag = true
      · obtain ⟨name, hopens⟩ := ht (.inr hcode)
        rw [if_pos hcode, rolesOf_found, rolesOf_found, hrest, (hopens.inlineStart options).roleOf,
          hopens.roleOf]
      · rw [if_neg hcode, rolesOf_found, rolesOf_found, hrest]

end Assessment.Report
