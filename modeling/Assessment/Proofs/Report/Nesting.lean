import Assessment.Proofs.Report.Roles

/-!
# Proofs: well-nested reports

Rendered nodes are well nested, and marking changes no role, so all depends on joining the code of
preformatted blocks. Joining takes a block to go up to the first end tag. It keeps the nesting where no
block that holds code holds another block, and where no other name is taken for that of a block or of
code (`question_is_nested`).
-/

namespace Assessment.Report

open Assessment.Item Assessment.Text Assessment.Markup Assessment.Markup.StartTag
open Assessment.Xml hiding Token

/-! ## Nested tokens -/

/-- The name is one of a tag, and no search takes it for the name of a preformatted block or of code
unless it is that name. -/
structure PlainName (name : List Char) : Prop where
  /-- It could be the name of a tag. -/
  tagName : TagName name
  /-- It has characters. -/
  ne_nil : name ≠ []
  /-- It is not taken for that of a preformatted block. -/
  pre : goesOnAfter "pre" name = false
  /-- It is not taken for that of code. -/
  code : goesOnAfter "code" name = false

instance (name : List Char) : Decidable (PlainName name) :=
  decidable_of_iff (TagName name ∧ name ≠ [] ∧ goesOnAfter "pre" name = false ∧
      goesOnAfter "code" name = false)
    ⟨fun h => ⟨h.1, h.2.1, h.2.2.1, h.2.2.2⟩, fun h => ⟨h.tagName, h.ne_nil, h.pre, h.code⟩⟩

/-- Tokens in which start tags and end tags match. A preformatted block holds no code, or it goes up to
the first end tag of such a block. -/
inductive Nested : List Token → Prop where
  | nil : Nested []
  | char (c : Char) {tokens : List Token} (h : Nested tokens) : Nested (.char c :: tokens)
  | void {tag : List Char} {tokens : List Token} (hrole : roleOf tag = .void)
      (hpre : isStart "pre" tag = false) (hcode : isCodeTag tag = false) (h : Nested tokens) :
      Nested (.found tag :: tokens)
  | element {name part : List Char} {inside tokens : List Token} (hname : PlainName name)
      (hpart : ClosedPart part) (hbrackets : Unbracketed part)
      (hpieces : name = "pre".toList →
        (∀ t ∈ inside, isTagOf (isStart "code") t = false) ∨ .found preEnd ∉ inside)
      (hinside : Nested inside) (h : Nested tokens) :
      Nested (.found (openTag name part) :: (inside ++ .found (closeTag name) :: tokens))

section Tags

variable {name part : List Char}

theorem ClosedPart.attributePart (h : ClosedPart part) (hbrackets : Unbracketed part) :
    AttributePart part where
  unbracketed := hbrackets
  spaced := by
    rcases h with rfl | ⟨t, rfl⟩
    · exact .inl rfl
    · exact .inr ⟨_, rfl⟩

theorem isCodeTag_openTag (hname : PlainName name) (hpart : AttributePart part) :
    isCodeTag (openTag name part) = (name == "code".toList) := by
  have hslash : beginsWord "/code".toList name = false := by
    refine eq_false_of_ne_true fun h => ?_
    obtain ⟨-, rest, rfl⟩ := exists_of_beginsWord h
    exact (hname.tagName '/' (by simp)).1.2 rfl
  rw [isCodeTag, isStart_code_openTag hname.tagName.unbracketed hpart hname.code,
    isStart_openTag_eq (by decide) (by decide) hname.tagName.unbracketed hpart, hslash, Bool.or_false]

theorem isCodeTag_closeTag (hname : PlainName name) :
    isCodeTag (closeTag name) = (name == "code".toList) := by
  have hinside : Unbracketed ('/' :: name) := .cons (by decide) (by decide) hname.tagName.unbracketed
  have hbegins : beginsWord "/code".toList ('/' :: name) = beginsWord "code".toList name := by
    have hafter : after? "/code".toList ('/' :: name) = after? "code".toList name := if_pos rfl
    rw [beginsWord, beginsWord, hafter]
  rw [isCodeTag, isStart_code_closeTag hname.tagName.unbracketed, Bool.false_or, closeTag,
    isStart_eq (by decide) hinside, hbegins, beginsWord_of_not_goesOnAfter hname.code]

theorem roleOf_preEnd : roleOf preEnd = .closes "pre".toList := by decide +kernel

theorem roleOf_codeEnd : roleOf codeEnd = .closes "code".toList := by decide +kernel

theorem closeTag_inj {other : List Char} (h : closeTag name = closeTag other) : name = other := by
  simpa [closeTag] using h

/-- The tokens of an element are balanced with those of its inside and those that follow it. -/
theorem balanced_of_element {inside tokens : List Token} (hname : TagName name) (hne : name ≠ [])
    (hpart : ClosedPart part) (hinside : Balanced (rolesOf inside))
    (h : Balanced (rolesOf tokens)) :
    Balanced (rolesOf (.found (openTag name part) :: (inside ++ .found (closeTag name) :: tokens))) := by
  rw [rolesOf_found, rolesOf_append, rolesOf_found, roleOf_openTag hname hpart,
    roleOf_closeTag hname hne]
  exact hinside.element _ h

end Tags

namespace Nested

variable {tokens more : List Token}

theorem append (h : Nested tokens) (hmore : Nested more) : Nested (tokens ++ more) := by
  induction h with
  | nil => exact hmore
  | char c _ ih => exact .char c ih
  | void hrole hpre hcode _ ih => exact .void hrole hpre hcode ih
  | element hname hpart hbrackets hpieces hinside _ _ ih =>
    rw [List.cons_append, List.append_assoc, List.cons_append]
    exact .element hname hpart hbrackets hpieces hinside ih

/-- Nested tokens are balanced. -/
theorem balanced (h : Nested tokens) : Balanced (rolesOf tokens) := by
  induction h with
  | nil => exact .nil
  | char c _ ih => exact ih
  | void hrole _ _ _ ih =>
    rw [rolesOf_found, hrole]
    exact ih.void
  | element hname hpart _ _ _ _ ihInside ih =>
    exact balanced_of_element hname.tagName hname.ne_nil hpart ihInside ih

/-- Nested tokens are balanced without their tags of code. -/
theorem balanced_filter (h : Nested tokens) :
    Balanced (rolesOf (tokens.filter (TagSearch.isOther isCodeTag))) := by
  induction h with
  | nil => exact .nil
  | char c _ ih => exact ih
  | @void tag tokens hrole hpre hcode _ ih =>
    have hother : TagSearch.isOther isCodeTag (.found tag) = true := by
      rw [isOther_eq_not, isTagOf, hcode, Bool.not_false]
    rw [List.filter_cons_of_pos hother, rolesOf_found, hrole]
    exact ih.void
  | @element name part inside tokens hname hpart hbrackets hpieces _ _ ihInside ih =>
    have hopen := isCodeTag_openTag hname (hpart.attributePart hbrackets)
    have hclose := isCodeTag_closeTag hname
    cases hcode : name == "code".toList with
    | true =>
      -- Both tags go, and what is between them stays.
      have hopenNot : ¬ TagSearch.isOther isCodeTag (.found (openTag name part)) = true := by
        rw [isOther_eq_not, isTagOf, hopen, hcode]
        exact Bool.false_ne_true
      have hcloseNot : ¬ TagSearch.isOther isCodeTag (.found (closeTag name)) = true := by
        rw [isOther_eq_not, isTagOf, hclose, hcode]
        exact Bool.false_ne_true
      rw [List.filter_cons_of_neg hopenNot, List.filter_append, List.filter_cons_of_neg hcloseNot,
        rolesOf_append]
      exact ihInside.append ih
    | false =>
      have hopenOther : TagSearch.isOther isCodeTag (.found (openTag name part)) = true := by
        rw [isOther_eq_not, isTagOf, hopen, hcode, Bool.not_false]
      have hcloseOther : TagSearch.isOther isCodeTag (.found (closeTag name)) = true := by
        rw [isOther_eq_not, isTagOf, hclose, hcode, Bool.not_false]
      rw [List.filter_cons_of_pos hopenOther, List.filter_append, List.filter_cons_of_pos hcloseOther]
      exact balanced_of_element hname.tagName hname.ne_nil hpart ihInside ih

/-- Where no preformatted block begins, none ends. -/
theorem preEnd_not_mem (h : Nested tokens) (hnone : ∀ t ∈ tokens, isTagOf (isStart "pre") t = false) :
    .found preEnd ∉ tokens := by
  induction h with
  | nil => exact List.not_mem_nil
  | char c _ ih =>
    have hrest := ih (List.forall_mem_cons.1 hnone).2
    rw [List.mem_cons, not_or]
    exact ⟨nofun, hrest⟩
  | void hrole _ _ _ ih =>
    have hrest := ih (List.forall_mem_cons.1 hnone).2
    rw [List.mem_cons, not_or]
    refine ⟨fun heq => ?_, hrest⟩
    rw [← Piece.found.inj heq, roleOf_preEnd] at hrole
    cases hrole
  | @element name part inside tokens hname hpart hbrackets hpieces _ _ ihInside ih =>
    obtain ⟨hopen, hothers⟩ := List.forall_mem_cons.1 hnone
    obtain ⟨hinside, hrest⟩ := List.forall_mem_append.1 hothers
    have hnot : (name == "pre".toList) = false := by
      rw [← isStart_pre_openTag hname.tagName.unbracketed (hpart.attributePart hbrackets) hname.pre]
      exact hopen
    rw [List.mem_cons, List.mem_append, List.mem_cons]
    rintro (heq | hmem | heq | hmem)
    · have hrole := roleOf_preEnd
      rw [Piece.found.inj heq, roleOf_openTag hname.tagName hpart] at hrole
      cases hrole
    · exact ihInside hinside hmem
    · have hpre : closeTag "pre".toList = closeTag name := Piece.found.inj heq
      rw [← closeTag_inj hpre] at hnot
      exact absurd hnot (by decide)
    · exact ih (List.forall_mem_cons.1 hrest).2 hmem

/-- What is taken for the start tag of a preformatted block or of code is that of an element. -/
theorem exists_openTag {tag : List Char} (h : Nested tokens) (hmem : .found tag ∈ tokens)
    (hstart : isStart "pre" tag = true ∨ isStart "code" tag = true) :
    ∃ name part, PlainName name ∧ ClosedPart part ∧ Unbracketed part ∧ tag = openTag name part := by
  induction h with
  | nil => exact absurd hmem List.not_mem_nil
  | char c _ ih =>
    rcases List.mem_cons.1 hmem with heq | hmem
    · cases heq
    · exact ih hmem
  | void _ hpre hcode _ ih =>
    rcases List.mem_cons.1 hmem with heq | hmem
    · cases heq
      rcases hstart with h | h
      · exact absurd h (ne_true_of_eq_false hpre)
      · exact absurd (isCodeTag_of_isStart h) (ne_true_of_eq_false hcode)
    · exact ih hmem
  | @element name part inside tokens hname hpart hbrackets _ _ _ ihInside ih =>
    rw [List.mem_cons, List.mem_append, List.mem_cons] at hmem
    rcases hmem with heq | hmem | heq | hmem
    · exact ⟨name, part, hname, hpart, hbrackets, Piece.found.inj heq⟩
    · exact ihInside hmem
    · cases heq
      rcases hstart with h | h
      · exact absurd h (ne_true_of_eq_false (isStart_pre_closeTag hname.tagName.unbracketed))
      · exact absurd h (ne_true_of_eq_false (isStart_code_closeTag hname.tagName.unbracketed))
    · exact ih hmem

/-- The start tag of code opens an element of this name. -/
theorem opensElement_code {tag : List Char} (h : Nested tokens) (hmem : .found tag ∈ tokens)
    (hstart : isStart "code" tag = true) : OpensElement "code".toList tag := by
  obtain ⟨name, part, hname, hpart, hbrackets, rfl⟩ := h.exists_openTag hmem (.inr hstart)
  rw [isStart_code_openTag hname.tagName.unbracketed (hpart.attributePart hbrackets) hname.code,
    beq_iff_eq] at hstart
  exact ⟨by decide, by decide, part, hpart, by rw [hstart]⟩

/-- The start tag of a preformatted block opens an element of this name. -/
theorem opensElement_pre {tag : List Char} (h : Nested tokens) (hmem : .found tag ∈ tokens)
    (hstart : isStart "pre" tag = true) : OpensElement "pre".toList tag := by
  obtain ⟨name, part, hname, hpart, hbrackets, rfl⟩ := h.exists_openTag hmem (.inl hstart)
  rw [isStart_pre_openTag hname.tagName.unbracketed (hpart.attributePart hbrackets) hname.pre,
    beq_iff_eq] at hstart
  exact ⟨by decide, by decide, part, hpart, by rw [hstart]⟩

/-- All start tags that are searched for open an element. -/
theorem opening (h : Nested tokens) : ∀ t ∈ tokens, SearchedToken Opening t := by
  refine searchedToken_of_forall_found fun tag htag hstart => ?_
  rcases hstart with hpre | hcode
  · exact ⟨_, h.opensElement_pre htag hpre⟩
  · exact ⟨_, h.opensElement_code htag hcode⟩

end Nested

/-! ## Joining nested tokens -/

/-- At a tag that begins no preformatted block nothing is joined. -/
theorem merger_cons {tag : List Char} (h : isStart "pre" tag = false) (tokens : List Token) :
    merger.rewrite (.found tag :: tokens) = .found tag :: merger.rewrite tokens := by
  have hnone : merger.run (.found tag :: tokens) = none := if_neg (ne_true_of_eq_false h)
  exact Rewriter.rewrite_of_not_run hnone

/-- Up to the end of a preformatted block, nothing is joined where there is no code. -/
theorem merger_append_preEnd {tokens : List Token}
    (h : ∀ t ∈ tokens, isTagOf (isStart "code") t = false) (rest : List Token) :
    merger.rewrite (tokens ++ .found preEnd :: rest) =
      tokens ++ .found preEnd :: merger.rewrite rest := by
  induction hlength : tokens.length using Nat.strong_induction_on generalizing tokens with
  | _ n ih =>
    cases tokens with
    | nil => exact merger_cons (by decide +kernel) rest
    | cons t tokens =>
      obtain ⟨-, htokens⟩ := List.forall_mem_cons.1 h
      rw [List.length_cons] at hlength
      by_cases hpre : isTagOf (isStart "pre") t = true
      · obtain ⟨opening, rfl, hopening⟩ := exists_of_isTagOf hpre
        -- The block goes up to the end tag of a block inside, or up to that of its own.
        by_cases hmem : .found preEnd ∈ tokens
        · obtain ⟨inside, more, rfl, hnot⟩ := List.eq_append_cons_of_mem hmem
          obtain ⟨hinside, hmore⟩ := List.forall_mem_append.1 htokens
          have hshorter : more.length < n := by
            rw [← hlength, List.length_append, List.length_cons]
            omega
          rw [List.cons_append, List.append_assoc, List.cons_append, merger_of_block hopening hnot,
            joinedTokens_of_inOnePiece (.inl hinside),
            ih _ hshorter (List.forall_mem_cons.1 hmore).2 rfl]
          simp
        · rw [List.cons_append, merger_of_block hopening hmem,
            joinedTokens_of_inOnePiece (.inl htokens)]
          rfl
      · have hnone : merger.run (t :: (tokens ++ .found preEnd :: rest)) = none :=
          mergeFirst?_eq_none_iff.2 fun hstart => absurd hstart hpre
        have hshorter : tokens.length < n := by omega
        rw [List.cons_append, Rewriter.rewrite_of_not_run hnone, ih _ hshorter htokens rfl,
          List.cons_append]

/-- A block is balanced when its code is in one piece. -/
theorem balanced_mergedTokens {part : List Char} {inside : List Token} (hpart : ClosedPart part)
    (hinside : Nested inside) : Balanced (rolesOf (mergedTokens (openTag "pre".toList part) inside)) := by
  have hopen := @roleOf_openTag "pre".toList part (by decide) hpart
  unfold mergedTokens
  split
  · next start hfirst =>
    obtain ⟨hmem, hstart⟩ := mem_of_firstCode? hfirst
    have hcode := (hinside.opensElement_code hmem hstart).roleOf
    have hjoined := (hinside.balanced_filter.element "code".toList .nil).element "pre".toList .nil
    simp only [rolesOf_found, rolesOf_append, rolesOf_nil, hopen, hcode, roleOf_codeEnd, roleOf_preEnd]
    simpa using hjoined
  · rw [← closeTag_pre]
    exact balanced_of_element (by decide) (by decide) hpart hinside.balanced .nil

namespace Nested

/-- Joining keeps a preformatted block balanced with the tokens after it. -/
theorem exists_joined_pre {part : List Char} {inside joined tokens : List Token} (hpart : ClosedPart part)
    (hbrackets : Unbracketed part) (hinside : Nested inside)
    (hpieces : (∀ t ∈ inside, isTagOf (isStart "code") t = false) ∨ .found preEnd ∉ inside)
    {rest : List Token} (hjoined : merger.rewrite tokens = joined ++ merger.rewrite rest)
    (hbalanced : Balanced (rolesOf joined)) :
    ∃ block, merger.rewrite (.found (openTag "pre".toList part) :: (inside ++ .found preEnd :: tokens)) =
      block ++ merger.rewrite rest ∧ Balanced (rolesOf block) := by
  have hattributes := hpart.attributePart hbrackets
  rcases hpieces with hcode | hnot
  · -- Without code, no block inside is changed either.
    have hall : ∀ t ∈ .found (openTag "pre".toList part) :: inside,
        isTagOf (isStart "code") t = false :=
      List.forall_mem_cons.2
        ⟨@isStart_code_openTag "pre".toList part (by decide) hattributes (by decide), hcode⟩
    refine ⟨.found (openTag "pre".toList part) :: (inside ++ .found preEnd :: joined), ?_, ?_⟩
    · have hsame := merger_append_preEnd hall tokens
      rw [hjoined, List.cons_append] at hsame
      rw [hsame]
      simp
    · rw [← closeTag_pre]
      exact balanced_of_element (by decide) (by decide) hpart hinside.balanced hbalanced
  · have hopening : isStart "pre" (openTag "pre".toList part) = true :=
      isStart_pre_openTag (by decide) hattributes (by decide)
    refine ⟨mergedTokens (openTag "pre".toList part) inside ++ joined, ?_, ?_⟩
    · rw [merger_block hopening hnot, hjoined, List.append_assoc]
    · rw [rolesOf_append]
      exact (balanced_mergedTokens hpart hinside).append hbalanced

/-- Joining keeps nested tokens balanced, whatever follows them. -/
theorem exists_joined {tokens : List Token} (h : Nested tokens) (rest : List Token) :
    ∃ joined, merger.rewrite (tokens ++ rest) = joined ++ merger.rewrite rest ∧
      Balanced (rolesOf joined) := by
  induction h generalizing rest with
  | nil => exact ⟨[], rfl, .nil⟩
  | @char c tokens _ ih =>
    obtain ⟨joined, hjoined, hbalanced⟩ := ih rest
    have hnone : merger.run (.char c :: (tokens ++ rest)) = none := rfl
    refine ⟨.char c :: joined, ?_, hbalanced⟩
    rw [List.cons_append, Rewriter.rewrite_of_not_run hnone, hjoined, List.cons_append]
  | @void tag tokens hrole hpre hcode _ ih =>
    obtain ⟨joined, hjoined, hbalanced⟩ := ih rest
    refine ⟨.found tag :: joined, ?_, ?_⟩
    · rw [List.cons_append, merger_cons hpre, hjoined, List.cons_append]
    · rw [rolesOf_found, hrole]
      exact hbalanced.void
  | @element name part inside tokens hname hpart hbrackets hpieces hnested _ ihInside ih =>
    obtain ⟨joined, hjoined, hbalanced⟩ := ih rest
    have hstart := isStart_pre_openTag hname.tagName.unbracketed (hpart.attributePart hbrackets) hname.pre
    have htext : .found (openTag name part) :: (inside ++ .found (closeTag name) :: tokens) ++ rest =
        .found (openTag name part) :: (inside ++ .found (closeTag name) :: (tokens ++ rest)) := by simp
    rw [htext]
    cases hpre : name == "pre".toList with
    | false =>
      -- No block begins here, so the inside and what follows are joined on their own.
      obtain ⟨joinedInside, hjoinedInside, hbalancedInside⟩ :=
        ihInside (.found (closeTag name) :: (tokens ++ rest))
      have hclose := isStart_pre_closeTag hname.tagName.unbracketed
      refine ⟨.found (openTag name part) :: (joinedInside ++ .found (closeTag name) :: joined), ?_, ?_⟩
      · rw [merger_cons (hstart.trans hpre), hjoinedInside, merger_cons hclose, hjoined]
        simp
      · exact balanced_of_element hname.tagName hname.ne_nil hpart hbalancedInside hbalanced
    | true =>
      obtain rfl := beq_iff_eq.1 hpre
      rw [closeTag_pre]
      exact exists_joined_pre hpart hbrackets hnested (hpieces rfl) hjoined hbalanced

end Nested

/-! ## Rendered nodes -/

/-- The preformatted blocks among some elements hold no code or no other block, and no element is taken
for a block or for code that is none. -/
structure BlocksApart (elements : List Element) : Prop where
  /-- A block holds no code or no other block. -/
  pres : ∀ e ∈ elements, preNames.contains e.name →
    (∀ inner ∈ reachedIn e.children, codeNames.contains inner.name = false) ∨
      ∀ inner ∈ reachedIn e.children, preNames.contains inner.name = false
  /-- There are names, and they do not begin like those of blocks and of code. -/
  names : ∀ e ∈ elements, htmlName e.name ≠ [] ∧ goesOnAfter "pre" (htmlName e.name) = false ∧
    goesOnAfter "code" (htmlName e.name) = false

instance (elements : List Element) : Decidable (BlocksApart elements) :=
  decidable_of_iff ((∀ e ∈ elements, preNames.contains e.name →
      (∀ inner ∈ reachedIn e.children, codeNames.contains inner.name = false) ∨
        ∀ inner ∈ reachedIn e.children, preNames.contains inner.name = false) ∧
      ∀ e ∈ elements, htmlName e.name ≠ [] ∧ goesOnAfter "pre" (htmlName e.name) = false ∧
        goesOnAfter "code" (htmlName e.name) = false)
    ⟨fun h => ⟨h.1, h.2⟩, fun h => ⟨h.pres, h.names⟩⟩

theorem BlocksApart.of_subset {elements more : List Element} (h : BlocksApart more)
    (hsubset : elements ⊆ more) : BlocksApart elements where
  pres e he := h.pres e (hsubset he)
  names e he := h.names e (hsubset he)

/-- The HTML is written from nested tokens. -/
def MadeNested (html : List Char) : Prop :=
  ∃ tokens, Tokens tokens ∧ Nested tokens ∧ writeTokens tokens = html

namespace MadeNested

theorem append {html more : List Char} (h : MadeNested html) (hmore : MadeNested more) :
    MadeNested (html ++ more) := by
  obtain ⟨tokens, htokens, hnested, rfl⟩ := h
  obtain ⟨others, hothers, hnestedOthers, rfl⟩ := hmore
  exact ⟨tokens ++ others, htokens.append hothers, hnested.append hnestedOthers,
    writeTokens_append tokens others⟩

theorem of_unbracketed {s : List Char} (h : Unbracketed s) : MadeNested s := by
  induction s with
  | nil => exact ⟨[], fun t ht => absurd ht List.not_mem_nil, .nil, rfl⟩
  | cons c s ih =>
    obtain ⟨hc, hs⟩ := List.forall_mem_cons.1 h
    obtain ⟨tokens, htokens, hnested, rfl⟩ := ih hs
    exact ⟨.char c :: tokens, List.forall_mem_cons.2 ⟨hc, htokens⟩, .char c hnested, rfl⟩

theorem nil : MadeNested [] := of_unbracketed fun _ hc => absurd hc List.not_mem_nil

theorem of_void {tag : List Char} (htag : IsTag tag) (hrole : roleOf tag = .void)
    (hpre : isStart "pre" tag = false) (hcode : isCodeTag tag = false) : MadeNested tag :=
  ⟨[.found tag], fun _ ht => List.mem_singleton.1 ht ▸ htag, .void hrole hpre hcode .nil, by simp⟩

/-- The tags of an element around nested HTML. -/
theorem within {name part html : List Char} (hname : PlainName name) (hpart : ClosedPart part)
    (hbrackets : Unbracketed part)
    (hpieces : name = "pre".toList →
      MadeOf (isStart "code" · = false) html ∨ MadeOf (isStart "pre" · = false) html)
    (h : MadeNested html) : MadeNested (within name part html) := by
  obtain ⟨tokens, htokens, hnested, rfl⟩ := h
  have hopen : IsToken (.found (openTag name part)) := isTag_openTag hname.tagName.unbracketed hbrackets
  have hclose : IsToken (.found (closeTag name)) := isTag_closeTag hname.tagName.unbracketed
  have hinside : Tokens (tokens ++ [.found (closeTag name)]) :=
    htokens.append fun _ ht => List.mem_singleton.1 ht ▸ hclose
  refine ⟨_, List.forall_mem_cons.2 ⟨hopen, hinside⟩,
    .element hname hpart hbrackets (fun hpre => ?_) hnested .nil, by simp [within_eq]⟩
  have hall : ∀ {start : String}, MadeOf (isStart start · = false) (writeTokens tokens) →
      ∀ t ∈ tokens, isTagOf (isStart start) t = false := by
    intro start hmade t ht
    cases t with
    | char c => rfl
    | found tag => exact hmade.forall_found htokens tag ht
  rcases hpieces hpre with hcode | hnone
  · exact .inl (hall hcode)
  · exact .inr (hnested.preEnd_not_mem (hall hnone))

end MadeNested

theorem closedPart_writeAttributes (attributes : Attributes) :
    ClosedPart (Xml.writeAttributes attributes) := by
  induction attributes with
  | nil => exact .inl rfl
  | cons a attributes ih =>
    obtain ⟨key, value⟩ := a
    rw [writeAttributes_cons]
    refine ClosedPart.append ?_ ih
    split
    · exact .inl rfl
    · exact .inr ⟨attributeName key ++ "=\"".toList ++ escape value, by simp [Xml.writeAttribute]⟩

theorem closedPart_class (name : List Char) :
    ClosedPart (" class=\"".toList ++ escape name ++ ['\x22']) :=
  .inr ⟨"class=\"".toList ++ escape name, rfl⟩

theorem closedPart_choiceWrapper (options : Options) : ClosedPart (choiceWrapperAttribute options) := by
  unfold choiceWrapperAttribute
  split
  · exact .inl rfl
  · exact closedPart_class _

theorem madeNested_image {attributes : List Char} (h : AttributePart attributes) :
    MadeNested ("<img".toList ++ attributes ++ " />".toList) := by
  have hname : PlainName "img".toList := by decide
  have hslash : "/>".toList <:+ openTag "img".toList (attributes ++ " /".toList) :=
    ⟨'<' :: ("img".toList ++ attributes ++ [' ']), by simp [openTag]⟩
  rw [image_eq]
  exact .of_void (isTag_openTag hname.tagName.unbracketed h.image.unbracketed) (if_pos (.inr hslash))
    (isStart_pre_openTag hname.tagName.unbracketed h.image hname.pre)
    (isCodeTag_openTag hname h.image)

/-- A block holds no tag of code or no tag of a block, if there are no blocks with code around it. -/
theorem BlocksApart.madeOf_pre {options : Options} (hcloze : options.cloze = clozeTag) {e : Element}
    (h : BlocksApart (reachedOf e.toNode)) (hpre : preNames.contains e.name)
    (hnodes : NamedNodes e.children) (spacing : Spacing) :
    MadeOf (isStart "code" · = false) (renderNodes options spacing e.children) ∨
      MadeOf (isStart "pre" · = false) (renderNodes options spacing e.children) := by
  obtain ⟨hsilent, hpreRule, -⟩ := contains_of_ofName e.name
  rw [hpre] at hpreRule
  rw [eq_of_beq hpreRule.symm] at hsilent
  have hself : e ∈ reachedOf e.toNode := by simp [Element.toNode, reachedOf]
  have hbelow : BlocksApart (reachedIn e.children) := by
    rw [Element.toNode, reachedOf_of_shown hsilent] at h
    exact h.of_subset (List.subset_cons_self _ _)
  rcases h.pres e hself hpre with hcode | hnone
  · exact .inl <| madeOf_renderNodes_without_code (madeOf_cloze hcloze) spacing hnodes
      fun e he => ⟨hcode e he, (hbelow.names e he).2.2⟩
  · have hclozePre : MadeOf (isStart "pre" · = false) options.cloze :=
      hcloze ▸ .of_isTag isTag_cloze (by decide)
    exact .inr <| madeOf_renderNodes_without_pre hclozePre spacing hnodes
      fun e he => ⟨hnone e he, (hbelow.names e he).2.1⟩

theorem keptByRendering_madeNested {options : Options} (hcloze : options.cloze = clozeTag) :
    KeptByRendering options (fun e => BlocksApart (reachedOf e.toNode)) fun _ html =>
      MadeNested html where
  text := .of_unbracketed
  append := .append
  hidden _ := .nil
  cloze _ := by
    rw [hcloze]
    exact .of_void isTag_cloze (if_pos (.inl rfl)) (by decide) (by decide +kernel)
  image _ hnamed := madeNested_image (attributePart_writeAttributes hnamed.2.1)
  line _ := .of_void isTag_line (by decide +kernel) (by decide) (by decide +kernel)
  choices _ h := h.within (by decide) (closedPart_choiceWrapper options)
    (unbracketed_choiceWrapperAttribute options) fun heq => absurd heq (by decide)
  element {e spacing} _ _ hnamed hapart h := by
    have hself : e ∈ reachedOf e.toNode := by simp [Element.toNode, reachedOf]
    obtain ⟨hne, hgoesPre, hgoesCode⟩ := hapart.names e hself
    have hname : PlainName (htmlName e.name) :=
      ⟨tagName_of_nameLike (hnamed.1.of_subset (htmlName_subset _)), hne, hgoesPre, hgoesCode⟩
    refine h.within hname (closedPart_writeAttributes _) (unbracketed_writeAttributes hnamed.2.1) ?_
    intro hpre
    rw [← beq_iff_eq, htmlName_beq_pre] at hpre
    exact hapart.madeOf_pre hcloze hpre hnamed.2.2 spacing

/-- Rendered nodes are well nested before the passes over their code. -/
theorem madeNested_renderNodes {options : Options} (hcloze : options.cloze = clozeTag)
    (spacing : Spacing) {nodes : List Node} (hnodes : NamedNodes nodes)
    (hapart : BlocksApart (reachedIn nodes)) : MadeNested (renderNodes options spacing nodes) :=
  (keptByRendering_madeNested hcloze).nodes spacing hnodes fun _ he =>
    hapart.of_subset (reachedOf_subset he)

/-! ## Finished reports -/

/-- The passes over nested tokens leave them balanced. -/
theorem Nested.balanced_finishTokens {tokens : List Token} (h : Nested tokens) (options : Options) :
    Balanced (rolesOf (finishTokens options tokens)) := by
  have hopening := searchedToken_merger h.opening
  obtain ⟨joined, hjoined, hbalanced⟩ := h.exists_joined []
  rw [List.append_nil, Rewriter.rewrite_nil, List.append_nil] at hjoined
  rw [finishTokens, rolesOf_markInline options (opening_blockMarker options hopening),
    rolesOf_blockMarker options hopening, hjoined]
  exact hbalanced

/-- The question of a report is well nested, as long as no preformatted block that holds code holds
another block, and no name begins like that of a block or of code and goes on with another character. -/
theorem question_is_nested {source : Source} {root body : Element} {expected : List Char}
    (hread : readDocument source = .ok root) (hbody : findBody expected root = .ok body)
    (hapart : BlocksApart (reachedIn body.children)) :
    ∃ item, (render {} expected root).result = .ok item ∧ IsNested item.question := by
  have hnamed := namedNodes_of_findBody hread hbody
  have hinside := @madeNested_renderNodes {} rfl Spacing.root _ hnamed hapart
  have hrendered : MadeNested (renderBody {} body) :=
    hinside.within (by decide) (closedPart_class _) (unbracketed_class _) fun h => absurd h (by decide)
  obtain ⟨tokens, htokens, hnested, htext⟩ := hrendered
  have hfinished := finishHtml_writeTokens tidy_default rfl htokens
  rw [htext] at hfinished
  obtain ⟨item, hitem, hquestion⟩ := exists_item_of_finishHtml hbody hfinished
  refine ⟨item, hitem, ?_⟩
  rw [hquestion]
  exact isNested_writeTokens (tokens_finishTokens tidy_default htokens) (hnested.balanced_finishTokens {})

/-- A document with a block in a block without code, and code in pieces with other elements in a block. -/
def nestedSample : Source := .text <|
  "<i identifier='q'><qti-item-body><pre>a<qti-pre>b</qti-pre></pre><pre><p><code>c</code></p>".toList ++
    "<code a=' class='>d<hr/></code></pre></qti-item-body></i>".toList

theorem question_is_nested_nestedSample : ∃ root body, readDocument nestedSample = .ok root ∧
    findBody ['q'] root = .ok body ∧ BlocksApart (reachedIn body.children) ∧
    ∃ item, (render {} ['q'] root).result = .ok item ∧ IsNested item.question := by
  have hsample : (bodyOf? ['q'] nestedSample).map
      (fun body => decide (BlocksApart (reachedIn body.children))) = some true := by
    unfold nestedSample
    -- Literals are evaluated faster as lists of characters.
    repeat rewrite [String.toList_ofList]
    decide +kernel
  obtain ⟨root, body, hread, hbody, hdecided⟩ := exists_of_bodyOf? hsample
  have hapart := of_decide_eq_true hdecided
  exact ⟨root, body, hread, hbody, hapart, question_is_nested hread hbody hapart⟩

/-- The question of the report on a document, computed. -/
theorem exists_item_of_bodyOf? {source : Source} {question : List Char}
    (h : ((bodyOf? ['q'] source).bind fun body =>
      (finishHtml {} (renderBody {} body)).result.toOption) = some question) :
    ∃ root body item, readDocument source = .ok root ∧ findBody ['q'] root = .ok body ∧
      (render {} ['q'] root).result = .ok item ∧ item.question = question := by
  obtain ⟨body, hsome, hquestion⟩ := Option.bind_eq_some_iff.1 h
  obtain ⟨root, found, hread, hbody, rfl⟩ := exists_of_bodyOf? (congrArg (Option.map id) hsome)
  cases hresult : (finishHtml {} (renderBody {} found)).result with
  | error failure =>
    rw [id, hresult] at hquestion
    cases hquestion
  | ok finished =>
    rw [id, hresult] at hquestion
    cases hquestion
    obtain ⟨item, hitem, htext⟩ := exists_item_of_finishHtml hbody hresult
    exact ⟨root, found, item, hread, hbody, hitem, htext⟩

/-- A document with a preformatted block that holds no code, but an element with a name like that of
code. -/
def likeCodeSample : Source := .text
  "<i identifier=\"q\"><qti-item-body><qti-pre><code-x>a</code-x></qti-pre></qti-item-body></i>".toList

/-- The tags of the element are taken for tags of code. So the block is joined, with an end tag of code
that ends no element. -/
theorem like_code_is_not_nested : ∃ root body item, readDocument likeCodeSample = .ok root ∧
    findBody ['q'] root = .ok body ∧ (render {} ['q'] root).result = .ok item ∧
    ¬ IsNested item.question := by
  have hsample : ((bodyOf? ['q'] likeCodeSample).bind fun body =>
      (finishHtml {} (renderBody {} body)).result.toOption) = some
        ("<div class=\"item-body\"><pre data-code-lang=\"plain\" class=\"code-block hljs\">".toList ++
          "<code-x data-code-lang=\"plain\" class=\"code-block-code\">a</code></pre></div>".toList) := by
    unfold likeCodeSample
    repeat rewrite [String.toList_ofList]
    decide +kernel
  obtain ⟨root, body, item, hread, hbody, hitem, hquestion⟩ := exists_item_of_bodyOf? hsample
  refine ⟨root, body, item, hread, hbody, hitem, ?_⟩
  rw [hquestion]
  repeat rewrite [String.toList_ofList]
  decide +kernel

/-- A document with a block inside of a block of code. -/
def innerBlockSample : Source := .text
  "<i identifier='q'><qti-item-body><pre><code>a</code><pre>b</pre></pre></qti-item-body></i>".toList

/-- The end tag of the inner block is taken for that of the outer one. -/
example : ((bodyOf? ['q'] innerBlockSample).bind fun body =>
    (finishHtml {} (renderBody {} body)).result.toOption).map (fun html => decide (IsNested html)) =
      some false := by
  decide +kernel

end Assessment.Report
