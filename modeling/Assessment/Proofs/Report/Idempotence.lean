import Assessment.Proofs.Report.Marking
import Assessment.Proofs.Report.TokenKinds

/-!
# Proofs: finishing reports twice

The passes over code leave a finished report as it is (`question_stays_finished`). They find their places
by the kinds of the tokens, which they do not change, so a second run finds what the first one found:
joining has nothing to do, and each tag that is marked was marked before.
-/

namespace Assessment.Report

open Assessment.Item Assessment.Text Assessment.Markup Assessment.Markup.StartTag
open Assessment.Xml hiding Token

/-! ## Start tags as they are written -/

/-- The tag is written by regular parts. -/
def Spelled (tag : List Char) : Prop := ∃ s : Spelling, s.Regular ∧ s.write = tag

namespace Spelled

variable {tag classes language : List Char}

theorem isTag (h : Spelled tag) : IsTag tag := by
  obtain ⟨s, hs, rfl⟩ := h
  exact hs.isTag_write

theorem isLanguage_languageOf (h : Spelled tag) : IsLanguage (languageOf tag) := by
  obtain ⟨s, hs, rfl⟩ := h
  rw [hs.languageOf_write]
  exact hs.isLanguage_getD

theorem taggedStart (h : Spelled tag) (hclasses : ∀ w ∈ words classes, IsValue w)
    (hlanguage : IsLanguage language) : Spelled (taggedStart {} classes language tag) := by
  obtain ⟨s, hs, rfl⟩ := h
  exact ⟨_, hs.marked hclasses hlanguage.value, (hs.taggedStart_write hclasses hlanguage.value).symm⟩

theorem inlineStart (h : Spelled tag) : Spelled (inlineStart {} tag) := by
  obtain ⟨s, hs, rfl⟩ := h
  exact ⟨_, hs.inlined, hs.inlineStart_write.symm⟩

theorem isStart_taggedStart {name : String} (hname : ∀ c ∈ name.toList, isTagNameChar c = true)
    (h : Spelled tag) (hclasses : ∀ w ∈ words classes, IsValue w) (hlanguage : IsLanguage language)
    (hstart : isStart name tag = true) :
    isStart name (Report.taggedStart {} classes language tag) = true := by
  obtain ⟨s, hs, rfl⟩ := h
  rw [hs.taggedStart_write hclasses hlanguage.value]
  exact hs.isStart_marked hname hclasses hlanguage.value hstart

theorem isStart_inlineStart {name : String} (hname : ∀ c ∈ name.toList, isTagNameChar c = true)
    (h : Spelled tag) (hstart : isStart name tag = true) :
    isStart name (Report.inlineStart {} tag) = true := by
  obtain ⟨s, hs, rfl⟩ := h
  rw [hs.inlineStart_write]
  exact hs.isStart_inlined hname hstart

/-- A start tag that was marked in a block is not changed by marking it again. -/
theorem taggedStart_taggedStart (h : Spelled tag) (hclasses : ∀ w ∈ words classes, IsValue w)
    (hlanguage : IsLanguage language) :
    Report.taggedStart {} classes language (Report.taggedStart {} classes language tag) =
      Report.taggedStart {} classes language tag := by
  obtain ⟨s, hs, rfl⟩ := h
  have hmarked := hs.marked hclasses hlanguage.value
  rw [hs.taggedStart_write hclasses hlanguage.value, hmarked.taggedStart_write hclasses hlanguage.value,
    Spelling.marked_marked fun w hw => isWord_of_mem_words hw]

/-- A start tag of other code that was marked is not changed by marking it again. -/
theorem inlineStart_inlineStart (h : Spelled tag) :
    Report.inlineStart {} (Report.inlineStart {} tag) = Report.inlineStart {} tag := by
  obtain ⟨s, hs, rfl⟩ := h
  rw [hs.inlineStart_write, hs.inlined.inlineStart_write, Spelling.inlined_inlined hs]

/-- The start tag of code in a block, after it was marked as such and as other code. -/
def finishedCode (tag : List Char) : List Char :=
  Report.inlineStart {}
    (Report.taggedStart {} ({} : Options).codeBlockCodeClass (languageOf tag) tag)

theorem finishedCode_write {s : Spelling} (hs : s.Regular) :
    finishedCode s.write = ((s.marked Spelling.blockCodeWords
      (s.language?.getD Language.plain)).inlined).write := by
  have hmarked : (s.marked Spelling.blockCodeWords (s.language?.getD Language.plain)).Regular :=
    hs.marked Spelling.isValue_blockCodeWords hs.isLanguage_getD.value
  unfold finishedCode
  rw [hs.languageOf_write, hs.taggedStart_write Spelling.isValue_blockCodeWords hs.isLanguage_getD.value]
  exact hmarked.inlineStart_write

/-- The language is read again from the finished start tag. -/
theorem languageOf_finishedCode (h : Spelled tag) : languageOf (finishedCode tag) = languageOf tag := by
  obtain ⟨s, hs, rfl⟩ := h
  have hmarked : (s.marked Spelling.blockCodeWords (s.language?.getD Language.plain)).Regular :=
    hs.marked Spelling.isValue_blockCodeWords hs.isLanguage_getD.value
  rw [finishedCode_write hs, hmarked.inlined.languageOf_write, hs.languageOf_write]
  exact Spelling.language?_inlined_marked hs.isLanguage_getD rfl

/-- The finished start tag is finished. -/
theorem finishedCode_finishedCode (h : Spelled tag) :
    finishedCode (finishedCode tag) = finishedCode tag := by
  obtain ⟨s, hs, rfl⟩ := h
  have hmarked : (s.marked Spelling.blockCodeWords (s.language?.getD Language.plain)).Regular :=
    hs.marked Spelling.isValue_blockCodeWords hs.isLanguage_getD.value
  rw [finishedCode_write hs, finishedCode_write hmarked.inlined,
    Spelling.language?_inlined_marked hs.isLanguage_getD rfl,
    Spelling.marked_inlined_marked hs.isLanguage_getD rfl]

end Spelled

/-! ## Tokens -/

theorem isValue_codeBlockClass : ∀ w ∈ words ({} : Options).codeBlockClass, IsValue w := by
  unfold IsValue
  decide

theorem isTagNameChar_pre : ∀ c ∈ "pre".toList, isTagNameChar c = true := by decide

theorem isTagNameChar_code : ∀ c ∈ "code".toList, isTagNameChar c = true := by decide

/-- All tokens of the kind of a start tag of a preformatted block are alike. -/
theorem kind_of_pre {tag : List Char} (htag : IsTag tag) (h : isStart "pre" tag = true) :
    kind (.found tag) = ⟨false, true, false, false, false, false⟩ := by
  have hpreEnd : tag ≠ preEnd := fun heq => absurd (heq ▸ h) (by decide +kernel)
  have hcodeEnd : tag ≠ codeEnd := fun heq => absurd (heq ▸ h) (by decide +kernel)
  simp [kind, isBlankToken, isTagOf, h, isStart_code_of_pre htag h, isCodeTag_of_pre htag h, hpreEnd,
    hcodeEnd]

/-- All tokens of the kind of a start tag of code are alike. -/
theorem kind_of_code {tag : List Char} (htag : IsTag tag) (h : isStart "code" tag = true) :
    kind (.found tag) = ⟨false, false, true, true, false, false⟩ := by
  have hpreEnd : tag ≠ preEnd := fun heq => absurd (heq ▸ h) (by decide +kernel)
  have hcodeEnd : tag ≠ codeEnd := fun heq => absurd (heq ▸ h) (by decide +kernel)
  simp [kind, isBlankToken, isTagOf, h, isStart_pre_of_code htag h, isCodeTag_of_isStart h, hpreEnd,
    hcodeEnd]

/-- The token as the pass over other code leaves it. -/
def inlineToken : Token → Token := TagSearch.edit (isStart "code") (inlineStart {})

theorem inlineToken_of_not_code {t : Token} (h : isTagOf (isStart "code") t = false) :
    inlineToken t = t := by
  cases t with
  | char c => rfl
  | found tag =>
    have hnot : ¬ isStart "code" tag = true := ne_true_of_eq_false h
    exact congrArg Piece.found (if_neg hnot)

theorem inlineToken_found {tag : List Char} (h : isStart "code" tag = true) :
    inlineToken (.found tag) = .found (inlineStart {} tag) := congrArg Piece.found (if_pos h)

/-- The pass over other code changes no token it has changed, and no kind of a token. -/
theorem inlineToken_spec {t : Token} (h : SearchedToken Spelled t) :
    inlineToken (inlineToken t) = inlineToken t ∧ kind (inlineToken t) = kind t := by
  by_cases hcode : isTagOf (isStart "code") t = true
  · obtain ⟨tag, rfl, hcode⟩ := exists_of_isTagOf hcode
    have htag := h (.inr hcode)
    have hstart : isStart "code" (inlineStart {} tag) = true :=
      htag.isStart_inlineStart isTagNameChar_code hcode
    rw [inlineToken_found hcode, inlineToken_found hstart, htag.inlineStart_inlineStart,
      kind_of_code htag.isTag hcode, kind_of_code htag.inlineStart.isTag hstart]
    exact ⟨rfl, rfl⟩
  · have hnot := inlineToken_of_not_code (eq_false_of_ne_true hcode)
    rw [hnot, hnot]
    exact ⟨rfl, rfl⟩

theorem kind_markInline {tokens : List Token} (h : ∀ t ∈ tokens, SearchedToken Spelled t) :
    (tokens.map inlineToken).map kind = tokens.map kind := by
  rw [List.map_map]
  exact List.map_congr_left fun t ht => (inlineToken_spec (h t ht)).2

theorem markInline_markInline {tokens : List Token} (h : ∀ t ∈ tokens, SearchedToken Spelled t) :
    (tokens.map inlineToken).map inlineToken = tokens.map inlineToken := by
  rw [List.map_map]
  exact List.map_congr_left fun t ht => (inlineToken_spec (h t ht)).1

/-! ## Blocks of code -/

namespace TokenBlock

/-- The block after both markings. -/
def finished (block : TokenBlock) : TokenBlock where
  preStart := taggedStart {} ({} : Options).codeBlockClass (languageOf block.codeStart) block.preStart
  space := block.space
  codeStart := Spelled.finishedCode block.codeStart
  content := block.content.map inlineToken

/-- The block is one that is found, and its start tags are spelled. -/
structure Regular (block : TokenBlock) : Prop where
  /-- The block is found. -/
  proper : block.Proper
  /-- The start tag of the preformatted block is spelled. -/
  preStart : Spelled block.preStart
  /-- The start tag of the code is spelled. -/
  codeStart : Spelled block.codeStart
  /-- All start tags of code in the block are spelled. -/
  content : ∀ t ∈ block.content, SearchedToken Spelled t

theorem Proper.regular {block : TokenBlock} (h : block.Proper)
    (hsource : ∀ t ∈ block.source, SearchedToken Spelled t) : block.Regular := by
  obtain ⟨⟨hpre, hcode⟩, hcontent⟩ := h.searched hsource
  exact ⟨h, hpre, hcode, hcontent⟩

variable {block : TokenBlock}

theorem Regular.isStart_finished (h : block.Regular) :
    isStart "pre" block.finished.preStart = true ∧ isStart "code" block.finished.codeStart = true := by
  have hlanguage := h.codeStart.isLanguage_languageOf
  constructor
  · exact h.preStart.isStart_taggedStart isTagNameChar_pre isValue_codeBlockClass hlanguage
      h.proper.preStart
  · exact (h.codeStart.taggedStart Spelling.isValue_blockCodeWords hlanguage).isStart_inlineStart
      isTagNameChar_code <| h.codeStart.isStart_taggedStart isTagNameChar_code
        Spelling.isValue_blockCodeWords hlanguage h.proper.codeStart

theorem Regular.isTag_finished (h : block.Regular) :
    IsTag block.finished.preStart ∧ IsTag block.finished.codeStart := by
  have hlanguage := h.codeStart.isLanguage_languageOf
  exact ⟨(h.preStart.taggedStart isValue_codeBlockClass hlanguage).isTag,
    (h.codeStart.taggedStart Spelling.isValue_blockCodeWords hlanguage).inlineStart.isTag⟩

theorem source_eq (block : TokenBlock) :
    block.source = .found block.preStart :: (block.space ++
      .found block.codeStart :: (block.content ++ [.found codeEnd])) := rfl

/-- The finished block has tokens of the same kinds. -/
theorem Regular.kind_finished (h : block.Regular) :
    block.finished.source.map kind = block.source.map kind := by
  obtain ⟨hpre, hcode⟩ := h.isStart_finished
  obtain ⟨hpreTag, hcodeTag⟩ := h.isTag_finished
  have hcontent : block.finished.content.map kind = block.content.map kind := kind_markInline h.content
  have hspace : block.finished.space = block.space := rfl
  rw [source_eq, source_eq]
  simp only [List.map_cons, List.map_append]
  rw [kind_of_pre hpreTag hpre, kind_of_code hcodeTag hcode,
    kind_of_pre h.preStart.isTag h.proper.preStart,
    kind_of_code h.codeStart.isTag h.proper.codeStart, hcontent, hspace]

/-- The finished block is found again. -/
theorem Regular.proper_finished (h : block.Regular) : block.finished.Proper where
  preStart := h.isStart_finished.1
  space := h.proper.space
  codeStart := h.isStart_finished.2
  content := codeEnd_not_mem_of_kinds (kind_markInline h.content) h.proper.content

/-- The finished block is finished. -/
theorem Regular.finished_finished (h : block.Regular) : block.finished.finished = block.finished := by
  have hlanguage : languageOf block.finished.codeStart = languageOf block.codeStart :=
    h.codeStart.languageOf_finishedCode
  have hpre : block.finished.finished.preStart = block.finished.preStart := by
    show taggedStart {} _ (languageOf block.finished.codeStart) block.finished.preStart = _
    rw [hlanguage]
    exact h.preStart.taggedStart_taggedStart isValue_codeBlockClass h.codeStart.isLanguage_languageOf
  have hcode : block.finished.finished.codeStart = block.finished.codeStart :=
    h.codeStart.finishedCode_finishedCode
  have hcontent : block.finished.finished.content = block.finished.content :=
    markInline_markInline h.content
  exact TokenBlock.ext hpre rfl hcode hcontent

theorem searchedToken_inlineToken {t : Token} (h : SearchedToken Spelled t) :
    SearchedToken Spelled (inlineToken t) := by
  by_cases hcode : isTagOf (isStart "code") t = true
  · obtain ⟨tag, rfl, hcode⟩ := exists_of_isTagOf hcode
    rw [inlineToken_found hcode]
    exact fun _ => (h (.inr hcode)).inlineStart
  · rwa [inlineToken_of_not_code (eq_false_of_ne_true hcode)]

theorem Regular.finished (h : block.Regular) : block.finished.Regular where
  proper := h.proper_finished
  preStart := h.preStart.taggedStart isValue_codeBlockClass h.codeStart.isLanguage_languageOf
  codeStart := (h.codeStart.taggedStart Spelling.isValue_blockCodeWords
    h.codeStart.isLanguage_languageOf).inlineStart
  content t ht := by
    obtain ⟨source, hsource, rfl⟩ := List.mem_map.1 ht
    exact searchedToken_inlineToken (h.content source hsource)

/-- Both markings of a block, one after the other. -/
theorem Regular.map_inlineToken_marked (h : block.Regular) :
    (block.marked {}).map inlineToken = block.finished.source := by
  have hlanguage := h.codeStart.isLanguage_languageOf
  have hpreTag := (h.preStart.taggedStart isValue_codeBlockClass hlanguage).isTag
  have hpre := h.preStart.isStart_taggedStart isTagNameChar_pre isValue_codeBlockClass hlanguage
    h.proper.preStart
  have hcode := h.codeStart.isStart_taggedStart isTagNameChar_code Spelling.isValue_blockCodeWords
    hlanguage h.proper.codeStart
  have hspace : block.space.map inlineToken = block.space := by
    refine List.map_congr_left (fun t ht => ?_) |>.trans (List.map_id _)
    cases t with
    | char c => rfl
    | found tag => exact absurd (h.proper.space _ ht) Bool.false_ne_true
  have hend : inlineToken (.found codeEnd) = .found codeEnd :=
    inlineToken_of_not_code (by decide +kernel)
  have hpreToken : inlineToken (.found block.finished.preStart) = .found block.finished.preStart :=
    inlineToken_of_not_code (isStart_code_of_pre hpreTag hpre)
  have hcodeToken : inlineToken (.found (taggedStart {} ({} : Options).codeBlockCodeClass
      (languageOf block.codeStart) block.codeStart)) = .found block.finished.codeStart :=
    inlineToken_found hcode
  have hmarked : block.marked {} = .found block.finished.preStart ::
      (block.space ++ .found (taggedStart {} ({} : Options).codeBlockCodeClass
        (languageOf block.codeStart) block.codeStart) :: (block.content ++ [.found codeEnd])) := rfl
  rw [hmarked, source_eq, List.map_cons, hpreToken, List.map_append, hspace, List.map_cons, hcodeToken,
    List.map_append, List.map_singleton, hend]
  rfl

end TokenBlock

/-! ## The passes twice -/

/-- The tokens after both markings. -/
def markTokens (tokens : List Token) : List Token := ((blockMarker {}).rewrite tokens).map inlineToken

theorem markTokens_of_block {block : TokenBlock} (h : block.Regular) (rest : List Token) :
    markTokens (block.source ++ rest) = block.finished.source ++ markTokens rest := by
  have hblock : tokenBlock? (block.source ++ rest) = some (block, rest) :=
    tokenBlock?_eq_some_iff.2 ⟨rfl, h.proper⟩
  have hrun : (blockMarker {}).run (block.source ++ rest) = some (block.marked {}, rest) :=
    congrArg (Option.map _) hblock
  rw [markTokens, Rewriter.rewrite_of_run hrun, List.map_append, h.map_inlineToken_marked]
  rfl

theorem markTokens_cons {t : Token} {tokens : List Token} (h : tokenBlock? (t :: tokens) = none) :
    markTokens (t :: tokens) = inlineToken t :: markTokens tokens := by
  have hrun : (blockMarker {}).run (t :: tokens) = none := congrArg (Option.map _) h
  rw [markTokens, Rewriter.rewrite_of_not_run hrun]
  rfl

/-- Marking tokens changes no token it has changed, and no kind of a token. -/
theorem markTokens_spec {tokens : List Token} (h : ∀ t ∈ tokens, SearchedToken Spelled t) :
    markTokens (markTokens tokens) = markTokens tokens ∧
      (markTokens tokens).map kind = tokens.map kind := by
  induction tokens using (blockMarker {}).rewrite_induction with
  | nil =>
    have hnil : markTokens [] = [] := by rw [markTokens, Rewriter.rewrite_nil, List.map_nil]
    rw [hnil, hnil]
    exact ⟨rfl, rfl⟩
  | @run tokens out rest hrun ih =>
    obtain ⟨⟨block, r⟩, hblock, hp⟩ := Option.map_eq_some_iff.1 hrun
    cases hp
    obtain ⟨rfl, hproper⟩ := tokenBlock?_eq_some_iff.1 hblock
    obtain ⟨hsource, hrest⟩ := List.forall_mem_append.1 h
    have hregular := hproper.regular hsource
    obtain ⟨htwice, hkinds⟩ := ih hrest
    rw [markTokens_of_block hregular, markTokens_of_block hregular.finished,
      hregular.finished_finished, htwice, List.map_append, List.map_append, hregular.kind_finished,
      hkinds]
    exact ⟨rfl, rfl⟩
  | @step t tokens hrun ih =>
    have hnone : tokenBlock? (t :: tokens) = none := Option.map_eq_none_iff.1 hrun
    obtain ⟨ht, htokens⟩ := List.forall_mem_cons.1 h
    obtain ⟨htwice, hkinds⟩ := ih htokens
    obtain ⟨hagain, hkind⟩ := inlineToken_spec ht
    have hsame : (inlineToken t :: markTokens tokens).map kind = (t :: tokens).map kind := by
      rw [List.map_cons, List.map_cons, hkind, hkinds]
    -- Nothing is found in the second run that was not found in the first.
    have hnone' : tokenBlock? (inlineToken t :: markTokens tokens) = none := by
      cases hblock : tokenBlock? (inlineToken t :: markTokens tokens) with
      | none => rfl
      | some found =>
        obtain ⟨block, rest, hfound⟩ := exists_tokenBlock_of_kinds hsame.symm hblock
        rw [hnone] at hfound
        cases hfound
    rw [markTokens_cons hnone, markTokens_cons hnone', hagain, htwice]
    exact ⟨rfl, hsame⟩

/-- All passes over tokens leave what they have made. -/
theorem finishTokens_finishTokens {tokens : List Token} (h : ∀ t ∈ tokens, SearchedToken Spelled t) :
    finishTokens {} (finishTokens {} tokens) = finishTokens {} tokens := by
  obtain ⟨htwice, hkinds⟩ := markTokens_spec (searchedToken_merger h)
  have hfinish : ∀ tokens, finishTokens {} tokens = markTokens (merger.rewrite tokens) := fun _ => rfl
  have hjoined : Joined (markTokens (merger.rewrite tokens)) :=
    joined_of_kinds hkinds (joined_merger tokens)
  rw [hfinish, hfinish, hjoined, htwice]

/-! ## The start tags of elements -/

/-- The attributes as parts of a start tag. -/
def entriesOf (attributes : Attributes) : List Entry :=
  attributes.flatMap fun a =>
    if isDeclaration a.1 then [] else [⟨attributeName a.1, escape a.2, []⟩]

theorem writeAttributes_eq (attributes : Attributes) :
    Xml.writeAttributes attributes = writeEntries (entriesOf attributes) := by
  induction attributes with
  | nil => rfl
  | cons a attributes ih =>
    obtain ⟨key, value⟩ := a
    have hcons : entriesOf ((key, value) :: attributes) =
        (if isDeclaration key then [] else [⟨attributeName key, escape value, []⟩]) ++
          entriesOf attributes := List.flatMap_cons
    rw [writeAttributes_cons, hcons, ih]
    by_cases hkey : isDeclaration key = true
    · rw [if_pos hkey, if_pos hkey]
      rfl
    · rw [if_neg hkey, if_neg hkey, List.singleton_append, writeEntries_cons]
      simp [Xml.writeAttribute, Entry.write]

theorem solid_of_nameLike {s : List Char} (h : NameLike s) : Solid s where
  isValue c hc := by
    refine ⟨⟨?_, ?_⟩, h.unbracketed c hc⟩ <;> rintro rfl <;> rcases h _ hc with h | h <;>
      exact absurd h (by decide +kernel)
  isBlank := h.isBlank

theorem isValue_escape {s : List Char} (h : '=' ∉ s) : IsValue (escape s) := by
  intro c hc
  obtain ⟨hless, hgreater, hquote, -⟩ := ne_of_mem_escape hc
  refine ⟨⟨?_, hquote⟩, hless, hgreater⟩
  rintro rfl
  obtain ⟨d, hd, hcd⟩ := List.mem_flatMap.1 hc
  rcases mem_escapeChar hcd with hr | ⟨rfl, -⟩
  · exact absurd hr (by decide)
  · exact h hd

/-- Each part of a tag is one of the attributes. -/
theorem exists_of_mem_entriesOf {attributes : Attributes} {e : Entry} (h : e ∈ entriesOf attributes) :
    ∃ a ∈ attributes, e = ⟨attributeName a.1, escape a.2, []⟩ := by
  obtain ⟨a, ha, hentry⟩ := List.mem_flatMap.1 h
  split at hentry
  · exact absurd hentry List.not_mem_nil
  · exact ⟨a, ha, List.mem_singleton.1 hentry⟩

/-- Attributes without equals signs in their values are regular parts. -/
theorem regular_entriesOf {attributes : Attributes}
    (hnames : ∀ a ∈ attributes, IsName (attributeName a.1)) (hvalues : ∀ a ∈ attributes, '=' ∉ a.2) :
    ∀ e ∈ entriesOf attributes, e.Regular := by
  intro e he
  obtain ⟨a, ha, rfl⟩ := exists_of_mem_entriesOf he
  exact ⟨(hnames a ha).ne_nil, solid_of_nameLike (hnames a ha).like, isValue_escape (hvalues a ha),
    solid_nil⟩

theorem isStart_startOf {e : Element} (h : e.toNode.Named) {name : String}
    (hname : '>' ∉ name.toList) (hspace : ' ' ∉ name.toList) :
    isStart name (startOf e) = beginsWord name.toList (htmlName e.name) := by
  obtain ⟨htag, hattributes, -⟩ := h
  exact isStart_openTag_eq hname hspace (unbracketed_htmlName htag)
    (attributePart_writeAttributes hattributes)

/-- The name of the tag begins with the name of a preformatted block or of code. -/
def NamedLikeCode (tag : List Char) : Prop :=
  startsWith "pre".toList tag = true ∨ startsWith "code".toList tag = true

instance (tag : List Char) : Decidable (NamedLikeCode tag) := inferInstanceAs (Decidable (_ ∨ _))

/-- The start tag of an element by its parts. -/
def startSpelling (e : Element) : Spelling :=
  ⟨(htmlName e.name).takeWhile isTagNameChar, (htmlName e.name).dropWhile isTagNameChar,
    entriesOf e.attributes⟩

theorem write_startSpelling (e : Element) : (startSpelling e).write = startOf e := by
  simp only [Spelling.write, startSpelling, startOf, openTag]
  rw [← List.append_assoc, List.takeWhile_append_dropWhile, writeAttributes_eq]
  simp

/-- A tag that is searched for begins like one of the two names. -/
theorem exists_of_isStart_startOf {e : Element} (h : e.toNode.Named)
    (hstart : isStart "pre" (startOf e) = true ∨ isStart "code" (startOf e) = true) :
    NamedLikeCode (htmlName e.name) ∧ ∃ c rest, htmlName e.name = c :: rest ∧ c ∈ ['p', 'c'] := by
  rw [isStart_startOf h (by decide) (by decide), isStart_startOf h (by decide) (by decide)] at hstart
  rcases hstart with hpre | hcode
  · obtain ⟨hlike, rest, hrest⟩ := exists_of_beginsWord hpre
    exact ⟨.inl hlike, 'p', _, hrest, by decide⟩
  · obtain ⟨hlike, rest, hrest⟩ := exists_of_beginsWord hcode
    exact ⟨.inr hlike, 'c', _, hrest, by decide⟩

/-- The start tag of an element has regular parts if it is searched for by the passes at all and no
value holds an equals sign. -/
theorem regular_startSpelling {e : Element} (h : e.toNode.Named)
    (hvalues : NamedLikeCode (htmlName e.name) → ∀ a ∈ e.attributes, '=' ∉ a.2)
    (hstart : isStart "pre" (startOf e) = true ∨ isStart "code" (startOf e) = true) :
    (startSpelling e).Regular := by
  obtain ⟨hlike, c, rest, hname, hmem⟩ := exists_of_isStart_startOf h hstart
  have hc : isTagNameChar c = true := (by decide : ∀ d ∈ ['p', 'c'], isTagNameChar d = true) c hmem
  have hvalue := hvalues hlike
  obtain ⟨htag, hattributes, -⟩ := h
  have hlikeName : NameLike (htmlName e.name) := htag.of_subset (htmlName_subset _)
  refine ⟨?_, ?_, ?_, ?_, regular_entriesOf hattributes hvalue⟩
  · rw [startSpelling, hname, List.takeWhile_cons_of_pos hc]
    exact List.cons_ne_nil _ _
  · exact fun d hd => List.mem_takeWhile_imp hd
  · intro d hd
    have hfirst : ((htmlName e.name).dropWhile isTagNameChar).head? = some d := hd
    have hnot := List.head?_dropWhile_not isTagNameChar (htmlName e.name)
    rw [hfirst] at hnot
    exact hnot
  · exact solid_of_nameLike (hlikeName.of_subset (List.dropWhile_sublist _).subset)

theorem spelled_startOf {e : Element} (h : e.toNode.Named)
    (hvalues : NamedLikeCode (htmlName e.name) → ∀ a ∈ e.attributes, '=' ∉ a.2)
    (hstart : isStart "pre" (startOf e) = true ∨ isStart "code" (startOf e) = true) :
    Spelled (startOf e) :=
  ⟨startSpelling e, regular_startSpelling h hvalues hstart, write_startSpelling e⟩

/-! ## Finished reports -/

/-- The attributes that are searched by the passes hold no equals sign in a value. -/
def WithoutEqualsSigns (body : Element) : Prop :=
  ∀ e ∈ reachedIn body.children, NamedLikeCode (htmlName e.name) → ∀ a ∈ e.attributes, '=' ∉ a.2

instance (body : Element) : Decidable (WithoutEqualsSigns body) :=
  inferInstanceAs (Decidable (∀ e ∈ reachedIn body.children, _))

/-- A rendered item body is made of tags that are spelled where they are searched for. -/
theorem madeOf_renderBody {body : Element} (hnodes : NamedNodes body.children)
    (hvalues : WithoutEqualsSigns body) : MadeOf (IfSearched Spelled) (renderBody {} body) := by
  have hP : HoldsElsewhere (IfSearched Spelled) := holdsElsewhere_ifSearched Spelled
  have hwrapper := attributePart_bodyWrapper ({} : Options).bodyWrapperClass
  have hcloze : MadeOf (IfSearched Spelled) ({} : Options).cloze :=
    .of_isTag isTag_cloze (hP (by decide) (by decide))
  have hinside : MadeOf (IfSearched Spelled) (renderNodes {} Spacing.root body.children) :=
    madeOf_renderNodes hP hcloze Spacing.root hnodes fun e he =>
      spelled_startOf (named_of_mem_reachedIn hnodes he) (hvalues e he)
  exact madeOf_within (by decide) hwrapper.unbracketed
    (hP.openTag (by decide) hwrapper (by decide) (by decide)) (hP.closeTag (by decide)) hinside

/-- The question of a report is not changed by passing over its code again, as long as no value of an
element whose tag is named like code holds an equals sign. -/
theorem question_stays_finished {source : Source} {root body : Element} {expected : List Char}
    (hread : readDocument source = .ok root) (hbody : findBody expected root = .ok body)
    (hvalues : WithoutEqualsSigns body) :
    ∃ item, (render {} expected root).result = .ok item ∧
      (finishHtml {} item.question).result = .ok item.question := by
  obtain ⟨tokens, htokens, hspelled, htext⟩ :=
    (madeOf_renderBody (namedNodes_of_findBody hread hbody) hvalues).exists_tokens
  have hall := searchedToken_of_forall_found hspelled
  have hfirst : (finishHtml {} (renderBody {} body)).result =
      .ok (writeTokens (finishTokens {} tokens)) := by
    rw [← htext]
    exact finishHtml_writeTokens tidy_default rfl htokens
  have hagain := finishHtml_writeTokens tidy_default rfl (tokens_finishTokens tidy_default htokens)
  obtain ⟨item, hitem, hquestion⟩ := exists_item_of_finishHtml hbody hfirst
  refine ⟨item, hitem, ?_⟩
  rw [hquestion, hagain, finishTokens_finishTokens hall]
/-- A document with a marked block of code in pieces, of which the first names a language, and an equals
sign in a paragraph. -/
def markedSample : Source := .text <|
  "<i identifier='q'><qti-item-body><qti-pre class='hljs'><code data-language='JS'>a</code>".toList ++
    "<code>b</code></qti-pre><p a='b=c'><code class='x x'>c</code></p></qti-item-body></i>".toList

theorem question_stays_finished_markedSample : ∃ root body, readDocument markedSample = .ok root ∧
    findBody ['q'] root = .ok body ∧ WithoutEqualsSigns body ∧
    ∃ item, (render {} ['q'] root).result = .ok item ∧
      (finishHtml {} item.question).result = .ok item.question := by
  have hsample : (bodyOf? ['q'] markedSample).map (fun body => decide (WithoutEqualsSigns body)) =
      some true := by
    unfold markedSample
    -- Literals are evaluated faster as lists of characters.
    repeat rewrite [String.toList_ofList]
    decide +kernel
  obtain ⟨root, body, hread, hbody, hdecided⟩ := exists_of_bodyOf? hsample
  have hvalues := of_decide_eq_true hdecided
  exact ⟨root, body, hread, hbody, hvalues, question_stays_finished hread hbody hvalues⟩

end Assessment.Report
