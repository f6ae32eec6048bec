import Assessment.Proofs.Report.ForeignTags
import Assessment.Proofs.Report.UnderstoodTags

/-!
# Proofs: the classes of wrappers

Two reports of an item with different classes for their wrappers are rendered from tokens that are the same
once the tags of wrappers lose their attributes (`matched_renderBody`). The passes do not look at these
tags, so they leave it so, and each of the reports looks like the one without the attributes
(`exists_outline_bared`). So the reports look alike (`exists_outline_of_wrappers`).
-/

namespace Assessment.Report

open Assessment.Html (Twin TwinTags writeTwins twinTags outline? RawEnded ReadTag)
open Assessment.Item Assessment.Text Assessment.Markup
open Assessment.Xml hiding Token

/-! ## Tokens that are the same apart from some tags -/

/-- The texts are written from tokens that an edit makes the same. -/
def Matched (edit : Token → Token) (html other : List Char) : Prop :=
  ∃ tokens others, Tokens tokens ∧ Tokens others ∧ tokens.map edit = others.map edit ∧
    writeTokens tokens = html ∧ writeTokens others = other

namespace Matched

variable {edit : Token → Token} {html other more rest : List Char}

theorem append (h : Matched edit html other) (hmore : Matched edit more rest) :
    Matched edit (html ++ more) (other ++ rest) := by
  obtain ⟨tokens, others, htokens, hothers, hsame, rfl, rfl⟩ := h
  obtain ⟨tokens', others', htokens', hothers', hsame', rfl, rfl⟩ := hmore
  refine ⟨tokens ++ tokens', others ++ others', htokens.append htokens', hothers.append hothers', ?_,
    writeTokens_append _ _, writeTokens_append _ _⟩
  rw [List.map_append, List.map_append, hsame, hsame']

/-- Tags that the edit makes the same. -/
theorem of_tags {tag mark : List Char} (htag : IsTag tag) (hmark : IsTag mark)
    (hsame : edit (.found tag) = edit (.found mark)) : Matched edit tag mark :=
  ⟨[.found tag], [.found mark], List.forall_mem_singleton.2 htag, List.forall_mem_singleton.2 hmark,
    congrArg ([·]) hsame, by simp, by simp⟩

theorem of_tag {tag : List Char} (htag : IsTag tag) : Matched edit tag tag := .of_tags htag htag rfl

theorem of_unbracketed {s : List Char} (h : Unbracketed s) : Matched edit s s := by
  have htokens : Tokens (s.map .char) := by
    intro t ht
    obtain ⟨c, hc, rfl⟩ := List.mem_map.1 ht
    exact h c hc
  have hwrite : writeTokens (s.map .char) = s := by
    rw [writeTokens, List.flatMap_map]
    exact List.flatMap_singleton' s
  exact ⟨_, _, htokens, htokens, rfl, hwrite, hwrite⟩

/-- The tags of an element around such texts. -/
theorem within {name part replaced : List Char} (hname : Unbracketed name) (hpart : Unbracketed part)
    (hreplaced : Unbracketed replaced)
    (hsame : edit (.found (openTag name part)) = edit (.found (openTag name replaced)))
    (h : Matched edit html other) : Matched edit (within name part html) (within name replaced other) := by
  rw [within_eq, within_eq]
  exact (Matched.of_tags (isTag_openTag hname hpart) (isTag_openTag hname hreplaced) hsame).append
    (h.append (.of_tag (isTag_closeTag hname)))

end Matched

/-! ## Rendering with other classes -/

/-- The attribute of the wrapper around the whole. -/
def bodyWrapperAttribute (options : Options) : List Char :=
  " class=\"".toList ++ escape options.bodyWrapperClass ++ ['\x22']

/-- The start tags of the wrappers. -/
def wrapperTags (options : Options) : List (List Char) :=
  [openTag "div".toList (choiceWrapperAttribute options), openTag "div".toList (bodyWrapperAttribute options)]

/-- The token without the attributes of a wrapper, if it is the start tag of one. -/
def bare (tags : List (List Char)) : Token → Token :=
  TagSearch.edit tags.contains fun _ => openTag "div".toList []

theorem bare_of_mem {tags : List (List Char)} {tag : List Char} (h : tag ∈ tags) :
    bare tags (.found tag) = .found (openTag "div".toList []) :=
  congrArg Piece.found (if_pos (List.contains_iff_mem.2 h))

theorem exists_part_of_mem_wrapperTags {options : Options} {tag : List Char}
    (h : tag ∈ wrapperTags options) :
    ∃ part, tag = openTag "div".toList part ∧ ReadablePart part ∧ Unbracketed part := by
  rcases List.mem_cons.1 h with rfl | h
  · exact ⟨_, rfl, readablePart_choiceWrapper options, unbracketed_choiceWrapperAttribute options⟩
  · rw [List.mem_singleton.1 h]
    exact ⟨_, rfl, readablePart_class _, unbracketed_class _⟩

section Rendering

variable {choices whole others rest : List Char} {tags : List (List Char)}

mutual

theorem matched_renderNode (h : wrapperTags (wrapped choices whole) ⊆ tags)
    (hother : wrapperTags (wrapped others rest) ⊆ tags) (spacing : Spacing) : ∀ {node : Node}, node.Named →
    Matched (bare tags) (renderNode (wrapped choices whole) spacing node)
      (renderNode (wrapped others rest) spacing node)
  | .text s, _ => by
    rw [renderNode, renderNode, Spacing.render]
    split
    · exact .of_unbracketed fun _ hc => absurd hc List.not_mem_nil
    · exact .of_unbracketed (unbracketed_escape s)
  | .comment s, _ => .of_unbracketed fun _ hc => absurd hc List.not_mem_nil
  | .element tag attributes children, hnamed => by
    obtain ⟨hname, hattributes, hchildren⟩ := hnamed
    have hpart := unbracketed_writeAttributes hattributes
    have hinside (inner : Spacing) := matched_renderNodes h hother inner hchildren
    rw [renderNode, renderNode]
    cases Rule.ofName (localName tag) <;> dsimp only
    case hidden => exact .of_unbracketed fun _ hc => absurd hc List.not_mem_nil
    case choices =>
      have hfirst := bare_of_mem (h List.mem_cons_self)
      have hsecond := bare_of_mem (hother List.mem_cons_self)
      exact .within (by decide) (unbracketed_choiceWrapperAttribute _)
        (unbracketed_choiceWrapperAttribute _) (hfirst.trans hsecond.symm) (hinside spacing)
    case cloze => exact .of_tag isTag_cloze
    case pre => exact .within (by decide) hpart hpart rfl (hinside _)
    case code => exact .within (by decide) hpart hpart rfl (hinside _)
    case image =>
      have himage := (attributePart_writeAttributes hattributes).image
      rw [image_eq]
      exact .of_tag (isTag_openTag (by decide) himage.unbracketed)
    case line => exact .of_tag isTag_line
    case renamed => exact .within (unbracketed_htmlName hname) hpart hpart rfl (hinside spacing)

/-- Rendered nodes differ in the start tags of wrappers. -/
theorem matched_renderNodes (h : wrapperTags (wrapped choices whole) ⊆ tags)
    (hother : wrapperTags (wrapped others rest) ⊆ tags) (spacing : Spacing) : ∀ {nodes : List Node},
    NamedNodes nodes → Matched (bare tags) (renderNodes (wrapped choices whole) spacing nodes)
      (renderNodes (wrapped others rest) spacing nodes)
  | [], _ => .of_unbracketed fun _ hc => absurd hc List.not_mem_nil
  | _ :: _, hnodes => by
    rw [renderNodes, renderNodes]
    exact (matched_renderNode h hother spacing hnodes.1).append
      (matched_renderNodes h hother spacing hnodes.2)

end

/-- Rendered bodies differ in the start tags of wrappers. -/
theorem matched_renderBody (h : wrapperTags (wrapped choices whole) ⊆ tags)
    (hother : wrapperTags (wrapped others rest) ⊆ tags) {body : Element}
    (hnodes : NamedNodes body.children) :
    Matched (bare tags) (renderBody (wrapped choices whole) body)
      (renderBody (wrapped others rest) body) := by
  have hfirst := bare_of_mem (h (List.mem_cons_of_mem _ List.mem_cons_self))
  have hsecond := bare_of_mem (hother (List.mem_cons_of_mem _ List.mem_cons_self))
  exact .within (by decide) (unbracketed_class _) (unbracketed_class _) (hfirst.trans hsecond.symm)
    (matched_renderNodes h hother Spacing.root hnodes)

end Rendering

/-! ## What the reports look like -/

/-- The tags of HTML with those beside them that they are edited to, and the characters between them. -/
theorem exists_twins {html text : List Char} (h : Displays Escaped html text)
    (edited : List Char → Bool) (f : List Char → List Char) :
    ∃ twins, twinTags twins =
        (anyTag.findAll html).map (fun tag => (tag, if edited tag then f tag else tag)) ∧
      writeTwins Prod.fst twins = html ∧
      writeTwins Prod.snd twins = writeTokens ((anyTag.pieces html).map (TagSearch.edit edited f)) := by
  induction h with
  | nil => exact ⟨[], by simp [twinTags], rfl, by simp⟩
  | @char c written html text hc _ ih =>
    obtain ⟨twins, htags, hfirst, hsecond⟩ := ih
    have hbrackets := writing_escaped.unbracketed hc
    have hpieces := anyTag.pieces_append_of_starts (fun hc => anyTag?_cons hc _)
      (fun d hd => (hbrackets d hd).1) html
    have hchars : writeTokens ((written.map .char).map (TagSearch.edit edited f)) = written := by
      rw [List.map_map, writeTokens, List.flatMap_map]
      exact List.flatMap_singleton' written
    refine ⟨.char c :: twins, ?_, ?_, ?_⟩
    · rw [Html.findAll_anyTag_append hbrackets]
      exact htags
    · rw [Html.writeTwins_char, hfirst, hc]
    · rw [Html.writeTwins_char, hsecond, hpieces, List.map_append, writeTokens_append, hchars, hc]
  | @tag tag html text htag _ ih =>
    obtain ⟨twins, htags, hfirst, hsecond⟩ := ih
    have hrun := anyTag?_append htag html
    refine ⟨.found (tag, if edited tag then f tag else tag) :: twins, ?_, ?_, ?_⟩
    · rw [anyTag.findAll_of_run hrun, List.map_cons, Html.twinTags_found, htags]
    · rw [Html.writeTwins_found, hfirst]
    · rw [Html.writeTwins_found, hsecond, anyTag.pieces_of_run hrun]
      rfl

/-- Tags of wrappers are start tags of the same element. -/
theorem twinTags_wrapper {part : List Char} (hpart : ReadablePart part) (hbrackets : Unbracketed part) :
    TwinTags (openTag "div".toList part) (openTag "div".toList []) := by
  have hunbroken : Html.StartTag.Unbroken ('d' :: "iv".toList) := unbroken_of_nameLike nameLike_div
  have hreads {other : List Char} (hother : ReadablePart other) : ∃ attributes,
      Html.ReadAs ('<' :: 'd' :: ("iv".toList ++ other ++ ['>']))
        (.startTag "div".toList attributes false) := by
    obtain ⟨found, hfound, -⟩ := hother _ _ .bracket
    have hread := Html.readAs_startTag (by decide : 'd'.isAlpha = true) hunbroken hfound
    rw [← List.append_assoc] at hread
    exact ⟨_, hread⟩
  obtain ⟨attributes, hread⟩ := hreads hpart
  obtain ⟨none, hnone⟩ := hreads readablePart_nil
  have htag := isTag_openTag (by decide : Unbracketed "div".toList) hbrackets
  have hbare := isTag_openTag (by decide : Unbracketed "div".toList) (by decide : Unbracketed [])
  show TwinTags ('<' :: 'd' :: ("iv".toList ++ part ++ ['>']))
    ('<' :: 'd' :: ("iv".toList ++ [] ++ ['>']))
  exact .starts (by decide) htag hbare hread hnone (by decide)

section Bared

variable {tags : List (List Char)}
  (h : ∀ tag ∈ tags, ∃ part, tag = openTag "div".toList part ∧ ReadablePart part ∧ Unbracketed part)

include h

/-- The passes do not look at wrappers. -/
theorem foreignEdit_bare : ForeignEdit tags.contains fun _ => openTag "div".toList [] where
  before hedited := by
    obtain ⟨part, rfl, -⟩ := h _ (List.contains_iff_mem.1 hedited)
    exact ⟨'d', ⟨_, rfl⟩, by decide⟩
  after _ := ⟨'d', ⟨_, rfl⟩, by decide⟩

/-- A report of tags that are understood looks as it does without the attributes of its wrappers. -/
theorem exists_outline_bared {tokens : List Token} {text : List Char} (htokens : Tokens tokens)
    (hdisplays : Displays Escaped (writeTokens tokens) text) (hread : ∀ t ∈ tokens, ReportToken ReadTag t)
    (hended : RawEnded (tagsOf tokens)) :
    ∃ shape, outline? (writeTokens tokens) = some shape ∧
      outline? (writeTokens (tokens.map (bare tags))) = some shape := by
  obtain ⟨twins, htags, hfirst, hsecond⟩ :=
    exists_twins hdisplays tags.contains fun _ => openTag "div".toList []
  rw [pieces_writeTokens htokens] at hsecond
  have hpairs : twinTags twins = (tagsOf tokens).map
      (fun tag => (tag, if tags.contains tag then openTag "div".toList [] else tag)) := by
    rw [htags, findAll_anyTag_writeTokens htokens]
    rfl
  rw [← hfirst]
  refine (Html.exists_outline_of_twins ?_ ?_).imp fun shape hshape => ⟨hshape.1, hsecond ▸ hshape.2⟩
  · intro pair hpair
    rw [hpairs] at hpair
    obtain ⟨tag, htag, rfl⟩ := List.mem_map.1 hpair
    by_cases hmem : tags.contains tag = true
    · obtain ⟨part, rfl, hpart, hbrackets⟩ := h tag (List.contains_iff_mem.1 hmem)
      dsimp only
      rw [if_pos hmem]
      exact twinTags_wrapper hpart hbrackets
    · have hunderstood := (of_mem_tagsOf hread tag htag).1
      dsimp only
      rw [if_neg hmem]
      exact .same (htokens _ (Piece.found_mem htag)) hunderstood
  · rw [hpairs, List.map_map]
    have hid : (Prod.fst ∘ fun tag => (tag, if tags.contains tag then openTag "div".toList [] else tag)) =
        id := rfl
    rw [hid, List.map_id]
    exact hended

end Bared

/-- The question of a report looks as it does without the attributes of its wrappers. -/
theorem exists_outline_question {root body : Element} {expected choices whole : List Char}
    (hbody : findBody expected root = .ok body) (hnodes : NamedNodes body.children)
    (hvalues : WithoutEqualsSigns body) {tags : List (List Char)}
    (h : ∀ tag ∈ tags, ∃ part, tag = openTag "div".toList part ∧ ReadablePart part ∧ Unbracketed part)
    {tokens : List Token} (htokens : Tokens tokens)
    (htext : writeTokens tokens = renderBody (wrapped choices whole) body) :
    ∃ item shape, (render (wrapped choices whole) expected root).result = .ok item ∧
      outline? item.question = some shape ∧
      outline? (writeTokens ((finishTokens {} tokens).map (bare tags))) = some shape := by
  have hreadable : ∀ e ∈ reachedIn body.children, IfSearched SpelledReadably (startOf e) := fun e he =>
    spelledReadably_startOf (named_of_mem_reachedIn hnodes he) (hvalues e he)
  obtain ⟨made, hmade, hread, hended, hwritten⟩ :=
    tagRule_understood.madeEnded_renderBody hnodes hreadable choices whole
  have hsame : made = tokens := by
    rw [← pieces_writeTokens hmade, ← pieces_writeTokens htokens, hwritten, htext]
  subst hsame
  have htidy := tidy_wrapped choices whole
  obtain ⟨finished, hfinished, hdisplays⟩ :=
    exists_finished_of_displays htidy rfl (displays_renderBody htidy hnodes)
  obtain ⟨item, hitem, rfl⟩ := exists_item_of_finishHtml hbody hfinished
  obtain ⟨other, hother, hquestion, hfinishedTokens⟩ := exists_item_of_writeTokens hbody hmade htext
  obtain rfl := Except.ok.inj (hitem.symm.trans hother)
  rw [hquestion] at hdisplays
  obtain ⟨shape, hshape, hbared⟩ := exists_outline_bared h hfinishedTokens hdisplays
    (reportToken_finishTokens tagRule_understood.legible hread)
    (tagRule_understood.rawEnded_finishTokens hread hended)
  exact ⟨item, shape, hitem, hquestion ▸ hshape, hbared⟩

/-- Reports of an item that differ in the classes of their wrappers look alike, if no value of an element
named like code holds an equals sign. -/
theorem exists_outline_of_wrappers {source : Source} {root body : Element} {expected : List Char}
    (hread : readDocument source = .ok root) (hbody : findBody expected root = .ok body)
    (hvalues : WithoutEqualsSigns body) (choices whole others rest : List Char) :
    ∃ item other shape, (render (wrapped choices whole) expected root).result = .ok item ∧
      (render (wrapped others rest) expected root).result = .ok other ∧
      outline? item.question = some shape ∧ outline? other.question = some shape := by
  have hnodes := namedNodes_of_findBody hread hbody
  have hfirst := List.subset_append_left (wrapperTags (wrapped choices whole))
    (wrapperTags (wrapped others rest))
  have hsecond := List.subset_append_right (wrapperTags (wrapped choices whole))
    (wrapperTags (wrapped others rest))
  have htags : ∀ tag ∈ wrapperTags (wrapped choices whole) ++ wrapperTags (wrapped others rest),
      ∃ part, tag = openTag "div".toList part ∧ ReadablePart part ∧ Unbracketed part :=
    List.forall_mem_append.2
      ⟨fun _ => exists_part_of_mem_wrapperTags, fun _ => exists_part_of_mem_wrapperTags⟩
  generalize wrapperTags (wrapped choices whole) ++ wrapperTags (wrapped others rest) = tags at *
  obtain ⟨tokens, tokens', htokens, htokens', hsame, htext, htext'⟩ :=
    matched_renderBody hfirst hsecond hnodes
  obtain ⟨item, shape, hitem, hshape, hbared⟩ :=
    exists_outline_question hbody hnodes hvalues htags htokens htext
  obtain ⟨other, shape', hother, hshape', hbared'⟩ :=
    exists_outline_question hbody hnodes hvalues htags htokens' htext'
  have hforeign := foreignEdit_bare htags
  have hfinished : (finishTokens {} tokens).map (bare tags) = (finishTokens {} tokens').map (bare tags) := by
    rw [bare, ← finishTokens_map hforeign, ← finishTokens_map hforeign]
    exact congrArg (finishTokens {}) hsame
  rw [hfinished, hbared'] at hbared
  obtain rfl := Option.some.inj hbared
  exact ⟨item, other, shape', hitem, hother, hshape, hshape'⟩

end Assessment.Report
