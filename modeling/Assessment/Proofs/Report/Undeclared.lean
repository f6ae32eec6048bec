import Assessment.Proofs.Html.Undeclared
import Assessment.Proofs.Report.Clozes

/-!
# Proofs: reports hold no declarations

In HTML an exclamation mark follows an opening bracket only at the start of a tag, and no element of an
item, no pass over code and no highlighter of the library writes such a tag. So the question of a report
can be read as HTML again (`exists_undeclared_question`).
-/

namespace Assessment.Report

open Assessment.Html (Undeclared)
open Assessment.Item Assessment.Text Assessment.Xml Assessment.Markup

/-- A tag that declares something is foreign to the passes. -/
theorem foreign_of_opens {mark : List Char} (h : Opens '!' mark) : Foreign mark :=
  ⟨'!', h, by decide⟩

/-! ## HTML without declarations -/

theorem infix_of_forall_ne {c : Char} {mark before s : List Char} (hbefore : ∀ d ∈ before, d ≠ c)
    (h : c :: mark <:+: before ++ s) : c :: mark <:+: s := by
  induction before with
  | nil => exact h
  | cons d before ih =>
    obtain ⟨hd, hbefore⟩ := List.forall_mem_cons.1 hbefore
    rcases List.infix_cons_iff.1 h with hfirst | hoccurs
    · exact absurd (List.cons_prefix_cons.1 hfirst).1.symm hd
    · exact ih hbefore hoccurs

/-- HTML in which no tag declares anything holds no declaration. -/
theorem undeclared_of_shows {html text : List Char} (h : Shows html text)
    (hnone : ∀ mark, Opens '!' mark → countTag mark html = 0) : Undeclared html := by
  induction h with
  | nil => exact fun h => by simp at h
  | char h1 _ _ ih =>
    intro hoccurs
    refine ih (fun mark hmark => ?_) (@infix_of_forall_ne _ _ [_] _ (by simpa using h1) hoccurs)
    rw [← hnone mark hmark, countTag_cons h1]
  | @tag tag html _ htag _ ih =>
    intro hoccurs
    obtain ⟨tail, rfl, htail⟩ := htag.exists_tail
    rcases List.infix_cons_iff.1 hoccurs with hfirst | hoccurs
    · have hopens : Opens '!' ('<' :: tail) := by
        obtain ⟨inside, heq, -⟩ := htag.cutAtChar? html
        cases tail with
        | nil => simp at heq
        | cons c tail =>
          obtain ⟨rfl, -⟩ := List.cons_prefix_cons.1 (List.cons_prefix_cons.1 hfirst).2
          exact ⟨tail, rfl⟩
      have hself := hnone _ hopens
      rw [countTag_isTag_append htag, if_pos rfl] at hself
      cases hself
    · refine ih (fun mark hmark => ?_) (infix_of_forall_ne htail hoccurs)
      have hall := hnone mark hmark
      rw [countTag_isTag_append htag] at hall
      exact (Nat.add_eq_zero_iff.1 hall).1

/-! ## The highlighter -/

theorem counts_of_opens {mark : List Char} (hmark : Opens '!' mark) {c : Char} {tag : List Char}
    (hc : c ≠ '!') (h : Opens c tag) (htag : IsTag tag) : Counts mark tag 0 :=
  .of_ne htag fun heq => hc (h.eq (heq ▸ hmark))

theorem counts_joinWith {mark separator : List Char} (hseparator : Counts mark separator 0)
    {parts : List (List Char)} (h : ∀ part ∈ parts, Counts mark part 0) :
    Counts mark (joinWith separator parts) 0 := by
  fun_induction joinWith separator parts with
  | case1 => exact .nil
  | case2 part => exact h part (by simp)
  | case3 part next parts ih =>
    obtain ⟨hpart, hparts⟩ := List.forall_mem_cons.1 h
    exact (hpart.append hseparator).append (ih hparts)

/-- A line of what a program has written is put between tags that are no declarations. -/
theorem counts_outputLine {mark : List Char} (hmark : Opens '!' mark) (inlineStyles : Bool)
    (line : List Char) : Counts mark (Highlight.outputLine inlineStyles line) 0 := by
  have htext : Counts mark (Html.escapeText line) 0 :=
    .of_unbracketed (Html.unbracketed_escapeText line)
  have hend : Counts mark "</span>".toList 0 :=
    @counts_of_opens _ hmark '/' _ (by decide) ⟨_, rfl⟩ (@IsTag.intro "/span".toList (by decide))
  unfold Highlight.outputLine
  split
  · exact .nil
  · rw [List.append_assoc]
    refine .between ?_ hend htext
    cases inlineStyles
    · exact @counts_of_opens _ hmark 's' _ (by decide) ⟨_, rfl⟩
        (@IsTag.intro "span class=\"go\"".toList (by decide))
    · exact @counts_of_opens _ hmark 's' _ (by decide) ⟨_, rfl⟩
        (@IsTag.intro "span style=\"color: #717171\"".toList (by decide))

/-- The highlighter of the library declares nothing. -/
theorem counts_highlight {mark : List Char} (hmark : Opens '!' mark) (inlineStyles : Bool)
    (code : List Char) (language : Option (List Char)) :
    Counts mark (Highlight.highlight inlineStyles code language).html 0 := by
  have hnewline : Counts mark ['\n'] 0 := .of_unbracketed (by decide)
  have hrendered : ∀ lexer : Highlight.Lexer,
      Counts mark (lexer.render inlineStyles (Highlight.tidy code)) 0 := by
    intro lexer
    cases lexer with
    | text => exact .of_unbracketed (Html.unbracketed_escapeText _)
    | output =>
      refine counts_joinWith hnewline fun part hpart => ?_
      obtain ⟨line, -, rfl⟩ := List.mem_map.1 hpart
      exact counts_outputLine hmark inlineStyles line
  unfold Highlight.highlight
  dsimp only
  split
  · exact (hrendered _).append hnewline
  · exact hrendered _

/-! ## Rendered items -/

theorem not_mem_of_nameLike {s : List Char} (h : NameLike s) : '!' ∉ s := fun hmem => by
  rcases h _ hmem with h | h <;> exact absurd h (by decide +kernel)

/-- The start tag of an element declares nothing. -/
theorem counts_openTag {mark : List Char} (hmark : Opens '!' mark) {name part : List Char}
    (hname : Unbracketed name) (hsilent : '!' ∉ name) (hpart : AttributePart part) :
    Counts mark (openTag name part) 0 := by
  have htag := isTag_openTag hname hpart.unbracketed
  cases name with
  | cons c name =>
    refine counts_of_opens hmark ?_ ⟨_, rfl⟩ htag
    rintro rfl
    exact hsilent List.mem_cons_self
  | nil =>
    obtain rfl | ⟨rest, rfl⟩ := hpart.spaced
    · exact @counts_of_opens _ hmark '>' _ (by decide) ⟨_, rfl⟩ htag
    · exact @counts_of_opens _ hmark ' ' _ (by decide) ⟨_, rfl⟩ htag

theorem counts_within_of_opens {mark : List Char} (hmark : Opens '!' mark)
    {name part html : List Char} (hname : Unbracketed name) (hsilent : '!' ∉ name)
    (hpart : AttributePart part) (h : Counts mark html 0) : Counts mark (within name part html) 0 := by
  have hclose := @counts_of_opens _ hmark '/' _ (by decide) ⟨_, rfl⟩ (isTag_closeTag hname)
  rw [within_eq]
  exact .between (counts_openTag hmark hname hsilent hpart) hclose h

theorem keptByRendering_counts_of_opens {mark : List Char} (hmark : Opens '!' mark) {options : Options}
    (hcloze : Counts mark options.cloze 0) :
    KeptByRendering options (fun _ => True) fun _ html => Counts mark html 0 where
  text := .of_unbracketed
  append := .append
  hidden _ := .nil
  cloze _ := hcloze
  image _ hnamed := by
    rw [image_eq]
    exact counts_openTag hmark (by decide) (by decide) (attributePart_writeAttributes hnamed.2.1).image
  line _ := @counts_of_opens _ hmark 'h' _ (by decide) ⟨_, rfl⟩ isTag_line
  choices _ h :=
    counts_within_of_opens hmark (by decide) (by decide) (attributePart_choiceWrapper options) h
  element _ _ hnamed _ h := by
    have hname : NameLike (htmlName _) := hnamed.1.of_subset (htmlName_subset _)
    exact counts_within_of_opens hmark hname.unbracketed (not_mem_of_nameLike hname)
      (attributePart_writeAttributes hnamed.2.1) h

/-- Rendered nodes declare nothing. -/
theorem counts_renderNodes_of_opens {mark : List Char} (hmark : Opens '!' mark) {options : Options}
    (hcloze : Counts mark options.cloze 0) (spacing : Spacing) {nodes : List Node}
    (hnodes : NamedNodes nodes) : Counts mark (renderNodes options spacing nodes) 0 :=
  (keptByRendering_counts_of_opens hmark hcloze).nodes spacing hnodes fun _ _ => trivial

/-! ## Reports -/

/-- The options of a report with no highlighter or with that of the library. -/
def ofLibrary (highlighter : Option Bool) : Options :=
  { highlighter := highlighter.map Highlight.highlighter }

theorem tidy_ofLibrary (highlighter : Option Bool) : (ofLibrary highlighter).Tidy :=
  tidy_of_defaults _ _ _

/-- Marking the blocks of code, by the highlighter of the library or without one, declares nothing. -/
theorem exists_marked_of_opens (highlighter : Option Bool) {html : List Char}
    (h : ∀ mark, Opens '!' mark → Counts mark html 0) :
    ∃ marked, (decorateBlocks (ofLibrary highlighter) html).result = .ok marked ∧
      ∀ mark, Opens '!' mark → Counts mark marked 0 := by
  have htidy := tidy_ofLibrary highlighter
  cases highlighter with
  | none =>
    refine ⟨_, rfl, fun mark hmark => ?_⟩
    obtain ⟨marked, hmarked, hcounts⟩ :=
      (foreign_of_opens hmark).counts_decorateBlocks htidy rfl (h mark hmark)
    cases hmarked
    exact hcounts
  | some inlineStyles =>
    refine ⟨_, result_highlightPieces _ inlineStyles (codeBlock.pieces html), fun mark hmark => ?_⟩
    have hwhole := whole_codeBlock.and fun hrun => (codeBlock_finds hrun).2
    obtain ⟨left, hleft, hsum⟩ :=
      hwhole.counts_replace (fun hrun => (codeBlock_finds hrun).1) (h mark hmark)
        fun block _ _ ⟨hholds, hopened⟩ => (foreign_of_opens hmark).loses_colored htidy hholds hopened
          inlineStyles (counts_highlight hmark inlineStyles block.code block.declared)
    rw [(Nat.add_eq_zero_iff.1 hsum).1] at hleft
    exact hleft

/-- The question of a report that is made without a highlighter or with the one of the library holds no
declaration. -/
theorem exists_undeclared_question (highlighter : Option Bool) {source : Source} {root body : Element}
    {expected : List Char} (hread : readDocument source = .ok root)
    (hbody : findBody expected root = .ok body) :
    ∃ item, (render (ofLibrary highlighter) expected root).result = .ok item ∧
      Undeclared item.question := by
  have htidy := tidy_ofLibrary highlighter
  have hnamed := namedNodes_of_findBody hread hbody
  have hmerged : ∀ mark, Opens '!' mark →
      Counts mark (mergeFragments (renderBody (ofLibrary highlighter) body)) 0 := by
    intro mark hmark
    have hcloze := @counts_of_opens _ hmark 'i' _ (by decide) ⟨_, rfl⟩ isTag_cloze
    refine (foreign_of_opens hmark).counts_mergeFragments ?_
    exact counts_within_of_opens hmark (by decide) (by decide) (attributePart_bodyWrapper _)
      (counts_renderNodes_of_opens hmark hcloze Spacing.root hnamed)
  obtain ⟨marked, hresult, hmarked⟩ := exists_marked_of_opens highlighter hmerged
  have hfinished : (finishHtml (ofLibrary highlighter)
      (renderBody (ofLibrary highlighter) body)).result =
        .ok (decorateInline (ofLibrary highlighter) marked) :=
    congrArg (Except.map (decorateInline (ofLibrary highlighter))) hresult
  have hquestion : ∀ mark, Opens '!' mark →
      Counts mark (decorateInline (ofLibrary highlighter) marked) 0 := fun mark hmark =>
    (foreign_of_opens hmark).counts_decorateInline htidy (hmarked mark hmark)
  obtain ⟨item, hitem, heq⟩ := exists_item_of_finishHtml hbody hfinished
  refine ⟨item, hitem, ?_⟩
  rw [heq]
  obtain ⟨text, hshows⟩ := (hquestion "<!".toList ⟨[], rfl⟩).shows
  exact undeclared_of_shows hshows fun mark hmark => (hquestion mark hmark).count

end Assessment.Report
