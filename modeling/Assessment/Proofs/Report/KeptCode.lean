import Assessment.Proofs.Html.Printing
import Assessment.Proofs.Report.Clozes

/-!
# Proofs: code that highlighting keeps

The highlighter tidies the code that it is given and puts one line break back at its end. For plain text,
what comes out is decoded to the code exactly if nothing else was tidied away (`decode_highlight_iff`). In
a report with such code, every block displays what it displayed before, since neither the passes nor the
highlighter cut a written character (`plain_code_is_kept`).
-/

namespace Assessment.Highlight

open Assessment.Text Assessment.Markup

/-! ## Tidy code -/

/-- The text without the line breaks at both ends. -/
def stripNewlines (s : List Char) : List Char :=
  ((s.dropWhile isNewline).reverse.dropWhile isNewline).reverse

/-- The code as the highlighter takes it, with a line break at its end if it had one. -/
def retied (code : List Char) : List Char :=
  tidy code ++ if code.getLast? == some '\n' then ['\n'] else []

/-- The code has line feeds only, no byte order mark in front and no line break at its ends, but for one
line break that is last. -/
def Kept (code : List Char) : Prop :=
  '\r' ∉ code ∧ code.head? ≠ some '\uFEFF' ∧
    (code = ['\n'] ∨ code.head? ≠ some '\n' ∧ ¬ ['\n', '\n'] <:+ code)

instance (code : List Char) : Decidable (Kept code) :=
  inferInstanceAs (Decidable ('\r' ∉ code ∧ code.head? ≠ some '\uFEFF' ∧
    (code = ['\n'] ∨ code.head? ≠ some '\n' ∧ ¬ ['\n', '\n'] <:+ code)))

theorem stripNewlines_subset (s : List Char) : stripNewlines s ⊆ s := fun _ hc =>
  (List.dropWhile_sublist isNewline).subset (List.mem_reverse.1
    ((List.dropWhile_sublist isNewline).subset (List.mem_reverse.1 hc)))

theorem unixLines_of_not_mem {s : List Char} (h : '\r' ∉ s) : unixLines s = s := by
  fun_induction unixLines s with
  | case1 => rfl
  | case2 s _ => simp at h
  | case3 s _ _ => simp at h
  | case4 c s _ _ ih => rw [ih fun hmem => h (List.mem_cons_of_mem c hmem)]

theorem not_mem_unixLines (s : List Char) : '\r' ∉ unixLines s := by
  fun_induction unixLines s with
  | case1 => exact List.not_mem_nil
  | case2 s ih => simpa using ih
  | case3 s _ ih => simpa using ih
  | case4 c s _ hc ih =>
    rw [List.mem_cons, not_or]
    exact ⟨fun heq => hc heq.symm, ih⟩

theorem count_unixLines {c : Char} (hreturn : c ≠ '\r') (hfeed : c ≠ '\n') (s : List Char) :
    (unixLines s).count c = s.count c := by
  fun_induction unixLines s with
  | case1 => rfl
  | case2 s ih => rw [List.count_cons_of_ne hfeed.symm, List.count_cons_of_ne hreturn.symm,
      List.count_cons_of_ne hfeed.symm, ih]
  | case3 s _ ih => rw [List.count_cons_of_ne hfeed.symm, List.count_cons_of_ne hreturn.symm, ih]
  | case4 d s _ _ ih => rw [List.count_cons, List.count_cons, ih]

/-! ### Line breaks at the ends -/

theorem head?_dropWhile_isNewline (s : List Char) : (s.dropWhile isNewline).head? ≠ some '\n' := by
  intro hhead
  have hnot := List.head?_dropWhile_not isNewline s
  rw [hhead] at hnot
  cases hnot

theorem dropWhile_isNewline {s : List Char} (h : s.head? ≠ some '\n') : s.dropWhile isNewline = s := by
  cases s with
  | nil => rfl
  | cons c s => exact List.dropWhile_cons_of_neg fun hc => h (congrArg some (beq_iff_eq.1 hc))

theorem head?_stripNewlines (s : List Char) : (stripNewlines s).head? ≠ some '\n' := by
  intro hhead
  obtain ⟨rest, hrest⟩ := List.head?_eq_some_iff.1 hhead
  have hprefix : stripNewlines s <+: s.dropWhile isNewline := by
    rw [← List.reverse_suffix, stripNewlines, List.reverse_reverse]
    exact List.dropWhile_suffix isNewline
  obtain ⟨more, hmore⟩ := hprefix
  refine head?_dropWhile_isNewline s ?_
  rw [← hmore, hrest]
  rfl

theorem getLast?_stripNewlines (s : List Char) : (stripNewlines s).getLast? ≠ some '\n' := by
  rw [stripNewlines, List.getLast?_reverse]
  exact head?_dropWhile_isNewline _

theorem stripNewlines_eq_self {s : List Char} (hhead : s.head? ≠ some '\n')
    (hlast : s.getLast? ≠ some '\n') : stripNewlines s = s := by
  rw [← List.head?_reverse] at hlast
  rw [stripNewlines, dropWhile_isNewline hhead, dropWhile_isNewline hlast, List.reverse_reverse]

/-- One line break behind a text is taken away. -/
theorem stripNewlines_concat {s : List Char} (hhead : (s ++ ['\n']).head? ≠ some '\n')
    (hlast : s.getLast? ≠ some '\n') : stripNewlines (s ++ ['\n']) = s := by
  rw [← List.head?_reverse] at hlast
  rw [stripNewlines, dropWhile_isNewline hhead, List.reverse_concat,
    List.dropWhile_cons_of_pos (by decide), dropWhile_isNewline hlast, List.reverse_reverse]

theorem count_dropWhile {p : Char → Bool} {c : Char} (hc : p c = false) (s : List Char) :
    (s.dropWhile p).count c = s.count c := by
  have hnone : (s.takeWhile p).count c = 0 := by
    refine List.count_eq_zero.2 fun hmem => ?_
    rw [List.mem_takeWhile_imp hmem] at hc
    cases hc
  calc (s.dropWhile p).count c = (s.takeWhile p).count c + (s.dropWhile p).count c := by
        rw [hnone, Nat.zero_add]
    _ = s.count c := by rw [← List.count_append, List.takeWhile_append_dropWhile]

/-! ### What is kept -/

theorem tidy_eq (code : List Char) :
    tidy code = stripNewlines (unixLines ((after? ['\uFEFF'] code).getD code)) := rfl

/-- A byte order mark in front of code is not kept, even if another one comes next. -/
theorem retied_ne_of_mark {code : List Char} (h : code.head? = some '\uFEFF') : retied code ≠ code := by
  obtain ⟨rest, rfl⟩ := List.head?_eq_some_iff.1 h
  have htidy : (tidy ('\uFEFF' :: rest)).count '\uFEFF' = rest.count '\uFEFF' := by
    have hafter : (after? ['\uFEFF'] ('\uFEFF' :: rest)).getD ('\uFEFF' :: rest) = rest := rfl
    rw [tidy_eq, hafter, stripNewlines, List.count_reverse, count_dropWhile (by decide),
      List.count_reverse, count_dropWhile (by decide), count_unixLines (by decide) (by decide)]
  intro heq
  have hcount := congrArg (List.count '\uFEFF') heq
  have hend : (if ('\uFEFF' :: rest).getLast? == some '\n' then ['\n'] else []).count '\uFEFF' = 0 := by
    split
    · decide
    · rfl
  rw [retied, List.count_append, htidy, hend, List.count_cons_self] at hcount
  omega

theorem retied_of_kept {code : List Char} (h : Kept code) : retied code = code := by
  obtain ⟨hreturn, hmark, rfl | ⟨hhead, hsuffix⟩⟩ := h
  · decide
  · have hafter : after? ['\uFEFF'] code = none := by
      refine Option.eq_none_iff_forall_ne_some.2 fun rest hrest => hmark ?_
      rw [after?_eq_some_iff.1 hrest]
      rfl
    rw [retied, tidy_eq, hafter, Option.getD_none, unixLines_of_not_mem hreturn]
    by_cases hlast : code.getLast? = some '\n'
    · rw [if_pos (beq_iff_eq.2 hlast)]
      obtain ⟨body, rfl⟩ := List.getLast?_eq_some_iff.1 hlast
      rw [stripNewlines_concat hhead]
      intro hbody
      obtain ⟨before, rfl⟩ := List.getLast?_eq_some_iff.1 hbody
      exact hsuffix ⟨before, by simp⟩
    · rw [if_neg (mt beq_iff_eq.1 hlast), stripNewlines_eq_self hhead hlast, List.append_nil]

theorem kept_of_retied {code : List Char} (h : retied code = code) : Kept code := by
  have htidyReturn : '\r' ∉ tidy code := fun hmem =>
    not_mem_unixLines _ (stripNewlines_subset _ hmem)
  have hreturn : '\r' ∉ code := by
    rw [← h, retied, List.mem_append, not_or]
    refine ⟨htidyReturn, ?_⟩
    split
    · decide
    · decide
  refine ⟨hreturn, fun hmark => retied_ne_of_mark hmark h, ?_⟩
  rw [retied] at h
  by_cases hlast : code.getLast? = some '\n'
  · rw [if_pos (beq_iff_eq.2 hlast)] at h
    cases htidy : tidy code with
    | nil =>
      rw [htidy] at h
      exact .inl h.symm
    | cons c rest =>
      have hc : c ≠ '\n' := fun heq => head?_stripNewlines _ (by rw [← tidy_eq, htidy, heq]; rfl)
      refine .inr ⟨?_, ?_⟩
      · rw [← h, htidy]
        exact fun heq => hc (Option.some.inj heq)
      · rintro ⟨before, hbefore⟩
        have hend : tidy code = before ++ ['\n'] := by
          have hboth : tidy code ++ ['\n'] = (before ++ ['\n']) ++ ['\n'] := by
            rw [h, ← hbefore, List.append_assoc]
            rfl
          exact List.append_cancel_right hboth
        exact getLast?_stripNewlines _ (by rw [← tidy_eq, hend, List.getLast?_concat])
  · rw [if_neg (mt beq_iff_eq.1 hlast), List.append_nil] at h
    refine .inr ⟨?_, ?_⟩
    · rw [← h]
      exact head?_stripNewlines _
    · rintro ⟨before, hbefore⟩
      exact hlast (by rw [← hbefore]; simp)

/-- What comes out for plain text is the tidied code, escaped. -/
theorem highlight_html_eq {language : Option (List Char)}
    (h : (Lexer.ofLanguage language).1 = .text) (inlineStyles : Bool) (code : List Char) :
    (highlight inlineStyles code language).html = Html.escapeText (retied code) := by
  rw [highlight_html_of_text h, retied, Html.escapeText, Html.escapeText, List.flatMap_append]
  congr 1
  split
  · rfl
  · rfl

/-- What comes out for plain text is decoded to the code exactly if the code is kept. -/
theorem decode_highlight_iff {language : Option (List Char)}
    (h : (Lexer.ofLanguage language).1 = .text) (inlineStyles : Bool) (code : List Char) :
    Entity.decode (highlight inlineStyles code language).html = code ↔ Kept code := by
  rw [highlight_html_eq h, Html.decode_escapeText]
  exact ⟨kept_of_retied, retied_of_kept⟩

end Assessment.Highlight

namespace Assessment.Report

open Assessment.Html (Written writing_written)
open Assessment.Text Assessment.Markup Assessment.Xml

/-! ## Passes that keep written characters -/

section Passes

variable {W : Char → List Char → Prop} (hW : Writing W) {html text : List Char}

include hW

/-- Tags are replaced by HTML that displays nothing. -/
theorem displays_replace_tags {p : Recognizer (List Char)} (hp : Whole p ShowsNothing)
    (hsource : ∀ {s rest tag : List Char}, p.run s = some (tag, rest) → s = tag ++ rest)
    {f : List Char → List Char} (hf : ∀ {tag : List Char}, IsTag tag → Displays W (f tag) [])
    (h : Displays W html text) : Displays W (p.replace f html) text := by
  have hends : ∀ {tag shown : List Char}, ShowsNothing tag shown →
      ∃ front last, IsTag last ∧ tag = front ++ last := fun {tag} _ hnothing =>
    ⟨[], tag, hnothing.1, rfl⟩
  refine hp.displays_replace hW hsource hends h ?_
  rintro tag - shown displayed ⟨htag, -⟩ hdisplayed
  rw [← List.append_nil tag] at hdisplayed
  rw [(hdisplayed.of_isTag_append hW htag).eq_nil hW]
  exact hf htag

theorem displays_merged {block : PreBlock} {shown : List Char} (hholds : block.Holds shown)
    (h : Displays W block.source text) : Displays W block.merged text := by
  obtain ⟨hopening, hshows⟩ := hholds
  have hinside : Displays W block.inside text :=
    (h.of_isTag_append hW hopening).of_append_isTag hW isTag_preEnd
  unfold PreBlock.merged
  split
  · next start hfind =>
    obtain ⟨-, hstart, -⟩ := hshows.of_mem_findAll whole_codeStart (List.mem_of_head? hfind)
    have hcode : Displays W (codeTag.replace (fun _ => []) block.inside) text :=
      displays_replace_tags hW whole_codeTag (fun hrun => (codeTag_finds hrun).1) (fun _ => .nil)
        hinside
    rw [List.append_assoc, List.append_assoc, List.append_assoc]
    refine .tag hopening (.tag hstart ?_)
    simpa using hcode.append ((Displays.of_isTag isTag_codeEnd).append (.of_isTag isTag_preEnd))
  · rw [List.append_assoc]
    exact h

theorem displays_mergeFragments (h : Displays W html text) : Displays W (mergeFragments html) text := by
  refine whole_preBlock.displays_replace hW (fun hrun => (preBlock_finds hrun).1) ?_ h
    fun block _ {_ _} hholds hdisplayed => displays_merged hW hholds hdisplayed
  rintro block shown -
  exact ⟨block.opening ++ block.inside, preEnd, isTag_preEnd, by rw [PreBlock.source, List.append_assoc]⟩

theorem displays_decorateInline {options : Options} (htidy : options.Tidy) (h : Displays W html text) :
    Displays W (decorateInline options html) text :=
  displays_replace_tags hW whole_codeStart (fun hrun => (codeStart_finds hrun).1)
    (fun htag => .of_isTag (isTag_inlineStart htidy htag)) h

/-! ## Blocks of code -/

variable {block : CodeBlock} {shown : List Char}

/-- A block displays the white space between its tags and its code. -/
theorem exists_displays_of_source (hholds : block.Holds shown) (h : Displays W block.source text) :
    ∃ space code, text = space ++ code ∧ Displays W block.space space ∧
      Displays W block.content code := by
  have hsource : block.source =
      block.preStart ++ (block.space ++ block.codeStart ++ block.content ++ codeEnd) := by
    simp [CodeBlock.source]
  rw [hsource] at h
  have hinside := (h.of_isTag_append hW hholds.preStart).of_append_isTag hW isTag_codeEnd
  exact hinside.exists_split_tag hW hholds.codeStart

omit hW in
theorem displays_tagged {options : Options} (htidy : options.Tidy) (hholds : block.Holds shown)
    {language content space code : List Char} (hlanguage : Unbracketed language)
    (hspace : Displays W block.space space) (hcontent : Displays W content code) :
    Displays W (block.tagged options language content) (space ++ code) := by
  unfold CodeBlock.tagged
  rw [List.append_assoc, List.append_assoc, List.append_assoc]
  refine .tag (isTag_taggedStart htidy htidy.codeBlockClass hlanguage hholds.preStart) ?_
  refine hspace.append ?_
  refine .tag (isTag_taggedStart htidy htidy.codeBlockCodeClass hlanguage hholds.codeStart) ?_
  simpa using hcontent.append (.of_isTag isTag_codeEnd)

end Passes

/-- The block holds no tag, and its code is kept, or nothing comes out for it and it stays as it is. -/
def CodeBlock.Survives (inlineStyles : Bool) (block : CodeBlock) : Prop :=
  '<' ∉ block.content ∧ (Highlight.Kept block.code ∨
    (Highlight.highlight inlineStyles block.code block.declared).html = [])

instance (inlineStyles : Bool) (block : CodeBlock) : Decidable (block.Survives inlineStyles) :=
  inferInstanceAs (Decidable ('<' ∉ block.content ∧ (Highlight.Kept block.code ∨
    (Highlight.highlight inlineStyles block.code block.declared).html = [])))

/-- A block of plain text displays the same when it is highlighted, if its code survives that. -/
theorem CodeBlock.Survives.displays_colored {options : Options} (htidy : options.Tidy)
    {block : CodeBlock} {shown text : List Char} {inlineStyles : Bool}
    (h : block.Survives inlineStyles) (hholds : block.Holds shown)
    (hplain : (Highlight.Lexer.ofLanguage block.declared).1 = .text)
    (hdisplayed : Displays Written block.source text) :
    Displays Written (block.colored options inlineStyles) text := by
  obtain ⟨hsolid, hkept⟩ := h
  obtain ⟨space, code, rfl, hspace, hcontent⟩ :=
    exists_displays_of_source writing_written hholds hdisplayed
  have hcode : block.code = code := decode_of_displays writing_written hcontent hsolid
  unfold CodeBlock.colored CodeBlock.highlighted
  refine displays_tagged htidy hholds (unbracketed_normalize_language _) hspace ?_
  split
  · exact hcontent
  · next hsome =>
    have hsame := hkept.resolve_right fun hnil => hsome (List.isEmpty_iff.2 hnil)
    rw [Highlight.highlight_html_eq hplain, Highlight.retied_of_kept hsame, hcode]
    exact .of_flatMap fun _ _ => .inr rfl

/-! ## Reports -/

/-- The question of a report with the highlighter of the library displays the text of the item body if the
code of all its blocks survives. -/
theorem exists_highlighted_question {source : Source} {root body : Element} {expected : List Char}
    (inlineStyles : Bool) (hread : readDocument source = .ok root)
    (hbody : findBody expected root = .ok body)
    (hplain : ∀ call ∈ (render (highlighting inlineStyles) expected root).calls,
      (Highlight.Lexer.ofLanguage call.language).1 = .text)
    (hsurvive : ∀ block ∈ codeBlocks (highlighting inlineStyles) body, block.Survives inlineStyles) :
    ∃ item, (render (highlighting inlineStyles) expected root).result = .ok item ∧
      Entity.decode (stripTags item.question) = shownText body := by
  have htidy := tidy_highlighting inlineStyles
  have hwritten : Displays Written (renderBody (highlighting inlineStyles) body) (shownText body) :=
    (displays_renderBody htidy (namedNodes_of_findBody hread hbody)).mono .inl
  have hmerged := displays_mergeFragments writing_written hwritten
  have hblocks : Displays Written (codeBlock.replace
      (CodeBlock.colored (highlighting inlineStyles) inlineStyles)
      (mergeFragments (renderBody (highlighting inlineStyles) body))) (shownText body) := by
    refine whole_codeBlock.displays_replace writing_written (fun hrun => (codeBlock_finds hrun).1) ?_
      hmerged ?_
    · rintro block shown -
      exact ⟨_, codeEnd, isTag_codeEnd, rfl⟩
    · intro block hblock shown displayed hholds hdisplayed
      have hcall : block.call ∈ (render (highlighting inlineStyles) expected root).calls := by
        rw [calls_highlighting inlineStyles hbody]
        exact List.mem_map_of_mem hblock
      exact (hsurvive block hblock).displays_colored htidy hholds (hplain _ hcall) hdisplayed
  have hresult : (finishHtml (highlighting inlineStyles)
      (renderBody (highlighting inlineStyles) body)).result = .ok (decorateInline _ _) :=
    congrArg (Except.map (decorateInline (highlighting inlineStyles)))
      (result_highlightPieces (highlighting inlineStyles) inlineStyles (codeBlock.pieces
        (mergeFragments (renderBody (highlighting inlineStyles) body))))
  obtain ⟨item, hitem, hquestion⟩ := exists_item_of_finishHtml hbody hresult
  refine ⟨item, hitem, ?_⟩
  rw [hquestion]
  exact decode_stripTags_of_displays writing_written
    (displays_decorateInline writing_written htidy hblocks)

/-- A document with a block of code that ends in a line break and has an empty line. -/
def keptCodeSample : Source := .text <|
  "<i identifier='q'><qti-item-body><qti-pre><qti-code>a &lt; 'b'\n\nc\n</qti-code>".toList ++
    "</qti-pre></qti-item-body></i>".toList

end Assessment.Report
