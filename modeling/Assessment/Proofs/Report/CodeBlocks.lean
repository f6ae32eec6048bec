import Assessment.Proofs.Markup.RawTag
import Assessment.Proofs.Report.Passes

/-!
# Proofs: blocks of code in one piece

`Blocks` is the shape of HTML in which each preformatted block holds either no code or one piece of code
and nothing else. In such HTML there is nothing to join (`Blocks.mergeFragments_eq`), and the blocks of
code that are found are exactly those pieces (`Blocks.findAll_eq`).
-/

namespace Assessment.Report

open Assessment.Text Assessment.Markup

/-- HTML in which each preformatted block holds no code or one piece of it, and the blocks of code from
left to right. -/
inductive Blocks : List Char → List CodeBlock → Prop where
  | nil : Blocks [] []
  | char {c : Char} {html : List Char} {blocks : List CodeBlock} (h1 : c ≠ '<') (h2 : c ≠ '>')
      (h : Blocks html blocks) : Blocks (c :: html) blocks
  /-- Any tag but that of a preformatted block. -/
  | tag {tag html : List Char} {blocks : List CodeBlock} (htag : IsTag tag)
      (hpre : isStart "pre" tag = false) (h : Blocks html blocks) : Blocks (tag ++ html) blocks
  /-- A preformatted block without code. -/
  | plain {opening inside html : List Char} {blocks : List CodeBlock} (hopening : IsTag opening)
      (hpre : isStart "pre" opening) (hinside : MadeOf (isStart "code" · = false) inside)
      (h : Blocks html blocks) : Blocks (opening ++ (inside ++ preEnd ++ html)) blocks
  /-- A preformatted block of code. -/
  | code {opening start content html : List Char} {blocks : List CodeBlock}
      (hopening : IsTag opening) (hpre : isStart "pre" opening) (hstart : IsTag start)
      (hcode : isStart "code" start) (hcontent : Unbracketed content) (h : Blocks html blocks) :
      Blocks (opening ++ (start ++ (content ++ codeEnd) ++ preEnd ++ html))
        (⟨opening, [], start, content⟩ :: blocks)

namespace Blocks

theorem append {html more : List Char} {blocks others : List CodeBlock} (h : Blocks html blocks)
    (hmore : Blocks more others) : Blocks (html ++ more) (blocks ++ others) := by
  induction h with
  | nil => exact hmore
  | char h1 h2 _ ih => exact .char h1 h2 ih
  | tag htag hpre _ ih =>
    rw [List.append_assoc]
    exact .tag htag hpre ih
  | plain hopening hpre hinside _ ih =>
    rw [List.append_assoc, List.append_assoc]
    exact .plain hopening hpre hinside ih
  | code hopening hpre hstart hcode hcontent _ ih =>
    rw [List.append_assoc, List.append_assoc]
    exact .code hopening hpre hstart hcode hcontent ih

theorem of_isTag {tag : List Char} (htag : IsTag tag) (hpre : isStart "pre" tag = false) :
    Blocks tag [] := by
  simpa using Blocks.tag htag hpre .nil

theorem of_unbracketed {s : List Char} (h : Unbracketed s) : Blocks s [] := by
  induction s with
  | nil => exact .nil
  | cons c s ih =>
    obtain ⟨hc, hs⟩ := List.forall_mem_cons.1 h
    exact .char hc.1 hc.2 (ih hs)

end Blocks

/-! ## What is recognised at a tag -/

theorem startTag?_of_start {name : String} {tag : List Char} (hname : '>' ∉ name.toList)
    (htag : IsTag tag) (h : isStart name tag) (s : List Char) :
    RawTag.startTag? name (tag ++ s) = some (tag, s) := by
  rw [startTag?_append hname htag, if_pos h]

theorem startTag?_of_not_start {name : String} {tag : List Char} (hname : '>' ∉ name.toList)
    (htag : IsTag tag) (h : isStart name tag = false) (s : List Char) :
    RawTag.startTag? name (tag ++ s) = none := by
  rw [startTag?_append hname htag, h]
  rfl

theorem preBlock_run_of_start {opening s inside rest : List Char} (hopening : IsTag opening)
    (hpre : isStart "pre" opening) (hcut : cutAt? preEnd s = some (inside, rest)) :
    preBlock.run (opening ++ s) = some (⟨opening, inside⟩, rest) := by
  show preBlock? _ = _
  unfold preBlock?
  rw [startTag?_of_start (by decide) hopening hpre s]
  dsimp only
  rw [hcut]
  rfl

theorem preBlock_run_of_not_start {tag : List Char} (htag : IsTag tag)
    (hpre : isStart "pre" tag = false) (s : List Char) : preBlock.run (tag ++ s) = none := by
  show preBlock? _ = _
  unfold preBlock?
  rw [startTag?_of_not_start (by decide) htag hpre s]

theorem codeStart_run {start : List Char} (hstart : IsTag start) (hcode : isStart "code" start)
    (s : List Char) : codeStart.run (start ++ s) = some (start, s) :=
  startTag?_of_start (by decide) hstart hcode s

theorem codeTag_run (s : List Char) : codeTag.run s = RawTag.eitherTag? "code" s := rfl

theorem codeTag_run_start {start : List Char} (hstart : IsTag start) (hcode : isStart "code" start)
    (s : List Char) : codeTag.run (start ++ s) = some (start, s) := by
  rw [codeTag_run]
  unfold RawTag.eitherTag?
  rw [startTag?_of_start (by decide) hstart hcode s]

theorem codeTag_run_codeEnd (s : List Char) : codeTag.run (codeEnd ++ s) = some (codeEnd, s) := by
  have hinside : Unbracketed ('/' :: "code".toList) := by decide
  have hwritten : codeEnd = '<' :: ('/' :: "code".toList) ++ ['>'] := by decide
  have hself : beginsWord ('/' :: "code".toList) ('/' :: "code".toList) := by decide
  have hend := tag?_isTag (by decide : '>' ∉ '/' :: "code".toList) hinside s
  have hstart : RawTag.startTag? "code" (codeEnd ++ s) = none :=
    startTag?_of_not_start (by decide) isTag_codeEnd (by decide) s
  rw [if_pos hself, ← hwritten] at hend
  rw [codeTag_run]
  unfold RawTag.eitherTag?
  rw [hstart]
  exact hend

/-! ## Joining fragments -/

theorem mergeFragments_cons {c : Char} (hc : c ≠ '<') (s : List Char) :
    mergeFragments (c :: s) = c :: mergeFragments s := by
  have hpieces : preBlock.pieces (c :: s) = [c].map .char ++ preBlock.pieces s :=
    preBlock.pieces_of_not_run (whole_preBlock.starts hc)
  exact Recognizer.replace_of_pieces _ hpieces

theorem mergeFragments_tag_append {tag : List Char} (htag : IsTag tag)
    (hpre : isStart "pre" tag = false) (s : List Char) :
    mergeFragments (tag ++ s) = tag ++ mergeFragments s :=
  Recognizer.replace_of_pieces _ <|
    pieces_tag_append whole_preBlock.starts htag (preBlock_run_of_not_start htag hpre s)

/-- A block without code is left as it is. -/
theorem merged_of_findAll {opening inside : List Char} (h : codeStart.findAll inside = []) :
    PreBlock.merged ⟨opening, inside⟩ = opening ++ inside ++ preEnd := by
  unfold PreBlock.merged Recognizer.find?
  rw [h]
  rfl

/-- One piece of code in a block is left as it is. -/
theorem merged_of_code {opening start content : List Char} (hstart : IsTag start)
    (hcode : isStart "code" start) (hcontent : Unbracketed content) :
    PreBlock.merged ⟨opening, start ++ (content ++ codeEnd)⟩ =
      opening ++ start ++ content ++ codeEnd ++ preEnd := by
  have hfind : codeStart.find? (start ++ (content ++ codeEnd)) = some start := by
    unfold Recognizer.find?
    rw [codeStart.findAll_of_run (codeStart_run hstart hcode _)]
    rfl
  have hcontentPieces : codeTag.pieces (content ++ codeEnd) =
      content.map .char ++ codeTag.pieces codeEnd :=
    codeTag.pieces_append_of_starts whole_codeTag.starts (fun c hc => (hcontent c hc).1) codeEnd
  have hend : codeTag.replace (fun _ => []) codeEnd = [] := by
    have hrun := codeTag_run_codeEnd []
    rw [List.append_nil] at hrun
    rw [Recognizer.replace_of_run _ hrun]
    simp [Recognizer.replace]
  have hstripped : codeTag.replace (fun _ => []) (start ++ (content ++ codeEnd)) = content := by
    rw [Recognizer.replace_of_run _ (codeTag_run_start hstart hcode _), List.nil_append,
      Recognizer.replace_of_pieces _ hcontentPieces, hend, List.append_nil]
  unfold PreBlock.merged
  rw [hfind]
  dsimp only
  rw [hstripped]

/-- Blocks without code are left as they are, wherever the end tag that is found for them stands: the
first part says this of a place outside of a block, the second of a place inside of one. -/
theorem mergeFragments_plain {inside : List Char} (h : MadeOf (isStart "code" · = false) inside)
    (html : List Char) :
    mergeFragments (inside ++ preEnd ++ html) = inside ++ preEnd ++ mergeFragments html ∧
      ∃ before rest, cutAt? preEnd (inside ++ preEnd ++ html) = some (before, rest) ∧
        codeStart.findAll before = [] ∧
        before ++ preEnd ++ mergeFragments rest = inside ++ preEnd ++ mergeFragments html := by
  induction h with
  | nil =>
    refine ⟨mergeFragments_tag_append isTag_preEnd (by decide) html, [], html, ?_, by simp, rfl⟩
    exact cutAt?_of_after? (after?_eq_some_iff.2 rfl)
  | @char c inside h1 h2 _ ih =>
    obtain ⟨hout, before, rest, hcut, hnone, hsame⟩ := ih
    have hc : ∀ d ∈ [c], d ≠ '<' := by simpa using h1
    constructor
    · simpa using (mergeFragments_cons h1 (inside ++ preEnd ++ html)).trans (congrArg (c :: ·) hout)
    · refine ⟨c :: before, rest, ?_, ?_, by simpa using hsame⟩
      · have hpassed := isTag_preEnd.cutAt?_append hc (inside ++ preEnd ++ html)
        rw [hcut] at hpassed
        simpa using hpassed
      · rw [codeStart.findAll_of_not_run (whole_codeStart.starts h1), hnone]
  | @tag tag inside htag hcode _ ih =>
    obtain ⟨hout, before, rest, hcut, hnone, hsame⟩ := ih
    have hpassed : codeStart.findAll (tag ++ before) = [] := by
      have hrun : codeStart.run (tag ++ before) = none :=
        startTag?_of_not_start (by decide) htag hcode before
      rw [Recognizer.findAll_of_pieces (pieces_tag_append whole_codeStart.starts htag hrun), hnone]
    constructor
    · rw [List.append_assoc, List.append_assoc, ← List.append_assoc inside]
      by_cases hpre : isStart "pre" tag
      · have hrun := preBlock_run_of_start htag hpre hcut
        unfold mergeFragments at hsame ⊢
        rw [Recognizer.replace_of_run _ hrun, merged_of_findAll hnone, List.append_assoc,
          List.append_assoc, ← List.append_assoc before, hsame]
        simp
      · rw [mergeFragments_tag_append htag (by simpa using hpre), hout]
        simp
    · rw [List.append_assoc, List.append_assoc, ← List.append_assoc inside]
      by_cases hmark : tag = preEnd
      · refine ⟨[], inside ++ preEnd ++ html, ?_, by simp, ?_⟩
        · exact cutAt?_of_after? (after?_eq_some_iff.2 (by rw [hmark]))
        · rw [hout, hmark]
          simp
      · refine ⟨tag ++ before, rest, ?_, hpassed, ?_⟩
        · rw [isTag_preEnd.cutAt?_tag_append htag hmark, hcut]
          rfl
        · rw [List.append_assoc, List.append_assoc, ← List.append_assoc before, hsame]
          simp

/-- In HTML with its code in one piece already, there is nothing to join. -/
theorem Blocks.mergeFragments_eq {html : List Char} {blocks : List CodeBlock}
    (h : Blocks html blocks) : mergeFragments html = html := by
  induction h with
  | nil => simp [mergeFragments, Recognizer.replace]
  | char h1 _ _ ih => rw [mergeFragments_cons h1, ih]
  | tag htag hpre _ ih => rw [mergeFragments_tag_append htag hpre, ih]
  | @plain opening inside html _ hopening hpre hinside _ ih =>
    obtain ⟨-, before, rest, hcut, hnone, hsame⟩ := mergeFragments_plain hinside html
    have hrun := preBlock_run_of_start hopening hpre hcut
    rw [ih] at hsame
    unfold mergeFragments at hsame ⊢
    rw [Recognizer.replace_of_run _ hrun, merged_of_findAll hnone, List.append_assoc,
      List.append_assoc, ← List.append_assoc before, hsame]
  | @code opening start content html _ hopening hpre hstart hcode hcontent _ ih =>
    have hstartNe : start ≠ preEnd := by
      rintro rfl
      exact absurd hcode (by decide)
    have hinside : MadeOf (· ≠ preEnd) (start ++ (content ++ codeEnd)) :=
      .tag hstart hstartNe ((MadeOf.of_unbracketed hcontent).append
        (.of_isTag isTag_codeEnd (by decide)))
    have hrun := preBlock_run_of_start hopening hpre (hinside.cutAt?_append isTag_preEnd html)
    unfold mergeFragments at ih ⊢
    rw [Recognizer.replace_of_run _ hrun, merged_of_code hstart hcode hcontent, ih]
    simp

/-! ## Finding blocks of code -/

/-- Code does not come next where no tag is one of code. -/
theorem startTag?_of_madeOf {inside : List Char} (h : MadeOf (isStart "code" · = false) inside)
    (html : List Char) :
    RawTag.startTag? "code" ((inside ++ preEnd ++ html).dropWhile isBlank) = none := by
  -- The first character that is no white space belongs to the text, or begins the next tag.
  have htagged : ∀ {tag : List Char}, IsTag tag → isStart "code" tag = false → ∀ rest : List Char,
      RawTag.startTag? "code" ((tag ++ rest).dropWhile isBlank) = none := by
    intro tag htag hcode rest
    have hsolid : (tag ++ rest).dropWhile isBlank = tag ++ rest := by
      obtain ⟨tail, rfl, -⟩ := htag.exists_tail
      exact List.dropWhile_cons_of_neg (by decide)
    rw [hsolid, startTag?_of_not_start (by decide) htag hcode rest]
  induction h with
  | nil => exact htagged isTag_preEnd (by decide) html
  | @char c inside h1 _ _ ih =>
    rw [List.cons_append, List.cons_append]
    by_cases hc : isBlank c
    · rw [List.dropWhile_cons_of_pos hc]
      exact ih
    · rw [List.dropWhile_cons_of_neg hc, startTag?_cons h1]
  | tag htag hcode _ _ =>
    rw [List.append_assoc, List.append_assoc]
    exact htagged htag hcode _

theorem codeBlock_run_of_not_start {tag : List Char} (htag : IsTag tag)
    (hpre : isStart "pre" tag = false) (s : List Char) : codeBlock.run (tag ++ s) = none := by
  show codeBlock? _ = _
  unfold codeBlock?
  rw [startTag?_of_not_start (by decide) htag hpre s]

theorem codeBlock_run_of_plain {opening inside : List Char} (hopening : IsTag opening)
    (hinside : MadeOf (isStart "code" · = false) inside) (html : List Char) :
    codeBlock.run (opening ++ (inside ++ preEnd ++ html)) = none := by
  by_cases hpre : isStart "pre" opening
  · show codeBlock? _ = _
    unfold codeBlock?
    rw [startTag?_of_start (by decide) hopening hpre]
    dsimp only
    rw [startTag?_of_madeOf hinside html]
  · exact codeBlock_run_of_not_start hopening (by simpa using hpre) _

theorem codeBlock_run_of_code {opening start content : List Char} (hopening : IsTag opening)
    (hpre : isStart "pre" opening) (hstart : IsTag start) (hcode : isStart "code" start)
    (hcontent : Unbracketed content) (s : List Char) :
    codeBlock.run (opening ++ (start ++ (content ++ codeEnd) ++ s)) =
      some (⟨opening, [], start, content⟩, s) := by
  obtain ⟨tail, htail, -⟩ := hstart.exists_tail
  have hsolid : (start ++ (content ++ codeEnd) ++ s).dropWhile isBlank =
      start ++ (content ++ codeEnd ++ s) := by
    rw [List.append_assoc, htail]
    exact List.dropWhile_cons_of_neg (by decide)
  have hspace : (start ++ (content ++ codeEnd) ++ s).takeWhile isBlank = [] := by
    rw [htail]
    exact List.takeWhile_cons_of_neg (by decide)
  have hcut : cutAt? codeEnd (content ++ codeEnd ++ s) = some (content, s) :=
    (MadeOf.of_unbracketed hcontent).cutAt?_append isTag_codeEnd s
  show codeBlock? _ = _
  unfold codeBlock?
  rw [startTag?_of_start (by decide) hopening hpre]
  dsimp only
  rw [hsolid, startTag?_of_start (by decide) hstart hcode]
  dsimp only
  rw [hcut, hspace]
  rfl

/-- No block of code begins in a preformatted block without code. -/
theorem findAll_plain {inside : List Char} (h : MadeOf (isStart "code" · = false) inside)
    (html : List Char) : codeBlock.findAll (inside ++ preEnd ++ html) = codeBlock.findAll html := by
  induction h with
  | nil =>
    have hrun : codeBlock.run (preEnd ++ html) = none :=
      codeBlock_run_of_not_start isTag_preEnd (by decide) html
    exact Recognizer.findAll_of_pieces (pieces_tag_append whole_codeBlock.starts isTag_preEnd hrun)
  | @char c inside h1 _ _ ih =>
    rw [List.cons_append, List.cons_append,
      codeBlock.findAll_of_not_run (whole_codeBlock.starts h1), ih]
  | @tag tag inside htag _ hinside ih =>
    have hrun := codeBlock_run_of_plain htag hinside html
    rw [List.append_assoc, List.append_assoc, ← List.append_assoc inside,
      Recognizer.findAll_of_pieces (pieces_tag_append whole_codeBlock.starts htag hrun), ih]

/-- The blocks of code that are found are those that the HTML is made of. -/
theorem Blocks.findAll_eq {html : List Char} {blocks : List CodeBlock} (h : Blocks html blocks) :
    codeBlock.findAll html = blocks := by
  induction h with
  | nil => exact codeBlock.findAll_nil
  | char h1 _ _ ih => rw [codeBlock.findAll_of_not_run (whole_codeBlock.starts h1), ih]
  | @tag tag html _ htag hpre _ ih =>
    have hrun := codeBlock_run_of_not_start htag hpre html
    rw [Recognizer.findAll_of_pieces (pieces_tag_append whole_codeBlock.starts htag hrun), ih]
  | @plain opening inside html _ hopening hpre hinside _ ih =>
    have hrun := codeBlock_run_of_plain hopening hinside html
    rw [Recognizer.findAll_of_pieces (pieces_tag_append whole_codeBlock.starts hopening hrun),
      findAll_plain hinside, ih]
  | @code opening start content html _ hopening hpre hstart hcode hcontent _ ih =>
    have hrun := codeBlock_run_of_code hopening hpre hstart hcode hcontent (preEnd ++ html)
    have hend : codeBlock.run (preEnd ++ html) = none :=
      codeBlock_run_of_not_start isTag_preEnd (by decide) html
    rw [List.append_assoc _ preEnd, codeBlock.findAll_of_run hrun,
      Recognizer.findAll_of_pieces (pieces_tag_append whole_codeBlock.starts isTag_preEnd hend), ih]

end Assessment.Report
