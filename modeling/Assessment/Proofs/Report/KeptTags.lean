import Assessment.Proofs.Markup.CountTags
import Assessment.Proofs.Report.CodeBlocks
import Assessment.Proofs.Report.PlainText

/-!
# Proofs: tags that the passes keep

The passes over the code of a report handle the tags of preformatted blocks and of code, which are told by
the character after the opening bracket. Every other tag is `Foreign` to them: it stands as often in the
HTML after a pass as before. Only a highlighter takes such a tag away, because it is given the code of a
block as text (`Foreign.loses_colored`).
-/

namespace Assessment.Report

open Assessment.Text Assessment.Markup

/-- The text begins with a bracket and the given character. -/
def Opens (c : Char) (s : List Char) : Prop := ∃ rest, s = '<' :: c :: rest

/-- The tag begins like the start tag of a preformatted block or of code, or like an end tag. -/
def Handled (tag : List Char) : Prop := ∃ c, Opens c tag ∧ c ∈ ['p', 'c', '/']

/-- The passes do not handle tags that begin like this one. -/
def Foreign (mark : List Char) : Prop := ∃ c, Opens c mark ∧ c ∉ ['p', 'c', '/']

theorem Opens.eq {c d : Char} {tag : List Char} (h : Opens c tag) (h' : Opens d tag) : c = d := by
  obtain ⟨rest, rfl⟩ := h
  obtain ⟨rest', heq⟩ := h'
  exact (List.cons.inj (List.cons.inj heq).2).1

theorem Foreign.ne {mark tag : List Char} (hmark : Foreign mark) (h : Handled tag) : tag ≠ mark := by
  rintro rfl
  obtain ⟨c, hc, hout⟩ := hmark
  obtain ⟨d, hd, hin⟩ := h
  exact hout (hc.eq hd ▸ hin)

theorem Foreign.counts {mark tag : List Char} (hmark : Foreign mark) (h : Handled tag)
    (htag : IsTag tag) : Counts mark tag 0 := .of_ne htag (hmark.ne h)

theorem Opens.handled {c : Char} {tag : List Char} (h : Opens c tag) (hc : c ∈ ['p', 'c', '/']) :
    Handled tag := ⟨c, h, hc⟩

/-! ## What the passes find -/

theorem opens_of_startTag? {name : String} {c : Char} {s tag rest : List Char} {letters : List Char}
    (hname : name.toList = c :: letters) (h : RawTag.startTag? name s = some (tag, rest)) :
    Opens c tag := by
  obtain ⟨inside, rfl, -⟩ := RawTag.exists_inside h
  rw [hname]
  exact ⟨_, rfl⟩

theorem codeStart_finds {s start rest : List Char} (h : codeStart.run s = some (start, rest)) :
    s = start ++ rest ∧ Opens 'c' start :=
  ⟨RawTag.tag?_append h, opens_of_startTag? rfl h⟩

theorem codeTag_finds {s tag rest : List Char} (h : codeTag.run s = some (tag, rest)) :
    s = tag ++ rest ∧ Handled tag := by
  rw [codeTag_run] at h
  unfold RawTag.eitherTag? at h
  split at h
  · next hstart =>
    cases h
    exact ⟨RawTag.tag?_append hstart, 'c', opens_of_startTag? rfl hstart, by decide⟩
  · obtain ⟨inside, rfl, -⟩ := RawTag.exists_inside h
    exact ⟨RawTag.tag?_append h, '/', ⟨_, rfl⟩, by decide⟩

/-- A preformatted block as it was found. -/
def PreBlock.source (block : PreBlock) : List Char := block.opening ++ (block.inside ++ preEnd)

theorem preBlock_finds {s rest : List Char} {block : PreBlock}
    (h : preBlock.run s = some (block, rest)) :
    s = block.source ++ rest ∧ Opens 'p' block.opening := by
  obtain ⟨t, hopening, hcut⟩ := exists_of_preBlock? h
  refine ⟨?_, opens_of_startTag? rfl hopening⟩
  rw [RawTag.tag?_append hopening, cutAt?_append hcut]
  simp [PreBlock.source]

/-- A block of code as it was found. -/
def CodeBlock.source (block : CodeBlock) : List Char :=
  block.preStart ++ block.space ++ block.codeStart ++ block.content ++ codeEnd

/-- The start tags of a block of code begin like those of a preformatted block and of code. -/
structure CodeBlock.Opened (block : CodeBlock) : Prop where
  /-- The start tag of the block. -/
  preStart : Opens 'p' block.preStart
  /-- The start tag of the code. -/
  codeStart : Opens 'c' block.codeStart

theorem codeBlock_finds {s rest : List Char} {block : CodeBlock}
    (h : codeBlock.run s = some (block, rest)) : s = block.source ++ rest ∧ block.Opened := by
  obtain ⟨t, u, hpre, hspace, hstart, hcut⟩ := exists_of_codeBlock? h
  refine ⟨?_, opens_of_startTag? rfl hpre, opens_of_startTag? rfl hstart⟩
  have hu : u = block.content ++ codeEnd ++ rest := cutAt?_append hcut
  have ht : t = block.space ++ (block.codeStart ++ u) := by
    rw [← hspace, ← RawTag.tag?_append hstart, List.takeWhile_append_dropWhile]
  calc s = block.preStart ++ t := RawTag.tag?_append hpre
    _ = block.preStart ++ (block.space ++ (block.codeStart ++ (block.content ++ codeEnd ++ rest))) := by
      rw [← hu, ← ht]
    _ = _ := by simp [CodeBlock.source]

/-! ## Tags that are edited -/

/-- Editing a tag leaves its first letter. -/
theorem opens_setAttribute {c : Char} (hblank : isBlank c = false) (hc : StartTag.isTagNameChar c)
    {tag : List Char} (h : Opens c tag) (name value : List Char) :
    Opens c (StartTag.setAttribute name value tag) := by
  obtain ⟨rest, rfl⟩ := h
  -- What is edited starts at white space, so not at the first two characters.
  have hsolid : ∀ {d : Char} {s : List Char}, isBlank d = false →
      (StartTag.existing name).run (d :: s) = none := fun hd => if_neg (ne_true_of_eq_false hd)
  have hfirst : (StartTag.existing name).run ('<' :: c :: rest) = none := hsolid (by decide)
  have hsecond : (StartTag.existing name).run (c :: rest) = none := hsolid hblank
  unfold StartTag.setAttribute
  split
  · next edited hedited =>
    rw [Recognizer.replaceFirst?, hfirst, Recognizer.replaceFirst?, hsecond] at hedited
    obtain ⟨inner, hinner, rfl⟩ := Option.map_eq_some_iff.1 hedited
    obtain ⟨deeper, -, rfl⟩ := Option.map_eq_some_iff.1 hinner
    exact ⟨deeper, rfl⟩
  · show Opens c (if ((c :: rest).takeWhile StartTag.isTagNameChar).isEmpty then '<' :: c :: rest
      else '<' :: (c :: rest).takeWhile StartTag.isTagNameChar ++ StartTag.written name value ++
        (c :: rest).dropWhile StartTag.isTagNameChar)
    rw [List.takeWhile_cons_of_pos hc]
    exact ⟨_, rfl⟩

theorem opens_taggedStart {c : Char} (hblank : isBlank c = false) (hc : StartTag.isTagNameChar c)
    {start : List Char} (h : Opens c start) (options : Options) (classes language : List Char) :
    Opens c (taggedStart options classes language start) :=
  opens_setAttribute hblank hc (opens_setAttribute hblank hc h _ _) _ _

theorem opens_inlineStart {start : List Char} (h : Opens 'c' start) (options : Options) :
    Opens 'c' (inlineStart options start) := by
  have hmarked : Opens 'c' (StartTag.addClasses start (words options.inlineCodeClass)) :=
    opens_setAttribute (by decide) (by decide) h _ _
  unfold inlineStart
  split
  · exact h
  · split
    · exact opens_setAttribute (by decide) (by decide) hmarked _ _
    · exact hmarked

/-! ## Passes that keep foreign tags -/

/-- The languages that the highlighter of the library names can be written into tags. -/
theorem unbracketed_normalize_language (lexer : Highlight.Lexer) :
    Unbracketed (Language.normalize lexer.language) := by
  refine Language.unbracketed_normalize ?_
  cases lexer with
  | text => decide
  | output => decide

/-- The block as the highlighter of the library leaves it. -/
def CodeBlock.colored (options : Options) (inlineStyles : Bool) (block : CodeBlock) : List Char :=
  let highlighted := Highlight.highlight inlineStyles block.code block.declared
  block.highlighted options (some highlighted.language) highlighted.html

namespace Foreign

variable {mark : List Char}

theorem counts_preEnd (hmark : Foreign mark) : Counts mark preEnd 0 :=
  hmark.counts ⟨'/', ⟨_, rfl⟩, by decide⟩ isTag_preEnd

theorem counts_codeEnd (hmark : Foreign mark) : Counts mark codeEnd 0 :=
  hmark.counts ⟨'/', ⟨_, rfl⟩, by decide⟩ isTag_codeEnd

/-- Deleting the tags of code leaves foreign tags. -/
theorem counts_withoutCodeTags (hmark : Foreign mark) {html : List Char} {n : Nat}
    (h : Counts mark html n) : Counts mark (codeTag.replace (fun _ => []) html) n := by
  have hwhole := whole_codeTag.and fun hrun => (codeTag_finds hrun).2
  refine hwhole.counts_replace_of_keeps (fun hrun => (codeTag_finds hrun).1) ?_ h
  rintro tag shown ⟨⟨htag, -⟩, hhandled⟩
  exact ⟨0, .nil, hmark.counts hhandled htag⟩

theorem loses_merged (hmark : Foreign mark) {block : PreBlock} {shown : List Char}
    (h : block.Holds shown) (hopens : Opens 'p' block.opening) :
    Loses mark PreBlock.source PreBlock.merged (fun _ => 0) block := by
  obtain ⟨hopening, hinside⟩ := h
  have hfirst := hmark.counts (hopens.handled (by decide)) hopening
  have hcontent := @Counts.of_shows mark _ _ hinside
  have hsource := Counts.between hfirst hmark.counts_preEnd hcontent
  refine ⟨countTag mark block.inside, ?_, hsource⟩
  unfold PreBlock.merged
  split
  · next start hfind =>
    have hwhole := whole_codeStart.and fun hrun => (codeStart_finds hrun).2
    obtain ⟨-, ⟨hstart, -⟩, hopensCode⟩ := hinside.of_mem_findAll hwhole (List.mem_of_head? hfind)
    have hcode := Counts.between (hmark.counts (hopensCode.handled (by decide)) hstart)
      hmark.counts_codeEnd (hmark.counts_withoutCodeTags hcontent)
    simpa using Counts.between hfirst hmark.counts_preEnd hcode
  · rw [List.append_assoc]
    exact hsource

/-- Joining the fragments of code leaves foreign tags. -/
theorem counts_mergeFragments (hmark : Foreign mark) {html : List Char} {n : Nat}
    (h : Counts mark html n) : Counts mark (mergeFragments html) n := by
  have hwhole := whole_preBlock.and fun hrun => (preBlock_finds hrun).2
  exact hwhole.counts_replace_of_keeps (fun hrun => (preBlock_finds hrun).1)
    (fun ⟨hholds, hopens⟩ => hmark.loses_merged hholds hopens) h

/-- Marking other code leaves foreign tags. -/
theorem counts_decorateInline (hmark : Foreign mark) {options : Options} (htidy : options.Tidy)
    {html : List Char} {n : Nat} (h : Counts mark html n) :
    Counts mark (decorateInline options html) n := by
  have hwhole := whole_codeStart.and fun hrun => (codeStart_finds hrun).2
  have hsource : ∀ {s rest start : List Char}, codeStart.run s = some (start, rest) →
      s = id start ++ rest := fun hrun => (codeStart_finds hrun).1
  refine hwhole.counts_replace_of_keeps hsource ?_ h
  rintro start shown ⟨⟨hstart, -⟩, hopens⟩
  have hinline := opens_inlineStart hopens options
  exact ⟨0, hmark.counts (hinline.handled (by decide)) (isTag_inlineStart htidy hstart),
    hmark.counts (hopens.handled (by decide)) hstart⟩

variable {block : CodeBlock} {shown : List Char}

/-- The foreign tags of a block are those in what stands between its tags. -/
theorem counts_block (hmark : Foreign mark) {space preStart codeStart content : List Char} {n : Nat}
    (hspace : Unbracketed space) (hpre : Counts mark preStart 0) (hcode : Counts mark codeStart 0)
    (hcontent : Counts mark content n) :
    Counts mark (preStart ++ space ++ codeStart ++ content ++ codeEnd) n := by
  have hinside := (Counts.of_unbracketed hspace).append (.between hcode hmark.counts_codeEnd hcontent)
  simpa using hpre.append hinside

theorem counts_source (hmark : Foreign mark) (h : block.Holds shown) (hopened : block.Opened) :
    Counts mark block.source (countTag mark block.content) := by
  obtain ⟨code, -, hcontent⟩ := h.content
  have hpre := hmark.counts (hopened.preStart.handled (by decide)) h.preStart
  have hcode := hmark.counts (hopened.codeStart.handled (by decide)) h.codeStart
  exact hmark.counts_block h.space hpre hcode (.of_shows hcontent)

/-- The foreign tags of a marked block are those in what is put inside. -/
theorem counts_tagged (hmark : Foreign mark) {options : Options} (htidy : options.Tidy)
    (h : block.Holds shown) (hopened : block.Opened) {language content : List Char} {n : Nat}
    (hlanguage : Unbracketed language) (hcontent : Counts mark content n) :
    Counts mark (block.tagged options language content) n := by
  have hpre := opens_taggedStart (by decide) (by decide) hopened.preStart options
    options.codeBlockClass language
  have hcode := opens_taggedStart (by decide) (by decide) hopened.codeStart options
    options.codeBlockCodeClass language
  refine hmark.counts_block h.space (hmark.counts (hpre.handled (by decide)) ?_)
    (hmark.counts (hcode.handled (by decide)) ?_) hcontent
  · exact isTag_taggedStart htidy htidy.codeBlockClass hlanguage h.preStart
  · exact isTag_taggedStart htidy htidy.codeBlockCodeClass hlanguage h.codeStart

/-- Without a highlighter, the passes leave foreign tags. -/
theorem counts_decorateBlocks (hmark : Foreign mark) {options : Options} (htidy : options.Tidy)
    (hnone : options.highlighter = none) {html : List Char} {n : Nat} (h : Counts mark html n) :
    ∃ marked, (decorateBlocks options html).result = .ok marked ∧ Counts mark marked n := by
  have hwhole := whole_codeBlock.and fun hrun => (codeBlock_finds hrun).2
  have hblocks : Counts mark
      (codeBlock.replace (fun block => block.tagged options block.language block.content) html) n := by
    refine hwhole.counts_replace_of_keeps (fun hrun => (codeBlock_finds hrun).1) ?_ h
    rintro block shown ⟨hholds, hopened⟩
    obtain ⟨code, -, hcode⟩ := hholds.content
    exact ⟨_, hmark.counts_tagged htidy hholds hopened hholds.unbracketed_language
      (.of_shows hcode), hmark.counts_source hholds hopened⟩
  refine ⟨_, ?_, hblocks⟩
  unfold decorateBlocks
  rw [hnone]

/-- A block loses the foreign tags that its code holds, if something comes out of the highlighter. -/
theorem loses_colored (hmark : Foreign mark) {options : Options} (htidy : options.Tidy)
    (h : block.Holds shown) (hopened : block.Opened) (inlineStyles : Bool)
    (hhtml : Counts mark (Highlight.highlight inlineStyles block.code block.declared).html 0) :
    Loses mark CodeBlock.source (CodeBlock.colored options inlineStyles)
      (fun block =>
        if (Highlight.highlight inlineStyles block.code block.declared).html.isEmpty then 0
        else countTag mark block.content) block := by
  have hsource := hmark.counts_source h hopened
  obtain ⟨code, -, hcode⟩ := h.content
  unfold Loses CodeBlock.colored CodeBlock.highlighted
  dsimp only
  split
  · exact ⟨_, hmark.counts_tagged htidy h hopened (unbracketed_normalize_language _) (.of_shows hcode),
      hsource⟩
  · refine ⟨0, hmark.counts_tagged htidy h hopened (unbracketed_normalize_language _) hhtml, ?_⟩
    rwa [Nat.zero_add]

end Foreign

/-- The highlighter of the library highlights every block. -/
theorem result_highlightPieces (options : Options) (inlineStyles : Bool)
    (pieces : List (Piece CodeBlock)) :
    (highlightPieces options (Highlight.highlighter inlineStyles) pieces).result =
      .ok (pieces.flatMap (Piece.write (CodeBlock.colored options inlineStyles))) := by
  induction pieces with
  | nil => rfl
  | cons piece pieces ih =>
    cases piece with
    | char c =>
      rw [highlightPieces]
      dsimp only [Outcome.map]
      rw [ih]
      rfl
    | found block =>
      rw [highlightPieces]
      dsimp only
      rw [Highlight.read_highlighter]
      dsimp only [Outcome.map, Outcome.after]
      rw [ih]
      rfl

end Assessment.Report
