import Assessment.Proofs.Markup.Tokens
import Assessment.Proofs.Report.Clozes

/-!
# Proofs: the passes on tokens

What the passes over code do to HTML, they do to its tokens: joining rewrites preformatted blocks,
marking blocks rewrites blocks of code, and marking other code edits start tags of code one by one.
-/

namespace Assessment.Report

open Assessment.Text Assessment.Markup

/-! ## Tags of code -/

/-- The tag is a start tag or an end tag of code, as a search takes it. -/
def isCodeTag (tag : List Char) : Bool := isStart "code" tag || isStart "/code" tag

theorem search_codeStart : TagSearch codeStart (isStart "code") where
  starts h := startTag?_cons h _
  run h s := startTag?_append (by decide) h s

theorem search_codeTag : TagSearch codeTag isCodeTag where
  starts h := whole_codeTag.starts h
  run {tag} h s := by
    have hstart := @startTag?_append "code" _ (by decide) h s
    have hend := @startTag?_append "/code" _ (by decide) h s
    rw [codeTag_run]
    unfold RawTag.eitherTag? isCodeTag
    rw [hstart]
    by_cases hcode : isStart "code" tag
    · rw [if_pos hcode, hcode]
      rfl
    · rw [if_neg hcode, eq_false_of_ne_true hcode, Bool.false_or]
      exact hend

/-- A tag is a start tag of one name only, if the names begin with different characters. -/
theorem isStart_of_isStart {name other : String} {c d : Char} {s t tag : List Char}
    (hname : name.toList = c :: s) (hother : other.toList = d :: t) (hne : c ≠ d)
    (hbracket : '>' ∉ name.toList ∧ '>' ∉ other.toList) (htag : IsTag tag)
    (h : isStart name tag = true) : isStart other tag = false := by
  obtain ⟨hinside⟩ := htag
  rename_i inside
  rw [isStart_eq hbracket.1 hinside, hname] at h
  rw [isStart_eq hbracket.2 hinside, hother]
  unfold beginsWord at h ⊢
  cases inside with
  | nil => cases h
  | cons e inside =>
    by_cases he : d = e
    · have hnone : after? (c :: s) (e :: inside) = none := if_neg (he ▸ hne)
      rw [hnone] at h
      cases h
    · have hnone : after? (d :: t) (e :: inside) = none := if_neg he
      rw [hnone]

theorem isStart_code_of_pre {tag : List Char} (htag : IsTag tag) (h : isStart "pre" tag = true) :
    isStart "code" tag = false :=
  isStart_of_isStart rfl rfl (by decide : 'p' ≠ 'c') (by decide) htag h

theorem isStart_pre_of_code {tag : List Char} (htag : IsTag tag) (h : isStart "code" tag = true) :
    isStart "pre" tag = false :=
  isStart_of_isStart rfl rfl (by decide : 'c' ≠ 'p') (by decide) htag h

/-- The start tag of a preformatted block is no tag of code. -/
theorem isCodeTag_of_pre {tag : List Char} (htag : IsTag tag) (h : isStart "pre" tag = true) :
    isCodeTag tag = false := by
  have hend : isStart "/code" tag = false :=
    isStart_of_isStart rfl rfl (by decide : 'p' ≠ '/') (by decide) htag h
  rw [isCodeTag, isStart_code_of_pre htag h, hend, Bool.or_false]

/-! ## Joining fragments -/

/-- The first start tag of code among some tokens. -/
def firstCode? (tokens : List Token) : Option (List Char) :=
  ((tokens.filterMap Piece.found?).filter (isStart "code")).head?

/-- A preformatted block with its code in one piece. -/
def mergedTokens (opening : List Char) (inside : List Token) : List Token :=
  match firstCode? inside with
  | some start =>
    .found opening :: .found start ::
      (inside.filter (TagSearch.isOther isCodeTag) ++ [.found codeEnd, .found preEnd])
  | none => .found opening :: (inside ++ [.found preEnd])

/-- The preformatted block that the tokens start with, with its code in one piece, and the rest. -/
def mergeFirst? : List Token → Option (List Token × List Token)
  | .found tag :: tokens =>
    if isStart "pre" tag then
      (cutAtTag? preEnd tokens).map fun (inside, rest) => (mergedTokens tag inside, rest)
    else none
  | _ => none

/-- A preformatted block is merged where the tokens are a start tag, an end tag and what is between. -/
theorem mergeFirst?_eq_some_iff {tokens out rest : List Token} :
    mergeFirst? tokens = some (out, rest) ↔
      ∃ tag inside, tokens = .found tag :: (inside ++ .found preEnd :: rest) ∧ isStart "pre" tag ∧
        .found preEnd ∉ inside ∧ out = mergedTokens tag inside := by
  constructor
  · intro h
    unfold mergeFirst? at h
    split at h
    · next tag tokens =>
      split at h
      · next hpre =>
        obtain ⟨⟨inside, r⟩, hcut, hp⟩ := Option.map_eq_some_iff.1 h
        cases hp
        obtain ⟨rfl, hnot⟩ := cutAtTag?_eq_some_iff.1 hcut
        exact ⟨tag, inside, rfl, hpre, hnot, rfl⟩
      · cases h
    · cases h
  · rintro ⟨tag, inside, rfl, hpre, hnot, rfl⟩
    rw [mergeFirst?, if_pos hpre, cutAtTag?_eq_some_iff.2 ⟨rfl, hnot⟩]
    rfl

/-- Joins the code of preformatted blocks. -/
def merger : Rewriter where
  run := mergeFirst?
  exists_first {tokens out rest} h := by
    obtain ⟨tag, inside, rfl, -, -, -⟩ := mergeFirst?_eq_some_iff.1 h
    exact ⟨.found tag :: (inside ++ [.found preEnd]), List.cons_ne_nil _ _, by simp⟩

/-- A preformatted block is joined up to the first end tag. -/
theorem merger_block {opening : List Char} {inside : List Token} (h : isStart "pre" opening = true)
    (hnot : .found preEnd ∉ inside) (rest : List Token) :
    merger.rewrite (.found opening :: (inside ++ .found preEnd :: rest)) =
      mergedTokens opening inside ++ merger.rewrite rest := by
  have hrun : merger.run (.found opening :: (inside ++ .found preEnd :: rest)) =
      some (mergedTokens opening inside, rest) :=
    mergeFirst?_eq_some_iff.2 ⟨opening, inside, rfl, h, hnot, rfl⟩
  exact Rewriter.rewrite_of_run hrun

theorem merged_writeTokens (opening : List Char) {inside : List Token} (h : Tokens inside) :
    PreBlock.merged ⟨opening, writeTokens inside⟩ = writeTokens (mergedTokens opening inside) := by
  have hfirst : codeStart.find? (writeTokens inside) = firstCode? inside :=
    congrArg List.head? (search_codeStart.findAll_writeTokens h)
  unfold PreBlock.merged mergedTokens
  rw [hfirst]
  cases firstCode? inside with
  | none => simp
  | some start =>
    dsimp only
    rw [search_codeTag.delete_writeTokens h]
    simp

/-- Where no preformatted block is found among the tokens, none is found in the text. -/
theorem preBlock_run_of_none {t : Token} {tokens : List Token} (h : Tokens (t :: tokens))
    (hnone : mergeFirst? (t :: tokens) = none) : preBlock.run (writeTokens (t :: tokens)) = none := by
  cases t with
  | char c => exact whole_preBlock.starts (h _ List.mem_cons_self).1
  | found tag =>
    obtain ⟨htag, hrest⟩ := List.forall_mem_cons.1 h
    rw [mergeFirst?] at hnone
    by_cases hpre : isStart "pre" tag
    · rw [if_pos hpre, Option.map_eq_none_iff] at hnone
      show preBlock? (tag ++ writeTokens tokens) = none
      unfold preBlock?
      rw [startTag?_of_start (by decide) htag hpre]
      dsimp only
      rw [cutAt?_writeTokens isTag_preEnd hrest, hnone]
      rfl
    · exact preBlock_run_of_not_start htag (eq_false_of_ne_true hpre) _

/-- The preformatted block that is found among the tokens is found in the text. -/
theorem preBlock_run_of_block {tag : List Char} {inside rest : List Token}
    (h : Tokens (.found tag :: (inside ++ .found preEnd :: rest))) (hpre : isStart "pre" tag)
    (hnot : .found preEnd ∉ inside) :
    preBlock.run (writeTokens (.found tag :: (inside ++ .found preEnd :: rest))) =
      some (⟨tag, writeTokens inside⟩, writeTokens rest) := by
  obtain ⟨htag, hall⟩ := List.forall_mem_cons.1 h
  have hcut : cutAt? preEnd (writeTokens (inside ++ .found preEnd :: rest)) =
      some (writeTokens inside, writeTokens rest) := by
    rw [cutAt?_writeTokens isTag_preEnd hall, cutAtTag?_eq_some_iff.2 ⟨rfl, hnot⟩]
    rfl
  exact preBlock_run_of_start htag hpre hcut

/-- Joining the fragments of code joins them among the tokens. -/
theorem mergeFragments_writeTokens {tokens : List Token} (h : Tokens tokens) :
    mergeFragments (writeTokens tokens) = writeTokens (merger.rewrite tokens) := by
  refine merger.replace_writeTokens whole_preBlock.starts preBlock_run_of_none ?_ h
  intro tokens out rest htokens hrun
  obtain ⟨tag, inside, rfl, hpre, hnot, rfl⟩ := mergeFirst?_eq_some_iff.1 hrun
  have hinside := (Tokens.of_append (List.forall_mem_cons.1 htokens).2).1
  exact ⟨_, preBlock_run_of_block htokens hpre hnot, merged_writeTokens tag hinside⟩

/-! ## Blocks of code -/

/-- The token is white space. -/
def isBlankToken : Token → Bool
  | .char c => isBlank c
  | .found _ => false

/-- A block of code among tokens. -/
@[ext]
structure TokenBlock where
  /-- The start tag of the preformatted block. -/
  preStart : List Char
  /-- The white space between the two start tags. -/
  space : List Token
  /-- The start tag of the code. -/
  codeStart : List Char
  /-- The tokens up to the next end tag of code. -/
  content : List Token

namespace TokenBlock

/-- The tokens of the block. -/
def source (block : TokenBlock) : List Token :=
  .found block.preStart :: (block.space ++ .found block.codeStart ::
    (block.content ++ [.found codeEnd]))

/-- The block is one that is found. -/
structure Proper (block : TokenBlock) : Prop where
  /-- It begins with the start tag of a preformatted block. -/
  preStart : isStart "pre" block.preStart
  /-- Nothing but white space follows that tag. -/
  space : ∀ t ∈ block.space, isBlankToken t
  /-- Then code begins. -/
  codeStart : isStart "code" block.codeStart
  /-- The code goes on to the first end tag of code. -/
  content : .found codeEnd ∉ block.content

/-- The tokens of the block with both start tags marked. -/
def marked (options : Options) (block : TokenBlock) : List Token :=
  let language := languageOf block.codeStart
  .found (taggedStart options options.codeBlockClass language block.preStart) ::
    (block.space ++
      .found (taggedStart options options.codeBlockCodeClass language block.codeStart) ::
        (block.content ++ [.found codeEnd]))

end TokenBlock

/-- The block of code that the tokens start with, and the rest. -/
def tokenBlock? : List Token → Option (TokenBlock × List Token)
  | .found tag :: tokens =>
    if isStart "pre" tag then
      match tokens.dropWhile isBlankToken with
      | .found start :: inside =>
        if isStart "code" start then
          (cutAtTag? codeEnd inside).map fun (content, rest) =>
            (⟨tag, tokens.takeWhile isBlankToken, start, content⟩, rest)
        else none
      | _ => none
    else none
  | _ => none

/-- A block of code is found where the tokens are those of one. -/
theorem tokenBlock?_eq_some_iff {tokens rest : List Token} {block : TokenBlock} :
    tokenBlock? tokens = some (block, rest) ↔ tokens = block.source ++ rest ∧ block.Proper := by
  constructor
  · intro h
    unfold tokenBlock? at h
    split at h
    · next tag tokens =>
      split at h
      · next hpre =>
        split at h
        · next start inside hdrop =>
          split at h
          · next hcode =>
            obtain ⟨⟨content, r⟩, hcut, hp⟩ := Option.map_eq_some_iff.1 h
            cases hp
            obtain ⟨rfl, hnot⟩ := cutAtTag?_eq_some_iff.1 hcut
            have hspan : tokens = tokens.takeWhile isBlankToken ++ .found start ::
                (content ++ .found codeEnd :: rest) := by
              rw [← hdrop, List.takeWhile_append_dropWhile]
            refine ⟨?_, hpre, fun t ht => List.mem_takeWhile_imp ht, hcode, hnot⟩
            simpa [TokenBlock.source] using congrArg (Piece.found tag :: ·) hspan
          · cases h
        · cases h
      · cases h
    · cases h
  · rintro ⟨rfl, hpre, hspace, hcode, hnot⟩
    have hsolid : isBlankToken (.found block.codeStart) = false := rfl
    obtain ⟨htake, hdrop⟩ := span_append_cons hspace hsolid (block.content ++ [.found codeEnd] ++ rest)
    have hsource : block.source ++ rest = .found block.preStart :: (block.space ++
        .found block.codeStart :: (block.content ++ [.found codeEnd] ++ rest)) := by
      simp [TokenBlock.source]
    have hcut : cutAtTag? codeEnd (block.content ++ [.found codeEnd] ++ rest) =
        some (block.content, rest) := cutAtTag?_eq_some_iff.2 ⟨by simp, hnot⟩
    rw [hsource, tokenBlock?, if_pos hpre, hdrop, htake]
    dsimp only
    rw [if_pos hcode, hcut]
    rfl

/-- Marks blocks of code. -/
def blockMarker (options : Options) : Rewriter where
  run tokens := (tokenBlock? tokens).map fun (block, rest) => (block.marked options, rest)
  exists_first {tokens out rest} h := by
    obtain ⟨⟨block, r⟩, hblock, hp⟩ := Option.map_eq_some_iff.1 h
    cases hp
    obtain ⟨rfl, -⟩ := tokenBlock?_eq_some_iff.1 hblock
    exact ⟨block.source, List.cons_ne_nil _ _, rfl⟩

/-- White space in the text is white space among the tokens. -/
theorem span_writeTokens {tokens : List Token} (h : Tokens tokens) :
    (writeTokens tokens).dropWhile isBlank = writeTokens (tokens.dropWhile isBlankToken) ∧
      (writeTokens tokens).takeWhile isBlank = writeTokens (tokens.takeWhile isBlankToken) := by
  induction tokens with
  | nil => exact ⟨rfl, rfl⟩
  | cons t tokens ih =>
    obtain ⟨ht, htokens⟩ := List.forall_mem_cons.1 h
    obtain ⟨hdrop, htake⟩ := ih htokens
    cases t with
    | char c =>
      rw [writeTokens_char]
      by_cases hc : isBlank c = true
      · have hblank : isBlankToken (.char c) = true := hc
        rw [List.dropWhile_cons_of_pos hc, List.takeWhile_cons_of_pos hc,
          List.dropWhile_cons_of_pos hblank, List.takeWhile_cons_of_pos hblank, hdrop, htake]
        exact ⟨rfl, rfl⟩
      · have hblank : ¬ isBlankToken (.char c) = true := hc
        rw [List.dropWhile_cons_of_neg hc, List.takeWhile_cons_of_neg hc,
          List.dropWhile_cons_of_neg hblank, List.takeWhile_cons_of_neg hblank]
        exact ⟨rfl, rfl⟩
    | found tag =>
      obtain ⟨tail, rfl, -⟩ := IsTag.exists_tail ht
      have hblank : ¬ isBlankToken (.found ('<' :: tail)) = true := Bool.false_ne_true
      have hopen : ¬ isBlank '<' = true := by decide
      rw [writeTokens_found, List.cons_append, List.dropWhile_cons_of_neg hopen,
        List.takeWhile_cons_of_neg hopen, List.dropWhile_cons_of_neg hblank,
        List.takeWhile_cons_of_neg hblank]
      exact ⟨rfl, rfl⟩

theorem tokens_dropWhile {tokens : List Token} (h : Tokens tokens) :
    Tokens (tokens.dropWhile isBlankToken) := fun t ht =>
  h t ((List.dropWhile_sublist isBlankToken).subset ht)

/-- Where no block of code is found among the tokens, none is found in the text. -/
theorem codeBlock_run_of_none {t : Token} {tokens : List Token} (h : Tokens (t :: tokens))
    (hnone : tokenBlock? (t :: tokens) = none) : codeBlock.run (writeTokens (t :: tokens)) = none := by
  cases t with
  | char c => exact whole_codeBlock.starts (h _ List.mem_cons_self).1
  | found tag =>
    obtain ⟨htag, hall⟩ := List.forall_mem_cons.1 h
    by_cases hpre : isStart "pre" tag
    · obtain ⟨hdrop, -⟩ := span_writeTokens hall
      have hrest := tokens_dropWhile hall
      rw [tokenBlock?, if_pos hpre] at hnone
      show codeBlock? (tag ++ writeTokens tokens) = none
      unfold codeBlock?
      rw [startTag?_of_start (by decide) htag hpre]
      dsimp only
      rw [hdrop]
      generalize tokens.dropWhile isBlankToken = after at hrest hnone
      cases after with
      | nil => rfl
      | cons next inside =>
        obtain ⟨hnext, hinside⟩ := List.forall_mem_cons.1 hrest
        cases next with
        | char c => rw [writeTokens_char, startTag?_cons hnext.1]
        | found start =>
          rw [writeTokens_found]
          by_cases hcode : isStart "code" start
          · dsimp only at hnone
            rw [if_pos hcode, Option.map_eq_none_iff] at hnone
            rw [startTag?_of_start (by decide) hnext hcode]
            dsimp only
            rw [cutAt?_writeTokens isTag_codeEnd hinside, hnone]
            rfl
          · rw [startTag?_of_not_start (by decide) hnext (eq_false_of_ne_true hcode)]
    · exact codeBlock_run_of_not_start htag (eq_false_of_ne_true hpre) _

/-- The block of code that is found among the tokens is found in the text. -/
theorem codeBlock_run_of_proper {block : TokenBlock} {rest : List Token}
    (h : Tokens (block.source ++ rest)) (hproper : block.Proper) :
    codeBlock.run (writeTokens (block.source ++ rest)) =
      some (⟨block.preStart, writeTokens block.space, block.codeStart, writeTokens block.content⟩,
        writeTokens rest) := by
  obtain ⟨hpre, hspace, hcode, hnot⟩ := hproper
  have hsource : block.source ++ rest = .found block.preStart :: (block.space ++
      .found block.codeStart :: (block.content ++ .found codeEnd :: rest)) := by
    simp [TokenBlock.source]
  rw [hsource] at h ⊢
  obtain ⟨htag, hall⟩ := List.forall_mem_cons.1 h
  obtain ⟨hstart, hinside⟩ := List.forall_mem_cons.1 (Tokens.of_append hall).2
  have hsolid : isBlankToken (.found block.codeStart) = false := rfl
  obtain ⟨htake, hdrop⟩ := span_append_cons hspace hsolid (block.content ++ .found codeEnd :: rest)
  obtain ⟨hdropText, htakeText⟩ := span_writeTokens hall
  have hcut : cutAt? codeEnd (writeTokens (block.content ++ .found codeEnd :: rest)) =
      some (writeTokens block.content, writeTokens rest) := by
    rw [cutAt?_writeTokens isTag_codeEnd hinside, cutAtTag?_eq_some_iff.2 ⟨rfl, hnot⟩]
    rfl
  rw [hdrop, writeTokens_found] at hdropText
  rw [htake] at htakeText
  show codeBlock? _ = _
  unfold codeBlock?
  rw [writeTokens_found, startTag?_of_start (by decide) htag hpre]
  dsimp only
  rw [hdropText, htakeText, startTag?_of_start (by decide) hstart hcode]
  dsimp only
  rw [hcut]
  rfl

/-- Marking blocks of code marks them among the tokens. -/
theorem markBlocks_writeTokens (options : Options) {tokens : List Token} (h : Tokens tokens) :
    codeBlock.replace (fun block => block.tagged options block.language block.content)
        (writeTokens tokens) =
      writeTokens ((blockMarker options).rewrite tokens) := by
  refine (blockMarker options).replace_writeTokens whole_codeBlock.starts ?_ ?_ h
  · intro t tokens htokens hnone
    exact codeBlock_run_of_none htokens (Option.map_eq_none_iff.1 hnone)
  · intro tokens out rest htokens hrun
    obtain ⟨⟨block, r⟩, hblock, hp⟩ := Option.map_eq_some_iff.1 hrun
    cases hp
    obtain ⟨rfl, hproper⟩ := tokenBlock?_eq_some_iff.1 hblock
    refine ⟨_, codeBlock_run_of_proper htokens hproper, ?_⟩
    have hlanguage : CodeBlock.language ⟨block.preStart, writeTokens block.space, block.codeStart,
        writeTokens block.content⟩ = languageOf block.codeStart := rfl
    simp [CodeBlock.tagged, TokenBlock.marked, hlanguage]

/-! ## Other code -/

/-- The tokens with start tags of code marked that are not marked as code in a block. -/
def markInline (options : Options) (tokens : List Token) : List Token :=
  tokens.map (TagSearch.edit (isStart "code") (inlineStart options))

theorem decorateInline_writeTokens (options : Options) {tokens : List Token} (h : Tokens tokens) :
    decorateInline options (writeTokens tokens) = writeTokens (markInline options tokens) :=
  search_codeStart.replace_writeTokens (inlineStart options) h

/-- The tokens after all three passes. -/
def finishTokens (options : Options) (tokens : List Token) : List Token :=
  markInline options ((blockMarker options).rewrite (merger.rewrite tokens))

/-! ## Tokens stay tokens -/

theorem mem_of_firstCode? {tokens : List Token} {start : List Char} (h : firstCode? tokens = some start) :
    .found start ∈ tokens ∧ isStart "code" start := by
  obtain ⟨hmem, hcode⟩ := List.mem_filter.1 (List.mem_of_head? h)
  exact ⟨Piece.found_mem hmem, hcode⟩

/-- Joining makes no tags but the two end tags. -/
theorem forall_mergedTokens {P : Token → Prop} {tag : List Char} {inside : List Token}
    (htag : P (.found tag)) (hpreEnd : P (.found preEnd)) (hcodeEnd : P (.found codeEnd))
    (hinside : ∀ t ∈ inside, P t) : ∀ t ∈ mergedTokens tag inside, P t := by
  unfold mergedTokens
  split
  · next start hfirst =>
    refine List.forall_mem_cons.2 ⟨htag, List.forall_mem_cons.2
      ⟨hinside _ (mem_of_firstCode? hfirst).1, fun t ht => ?_⟩⟩
    rcases List.mem_append.1 ht with ht | ht
    · exact hinside t (List.mem_filter.1 ht).1
    · rcases List.mem_cons.1 ht with rfl | ht
      · exact hcodeEnd
      · rw [List.mem_singleton.1 ht]
        exact hpreEnd
  · refine List.forall_mem_cons.2 ⟨htag, fun t ht => ?_⟩
    rcases List.mem_append.1 ht with ht | ht
    · exact hinside t ht
    · rw [List.mem_singleton.1 ht]
      exact hpreEnd

/-- What all tokens and the two end tags have is kept by joining. -/
theorem forall_merger {P : Token → Prop} (hpreEnd : P (.found preEnd)) (hcodeEnd : P (.found codeEnd))
    {tokens : List Token} (h : ∀ t ∈ tokens, P t) : ∀ t ∈ merger.rewrite tokens, P t := by
  refine merger.forall_rewrite ?_ h
  intro tokens out rest htokens hrun
  obtain ⟨tag, inside, rfl, -, -, rfl⟩ := mergeFirst?_eq_some_iff.1 hrun
  obtain ⟨htag, hall⟩ := List.forall_mem_cons.1 htokens
  exact forall_mergedTokens htag hpreEnd hcodeEnd fun t ht => hall t (List.mem_append_left _ ht)

/-- What all tokens and the marked tags of blocks have is kept by marking blocks. -/
theorem forall_blockMarker {options : Options} {P : Token → Prop}
    (hmarked : ∀ {block : TokenBlock}, block.Proper → (∀ t ∈ block.source, P t) →
      P (.found (taggedStart options options.codeBlockClass (languageOf block.codeStart)
        block.preStart)) ∧
      P (.found (taggedStart options options.codeBlockCodeClass (languageOf block.codeStart)
        block.codeStart)))
    {tokens : List Token} (h : ∀ t ∈ tokens, P t) : ∀ t ∈ (blockMarker options).rewrite tokens, P t := by
  refine (blockMarker options).forall_rewrite ?_ h
  intro tokens out rest htokens hrun
  obtain ⟨⟨block, r⟩, hblock, hp⟩ := Option.map_eq_some_iff.1 hrun
  cases hp
  obtain ⟨rfl, hproper⟩ := tokenBlock?_eq_some_iff.1 hblock
  have hsource : ∀ t ∈ block.source, P t := fun t ht => htokens t (List.mem_append_left _ ht)
  obtain ⟨hpre, hcode⟩ := hmarked hproper hsource
  obtain ⟨-, hrest⟩ := List.forall_mem_cons.1 hsource
  obtain ⟨hspace, hinside⟩ := List.forall_mem_append.1 hrest
  obtain ⟨-, hcontent⟩ := List.forall_mem_cons.1 hinside
  exact List.forall_mem_cons.2 ⟨hpre, List.forall_mem_append.2 ⟨hspace,
    List.forall_mem_cons.2 ⟨hcode, hcontent⟩⟩⟩

theorem tokens_merger {tokens : List Token} (h : Tokens tokens) : Tokens (merger.rewrite tokens) :=
  forall_merger isTag_preEnd isTag_codeEnd h

theorem tokens_blockMarker {options : Options} (htidy : options.Tidy) {tokens : List Token}
    (h : Tokens tokens) : Tokens ((blockMarker options).rewrite tokens) := by
  refine forall_blockMarker ?_ h
  intro block hproper hsource
  obtain ⟨hpre, hrest⟩ := List.forall_mem_cons.1 hsource
  obtain ⟨-, hinside⟩ := List.forall_mem_append.1 hrest
  obtain ⟨hcode, -⟩ := List.forall_mem_cons.1 hinside
  have hlanguage := unbracketed_languageOf hcode
  exact ⟨isTag_taggedStart htidy htidy.codeBlockClass hlanguage hpre,
    isTag_taggedStart htidy htidy.codeBlockCodeClass hlanguage hcode⟩

theorem tokens_markInline {options : Options} (htidy : options.Tidy) {tokens : List Token}
    (h : Tokens tokens) : Tokens (markInline options tokens) := by
  intro t ht
  obtain ⟨source, hsource, rfl⟩ := List.mem_map.1 ht
  have htoken := h source hsource
  cases source with
  | char c => exact htoken
  | found tag =>
    rw [TagSearch.edit]
    split
    · exact isTag_inlineStart htidy htoken
    · exact htoken

theorem tokens_finishTokens {options : Options} (htidy : options.Tidy) {tokens : List Token}
    (h : Tokens tokens) : Tokens (finishTokens options tokens) :=
  tokens_markInline htidy (tokens_blockMarker htidy (tokens_merger h))

/-- Without a highlighter, the three passes over HTML are the three passes over its tokens. -/
theorem finishHtml_writeTokens {options : Options} (htidy : options.Tidy)
    (hnone : options.highlighter = none) {tokens : List Token} (h : Tokens tokens) :
    (finishHtml options (writeTokens tokens)).result =
      .ok (writeTokens (finishTokens options tokens)) := by
  have hmerged := tokens_merger h
  have hmarked := tokens_blockMarker htidy hmerged
  unfold finishHtml decorateBlocks
  rw [hnone]
  dsimp only [Outcome.map, Except.map]
  rw [mergeFragments_writeTokens h, markBlocks_writeTokens options hmerged,
    decorateInline_writeTokens options hmarked]
  rfl

end Assessment.Report
