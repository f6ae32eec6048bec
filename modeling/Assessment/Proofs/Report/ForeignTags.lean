import Assessment.Proofs.Report.LegibleTags

/-!
# Proofs: the passes do not look at foreign tags

Editing tags that are foreign to the passes, and stay so, before the passes is the same as editing them
afterwards (`finishTokens_map`). Each pass rewrites tokens by what stands at their start, so it is enough
that this does not change (`Rewriter.rewrite_map`).
-/

namespace Assessment.Markup.Rewriter

/-- Rewriting commutes with a change of tokens if each rewriting of first tokens does. -/
theorem rewrite_map {r : Rewriter} {g : Token → Token}
    (hrun : ∀ tokens : List Token,
      r.run (tokens.map g) = (r.run tokens).map fun found => (found.1.map g, found.2.map g))
    (tokens : List Token) : r.rewrite (tokens.map g) = (r.rewrite tokens).map g := by
  induction tokens using r.rewrite_induction with
  | nil => rw [List.map_nil, rewrite_nil, List.map_nil]
  | @run tokens out rest h ih =>
    have hmap : r.run (tokens.map g) = some (out.map g, rest.map g) := by rw [hrun, h]; rfl
    rw [rewrite_of_run h, rewrite_of_run hmap, ih, List.map_append]
  | @step t tokens h ih =>
    have hmap : r.run (g t :: tokens.map g) = none := by
      rw [← List.map_cons, hrun, h]
      rfl
    rw [List.map_cons, rewrite_of_not_run hmap, rewrite_of_not_run h, ih, List.map_cons]

end Assessment.Markup.Rewriter

namespace Assessment.Report

open Assessment.Text Assessment.Markup

/-! ## Tags that are told apart -/

theorem handled_of_isPre {tag : List Char} (h : isStart "pre" tag = true) : Handled tag :=
  (opens_of_isStart rfl h).handled (by decide : 'p' ∈ ['p', 'c', '/'])

theorem handled_of_isCode {tag : List Char} (h : isStart "code" tag = true) : Handled tag :=
  (opens_of_isStart rfl h).handled (by decide : 'c' ∈ ['p', 'c', '/'])

theorem handled_of_isCodeTag {tag : List Char} (h : isCodeTag tag = true) : Handled tag := by
  rcases Bool.or_eq_true_iff.1 h with hstart | hend
  · exact handled_of_isCode hstart
  · exact (opens_of_isStart rfl hend).handled (by decide : '/' ∈ ['p', 'c', '/'])

theorem handled_preEnd : Handled preEnd := ⟨'/', ⟨_, rfl⟩, by decide⟩

theorem handled_codeEnd : Handled codeEnd := ⟨'/', ⟨_, rfl⟩, by decide⟩

/-- The tags that are edited are foreign to the passes, before and after. -/
structure ForeignEdit (edited : List Char → Bool) (f : List Char → List Char) : Prop where
  /-- They are foreign before. -/
  before : ∀ {tag : List Char}, edited tag = true → Foreign tag
  /-- They are foreign afterwards. -/
  after : ∀ {tag : List Char}, edited tag = true → Foreign (f tag)

/-- Whether a token is white space does not depend on what its tag is. -/
theorem isBlankToken_edit (edited : List Char → Bool) (f : List Char → List Char) (t : Token) :
    isBlankToken (TagSearch.edit edited f t) = isBlankToken t := by
  cases t with
  | char c => rfl
  | found tag => rfl

/-- The block with the tags in it edited. -/
def TokenBlock.edit (edited : List Char → Bool) (f : List Char → List Char) (block : TokenBlock) :
    TokenBlock :=
  { block with
    space := block.space.map (TagSearch.edit edited f)
    content := block.content.map (TagSearch.edit edited f) }

section Editing

variable {edited : List Char → Bool} {f : List Char → List Char} (h : ForeignEdit edited f)

include h

/-- A tag that the passes handle is not edited. -/
theorem ForeignEdit.edit_of_handled {tag : List Char} (htag : Handled tag) :
    TagSearch.edit edited f (.found tag) = .found tag := by
  have hnot : ¬ edited tag = true := fun hedited => (h.before hedited).ne htag rfl
  rw [TagSearch.edit, if_neg hnot]

/-- What holds of tags that are handled only is said of an edited tag as it was of the tag. -/
theorem ForeignEdit.test_eq {test : List Char → Bool}
    (htest : ∀ {tag : List Char}, test tag = true → Handled tag) (tag : List Char) :
    test (if edited tag then f tag else tag) = test tag := by
  by_cases hedited : edited tag = true
  · have hbefore : test tag = false :=
      eq_false_of_ne_true fun hpass => (h.before hedited).ne (htest hpass) rfl
    have hafter : test (f tag) = false :=
      eq_false_of_ne_true fun hpass => (h.after hedited).ne (htest hpass) rfl
    rw [if_pos hedited, hbefore, hafter]
  · rw [if_neg hedited]

theorem ForeignEdit.edit_eq_iff {mark : List Char} (hmark : Handled mark) (t : Token) :
    TagSearch.edit edited f t = .found mark ↔ t = .found mark := by
  cases t with
  | char c => exact Iff.rfl
  | found tag =>
    by_cases hedited : edited tag = true
    · rw [TagSearch.edit, if_pos hedited]
      constructor
      · intro heq
        exact absurd (Piece.found.inj heq).symm ((h.after hedited).ne hmark)
      · intro heq
        exact absurd (Piece.found.inj heq).symm ((h.before hedited).ne hmark)
    · rw [TagSearch.edit, if_neg hedited]

/-! ## Joining fragments -/

theorem cutAtTag?_map {mark : List Char} (hmark : Handled mark) (tokens : List Token) :
    cutAtTag? mark (tokens.map (TagSearch.edit edited f)) = (cutAtTag? mark tokens).map fun cut =>
      (cut.1.map (TagSearch.edit edited f), cut.2.map (TagSearch.edit edited f)) := by
  induction tokens with
  | nil => rfl
  | cons t tokens ih =>
    rw [List.map_cons, cutAtTag?, cutAtTag?]
    by_cases ht : t = .found mark
    · rw [if_pos ht, if_pos ((h.edit_eq_iff hmark t).2 ht)]
      rfl
    · rw [if_neg ht, if_neg fun heq => ht ((h.edit_eq_iff hmark t).1 heq), ih, Option.map_map,
        Option.map_map]
      rfl

theorem firstCode?_map (tokens : List Token) :
    firstCode? (tokens.map (TagSearch.edit edited f)) = firstCode? tokens := by
  unfold firstCode?
  congr 1
  induction tokens with
  | nil => rfl
  | cons t tokens ih =>
    cases t with
    | char c => exact ih
    | found tag =>
      have hsame := h.test_eq handled_of_isCode tag
      have hfirst : (Piece.found tag :: tokens).filterMap Piece.found? =
          tag :: tokens.filterMap Piece.found? := rfl
      have hsecond : ((Piece.found tag :: tokens).map (TagSearch.edit edited f)).filterMap Piece.found? =
          (if edited tag then f tag else tag) ::
            (tokens.map (TagSearch.edit edited f)).filterMap Piece.found? := rfl
      rw [hfirst, hsecond]
      by_cases hcode : isStart "code" tag = true
      · have hfound := h.edit_of_handled (handled_of_isCode hcode)
        rw [Piece.found.inj hfound, List.filter_cons_of_pos hcode, List.filter_cons_of_pos hcode, ih]
      · rw [List.filter_cons_of_neg hcode, List.filter_cons_of_neg (hsame ▸ hcode), ih]

theorem filter_isOther_map (tokens : List Token) :
    (tokens.map (TagSearch.edit edited f)).filter (TagSearch.isOther isCodeTag) =
      (tokens.filter (TagSearch.isOther isCodeTag)).map (TagSearch.edit edited f) := by
  rw [List.filter_map]
  congr 1
  refine List.filter_congr fun t _ => ?_
  cases t with
  | char c => rfl
  | found tag => exact congrArg not (h.test_eq handled_of_isCodeTag tag)

theorem mergedTokens_map (opening : List Char) (hopening : Handled opening) (inside : List Token) :
    mergedTokens opening (inside.map (TagSearch.edit edited f)) =
      (mergedTokens opening inside).map (TagSearch.edit edited f) := by
  have hpre := h.edit_of_handled hopening
  have hpreEnd := h.edit_of_handled handled_preEnd
  have hcodeEnd := h.edit_of_handled handled_codeEnd
  unfold mergedTokens
  rw [firstCode?_map h]
  cases hfirst : firstCode? inside with
  | none => simp [hpre, hpreEnd]
  | some start =>
    have hstart := h.edit_of_handled
      (handled_of_isCode (mem_of_firstCode? hfirst).2)
    simp [hpre, hpreEnd, hcodeEnd, hstart, filter_isOther_map h]

theorem merger_map (tokens : List Token) :
    merger.rewrite (tokens.map (TagSearch.edit edited f)) =
      (merger.rewrite tokens).map (TagSearch.edit edited f) := by
  refine Rewriter.rewrite_map (fun tokens => ?_) tokens
  show mergeFirst? _ = (mergeFirst? tokens).map _
  cases tokens with
  | nil => rfl
  | cons t tokens =>
    cases t with
    | char c => rfl
    | found tag =>
      by_cases hpre : isStart "pre" tag = true
      · have hopening := handled_of_isPre hpre
        rw [List.map_cons, h.edit_of_handled hopening, mergeFirst?, mergeFirst?, if_pos hpre,
          if_pos hpre, cutAtTag?_map h handled_preEnd, Option.map_map, Option.map_map]
        refine Option.map_congr fun cut _ => ?_
        exact congrArg (·, _) (mergedTokens_map h tag hopening cut.1)
      · have hsame := h.test_eq handled_of_isPre tag
        rw [List.map_cons, TagSearch.edit, mergeFirst?, mergeFirst?, if_neg hpre, if_neg (hsame ▸ hpre)]
        rfl

/-! ## Marking -/

theorem tokenBlock?_map (tokens : List Token) :
    tokenBlock? (tokens.map (TagSearch.edit edited f)) = (tokenBlock? tokens).map fun found =>
      (found.1.edit edited f, found.2.map (TagSearch.edit edited f)) := by
  cases tokens with
  | nil => rfl
  | cons t tokens =>
    cases t with
    | char c => rfl
    | found tag =>
      by_cases hpre : isStart "pre" tag = true
      · have hblank : isBlankToken ∘ TagSearch.edit edited f = isBlankToken :=
          funext (isBlankToken_edit edited f)
        rw [List.map_cons, h.edit_of_handled (handled_of_isPre hpre),
          tokenBlock?, tokenBlock?, if_pos hpre, if_pos hpre, List.dropWhile_map, List.takeWhile_map,
          hblank]
        generalize tokens.takeWhile isBlankToken = space
        cases tokens.dropWhile isBlankToken with
        | nil => rfl
        | cons next inside =>
          cases next with
          | char c => rfl
          | found start =>
            by_cases hcode : isStart "code" start = true
            · rw [List.map_cons, h.edit_of_handled (handled_of_isCode hcode)]
              dsimp only
              rw [if_pos hcode, if_pos hcode, cutAtTag?_map h handled_codeEnd, Option.map_map,
                Option.map_map]
              rfl
            · have hsame := h.test_eq handled_of_isCode start
              rw [List.map_cons, TagSearch.edit]
              dsimp only
              rw [if_neg hcode, if_neg (hsame ▸ hcode)]
              rfl
      · have hsame := h.test_eq handled_of_isPre tag
        rw [List.map_cons, TagSearch.edit, tokenBlock?, tokenBlock?, if_neg hpre, if_neg (hsame ▸ hpre)]
        rfl

theorem marked_edit (options : Options) {block : TokenBlock} (hproper : block.Proper) :
    (block.edit edited f).marked options = (block.marked options).map (TagSearch.edit edited f) := by
  have hpre := (opens_taggedStart (by decide) (by decide) (opens_of_isStart rfl hproper.preStart) options
    options.codeBlockClass (languageOf block.codeStart)).handled (by decide)
  have hcode := (opens_taggedStart (by decide) (by decide) (opens_of_isStart rfl hproper.codeStart) options
    options.codeBlockCodeClass (languageOf block.codeStart)).handled (by decide)
  simp [TokenBlock.marked, TokenBlock.edit, h.edit_of_handled hpre, h.edit_of_handled hcode,
    h.edit_of_handled handled_codeEnd]

theorem blockMarker_map (options : Options) (tokens : List Token) :
    (blockMarker options).rewrite (tokens.map (TagSearch.edit edited f)) =
      ((blockMarker options).rewrite tokens).map (TagSearch.edit edited f) := by
  refine Rewriter.rewrite_map (fun tokens => ?_) tokens
  show (tokenBlock? _).map _ = ((tokenBlock? tokens).map _).map _
  rw [tokenBlock?_map h, Option.map_map, Option.map_map]
  refine Option.map_congr fun found hfound => ?_
  obtain ⟨-, hproper⟩ := tokenBlock?_eq_some_iff.1 hfound
  exact congrArg (·, _) (marked_edit h options hproper)

/-- Marking a start tag of code and editing a foreign tag are done to different tags. -/
theorem edit_inlineStart (options : Options) (t : Token) :
    TagSearch.edit (isStart "code") (inlineStart options) (TagSearch.edit edited f t) =
      TagSearch.edit edited f (TagSearch.edit (isStart "code") (inlineStart options) t) := by
  cases t with
  | char c => rfl
  | found tag =>
    by_cases hcode : isStart "code" tag = true
    · have hopens := opens_of_isStart (c := 'c') rfl hcode
      have hmarked := (opens_inlineStart hopens options).handled (by decide)
      have hmark : TagSearch.edit (isStart "code") (inlineStart options) (.found tag) =
          .found (inlineStart options tag) := congrArg Piece.found (if_pos hcode)
      rw [h.edit_of_handled (hopens.handled (by decide)), hmark, h.edit_of_handled hmarked]
    · have hsame := h.test_eq handled_of_isCode tag
      have hkeep {other : List Char} (hother : ¬ isStart "code" other = true) :
          TagSearch.edit (isStart "code") (inlineStart options) (.found other) = .found other :=
        congrArg Piece.found (if_neg hother)
      rw [hkeep hcode]
      exact hkeep (hsame ▸ hcode)

theorem markInline_map (options : Options) (tokens : List Token) :
    markInline options (tokens.map (TagSearch.edit edited f)) =
      (markInline options tokens).map (TagSearch.edit edited f) := by
  rw [markInline, markInline, List.map_map, List.map_map]
  exact List.map_congr_left fun t _ => edit_inlineStart h options t

/-- Editing tags that are foreign to the passes before the passes is the same as editing them afterwards. -/
theorem finishTokens_map (options : Options) (tokens : List Token) :
    finishTokens options (tokens.map (TagSearch.edit edited f)) =
      (finishTokens options tokens).map (TagSearch.edit edited f) := by
  rw [finishTokens, finishTokens, merger_map h, blockMarker_map h, markInline_map h]

end Editing

end Assessment.Report
