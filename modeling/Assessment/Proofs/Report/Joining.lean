import Mathlib.Data.List.Forall2
import Assessment.Proofs.Report.TokenKinds

/-!
# Proofs: joining moves tags of code only

HTML is cut into its preformatted blocks and the characters between them, and joining leaves this cut as
it is (`forall₂_pieces_merger`): the characters stay, and each block keeps its start tag and all that is
no tag of code. So a second run finds the blocks of the first one, each in one piece.
-/

namespace Assessment.Report

open Assessment.Text Assessment.Markup

/-! ## Fragments -/

/-- The text is a fragment of HTML: tags, and text without angle brackets. -/
def IsFragment (html : List Char) : Prop := MadeOf (fun _ => True) html

theorem isFragment_writeTokens {tokens : List Token} (h : Tokens tokens) :
    IsFragment (writeTokens tokens) := by
  induction tokens with
  | nil => exact .nil
  | cons t tokens ih =>
    obtain ⟨ht, htokens⟩ := List.forall_mem_cons.1 h
    cases t with
    | char c => exact .char ht.1 ht.2 (ih htokens)
    | found tag => exact .tag ht trivial (ih htokens)

theorem IsFragment.exists_tokens {html : List Char} (h : IsFragment html) :
    ∃ tokens, Tokens tokens ∧ writeTokens tokens = html := by
  obtain ⟨tokens, htokens, -, htext⟩ := MadeOf.exists_tokens h
  exact ⟨tokens, htokens, htext⟩

/-- The text without its tags of code. -/
def withoutCodeTags (html : List Char) : List Char := codeTag.replace (fun _ => []) html

/-! ## What joining leaves -/

/-- A block before and after its code is joined. -/
structure PreBlock.JoinedAs (block joined : PreBlock) : Prop where
  /-- The block keeps its start tag. -/
  opening : joined.opening = block.opening
  /-- Of the start tags of code the first is left. -/
  codeStarts : codeStart.findAll joined.inside = (codeStart.findAll block.inside).take 1
  /-- That one comes first in the block. -/
  first : ∀ start, codeStart.find? block.inside = some start → start <+: joined.inside
  /-- All that is no tag of code stays. -/
  others : withoutCodeTags joined.inside = withoutCodeTags block.inside
  /-- A block without a start tag of code stays as it is. -/
  unchanged : codeStart.find? block.inside = none → joined = block

/-- A piece of a text before and after joining: a character, or a block. -/
inductive JoinedPiece : Piece PreBlock → Piece PreBlock → Prop where
  /-- A character outside of the blocks stays. -/
  | char (c : Char) : JoinedPiece (.char c) (.char c)
  /-- A block is joined. -/
  | found {block joined : PreBlock} (h : block.JoinedAs joined) :
    JoinedPiece (.found block) (.found joined)

theorem forall₂_joinedPiece_char (s : List Char) :
    List.Forall₂ JoinedPiece (s.map .char) (s.map .char) := by
  induction s with
  | nil => exact .nil
  | cons c s ih => exact .cons (.char c) ih

/-- Joining a block takes away and adds tags of code only. -/
theorem filter_joinedTokens (inside : List Token) :
    (joinedTokens inside).filter (TagSearch.isOther isCodeTag) =
      inside.filter (TagSearch.isOther isCodeTag) := by
  unfold joinedTokens
  split
  · next start hfirst =>
    rw [List.filter_cons_of_neg (isOther_codeStart (mem_of_firstCode? hfirst).2), List.filter_append,
      List.filter_cons_of_neg isOther_codeEnd, List.filter_nil, List.append_nil, List.filter_filter]
    simp only [Bool.and_self]
  · rfl

/-- Joining takes away and adds tags of code only. -/
theorem filter_merger (tokens : List Token) :
    (merger.rewrite tokens).filter (TagSearch.isOther isCodeTag) =
      tokens.filter (TagSearch.isOther isCodeTag) := by
  induction tokens using merger.rewrite_induction with
  | nil => rw [Rewriter.rewrite_nil]
  | @run tokens out rest hrun ih =>
    obtain ⟨opening, inside, rfl, hopening, hnot, -⟩ := mergeFirst?_eq_some_iff.1 hrun
    rw [merger_of_block hopening hnot]
    simp only [List.filter_cons, List.filter_append, filter_joinedTokens, ih]
  | @step t tokens hrun ih =>
    rw [Rewriter.rewrite_of_not_run hrun, List.filter_cons, List.filter_cons, ih]

/-- The start tags of code among the tokens of a joined block. -/
theorem codeTags_joinedTokens (inside : List Token) :
    ((joinedTokens inside).filterMap Piece.found?).filter (isStart "code") =
      ((inside.filterMap Piece.found?).filter (isStart "code")).take 1 := by
  cases hfirst : firstCode? inside with
  | none =>
    have hnone : (inside.filterMap Piece.found?).filter (isStart "code") = [] :=
      List.head?_eq_none_iff.1 hfirst
    rw [joinedTokens, hfirst, hnone]
    rfl
  | some start =>
    obtain ⟨-, hstart⟩ := mem_of_firstCode? hfirst
    obtain ⟨more, hmore⟩ := List.head?_eq_some_iff.1 hfirst
    have hrest : firstCode? (inside.filter (TagSearch.isOther isCodeTag) ++
        [(.found codeEnd : Token)]) = none := by
      refine firstCode?_eq_none_iff.2 (List.forall_mem_append.2 ⟨fun t ht => ?_, ?_⟩)
      · cases t with
        | char c => rfl
        | found tag =>
          exact eq_false_of_ne_true fun hcode => isOther_codeStart hcode (List.mem_filter.1 ht).2
      · exact List.forall_mem_singleton.2 (by decide +kernel)
    have htags : (joinedTokens inside).filterMap Piece.found? = start ::
        (inside.filter (TagSearch.isOther isCodeTag) ++
          [(.found codeEnd : Token)]).filterMap Piece.found? := by
      rw [joinedTokens, hfirst]
      rfl
    rw [htags, List.filter_cons_of_pos hstart, hmore, List.head?_eq_none_iff.1 hrest]
    rfl

/-- Joining the tokens of a block joins the block. -/
theorem joinedAs_joinedTokens (opening : List Char) {inside : List Token} (h : Tokens inside)
    (hjoined : Tokens (joinedTokens inside)) :
    PreBlock.JoinedAs ⟨opening, writeTokens inside⟩ ⟨opening, writeTokens (joinedTokens inside)⟩ where
  opening := rfl
  codeStarts := by
    dsimp only
    rw [search_codeStart.findAll_writeTokens h, search_codeStart.findAll_writeTokens hjoined,
      codeTags_joinedTokens]
  first start hstart := by
    have hfirst : firstCode? inside = some start := by
      rw [← hstart]
      exact (congrArg List.head? (search_codeStart.findAll_writeTokens h)).symm
    rw [joinedTokens, hfirst]
    exact List.prefix_append _ _
  others := by
    dsimp only
    rw [withoutCodeTags, withoutCodeTags, search_codeTag.delete_writeTokens h,
      search_codeTag.delete_writeTokens hjoined, filter_joinedTokens]
  unchanged hnone := by
    have hfirst : firstCode? inside = none := by
      rw [← hnone]
      exact (congrArg List.head? (search_codeStart.findAll_writeTokens h)).symm
    rw [joinedTokens, hfirst]

/-! ## The cut into blocks -/

/-- A preformatted block among the tokens is the first piece of the text. -/
theorem pieces_block {opening : List Char} {inside rest : List Token}
    (h : Tokens (.found opening :: (inside ++ .found preEnd :: rest)))
    (hopening : isStart "pre" opening = true) (hnot : .found preEnd ∉ inside) :
    preBlock.pieces (writeTokens (.found opening :: (inside ++ .found preEnd :: rest))) =
      .found ⟨opening, writeTokens inside⟩ :: preBlock.pieces (writeTokens rest) :=
  preBlock.pieces_of_run (preBlock_run_of_block h hopening hnot)

/-- Where no block begins, the characters of a token are pieces of the text. -/
theorem pieces_other {t : Token} {tokens : List Token} (h : Tokens (t :: tokens))
    (hnone : merger.run (t :: tokens) = none) :
    preBlock.pieces (writeTokens (t :: tokens)) =
      (writeTokens [t]).map .char ++ preBlock.pieces (writeTokens tokens) := by
  have hrun := preBlock_run_of_none h hnone
  cases t with
  | char c => exact preBlock.pieces_of_not_run hrun
  | found tag =>
    have hpieces := pieces_tag_append whole_preBlock.starts (h _ List.mem_cons_self) hrun
    rwa [writeTokens_found tag [], writeTokens_nil, List.append_nil]

/-- The joined text is cut into the same characters and the joined blocks. -/
theorem forall₂_pieces_merger {tokens : List Token} (h : Tokens tokens) :
    List.Forall₂ JoinedPiece (preBlock.pieces (writeTokens tokens))
      (preBlock.pieces (writeTokens (merger.rewrite tokens))) := by
  have hmerged := tokens_merger h
  -- The cut follows the runs of the merger: it takes a block as one piece and a token as its characters.
  induction tokens using merger.rewrite_induction with
  | nil =>
    rw [Rewriter.rewrite_nil, writeTokens_nil, preBlock.pieces_nil]
    exact .nil
  | @run tokens out rest hrun ih =>
    obtain ⟨opening, inside, rfl, hopening, hnot, -⟩ := mergeFirst?_eq_some_iff.1 hrun
    rw [merger_of_block hopening hnot] at hmerged ⊢
    have hrest : Tokens rest := fun t ht => h t (by simp [ht])
    have hinside : Tokens inside := fun t ht => h t (by simp [ht])
    have hjoined : Tokens (joinedTokens inside) := fun t ht => hmerged t (by simp [ht])
    rw [pieces_block h hopening hnot, pieces_block hmerged hopening (preEnd_not_mem_joinedTokens hnot)]
    exact .cons (.found (joinedAs_joinedTokens opening hinside hjoined)) (ih hrest (tokens_merger hrest))
  | @step t tokens hrun ih =>
    have htokens : Tokens tokens := (List.forall_mem_cons.1 h).2
    rw [Rewriter.rewrite_of_not_run hrun] at hmerged ⊢
    rw [pieces_other h hrun, pieces_other hmerged (merger_run_of_joined hrun)]
    exact List.rel_append (forall₂_joinedPiece_char _) (ih htokens (tokens_merger htokens))

/-- Joining fragments of code moves tags of code only: without these tags the HTML is the same before and
after; the characters outside of the preformatted blocks stay, and of the start tags of code in a block
the first is left and follows the start tag of the block; and joining again changes nothing. -/
theorem joining_moves_code_tags {html : List Char} (h : IsFragment html) :
    withoutCodeTags (mergeFragments html) = withoutCodeTags html ∧
      List.Forall₂ JoinedPiece (preBlock.pieces html) (preBlock.pieces (mergeFragments html)) ∧
      mergeFragments (mergeFragments html) = mergeFragments html ∧
      IsFragment (mergeFragments html) := by
  obtain ⟨tokens, htokens, rfl⟩ := h.exists_tokens
  have hmerged := tokens_merger htokens
  rw [mergeFragments_writeTokens htokens]
  refine ⟨?_, forall₂_pieces_merger htokens, ?_, isFragment_writeTokens hmerged⟩
  · rw [withoutCodeTags, withoutCodeTags, search_codeTag.delete_writeTokens htokens,
      search_codeTag.delete_writeTokens hmerged, filter_merger]
  · rw [mergeFragments_writeTokens hmerged, joined_merger]

/-- A block with its code in two parts. -/
theorem joining_moves_code_tags_two_parts :
    IsFragment "<pre><code a='1'>x</code>|<code>y</code></pre>z".toList ∧
      withoutCodeTags (mergeFragments "<pre><code a='1'>x</code>|<code>y</code></pre>z".toList) =
        "<pre>x|y</pre>z".toList := by
  have h : IsFragment "<pre><code a='1'>x</code>|<code>y</code></pre>z".toList :=
    .tag (@IsTag.intro "pre".toList (by decide)) trivial <|
      .tag (@IsTag.intro "code a='1'".toList (by decide)) trivial <|
        .append (@MadeOf.of_unbracketed _ "x".toList (by decide)) <|
          .tag (@IsTag.intro "/code".toList (by decide)) trivial <|
            .append (@MadeOf.of_unbracketed _ "|".toList (by decide)) <|
              .tag (@IsTag.intro "code".toList (by decide)) trivial <|
                .append (@MadeOf.of_unbracketed _ "y".toList (by decide)) <|
                  .tag (@IsTag.intro "/code".toList (by decide)) trivial <|
                    .tag (@IsTag.intro "/pre".toList (by decide)) trivial <|
                      @MadeOf.of_unbracketed _ "z".toList (by decide)
  exact ⟨h, (joining_moves_code_tags h).1.trans (by decide +kernel)⟩

end Assessment.Report
