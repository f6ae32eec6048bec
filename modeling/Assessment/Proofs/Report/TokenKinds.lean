import Assessment.Proofs.Report.TokenPasses

/-!
# Proofs: the kinds of tokens

The passes over code find their places by few properties of each token (`Kind`). Joining has nothing to
do where it was done before, and whether it has anything to do depends on the kinds of the tokens alone.
So does the place of each block of code.
-/

namespace Assessment.Report

open Assessment.Text Assessment.Markup

/-! ## Kinds -/

/-- The token is a tag that has the property. -/
def isTagOf (good : List Char → Bool) : Token → Bool
  | .char _ => false
  | .found tag => good tag

/-- What the passes over code tell about a token. -/
structure Kind where
  /-- It is white space. -/
  blank : Bool
  /-- It is the start tag of a preformatted block. -/
  preStart : Bool
  /-- It is the start tag of code. -/
  codeStart : Bool
  /-- It is a tag of code. -/
  codeTag : Bool
  /-- It is the end tag of a preformatted block. -/
  preEnd : Bool
  /-- It is the end tag of code. -/
  codeEnd : Bool

/-- The kind of a token. -/
def kind (t : Token) : Kind where
  blank := isBlankToken t
  preStart := isTagOf (isStart "pre") t
  codeStart := isTagOf (isStart "code") t
  codeTag := isTagOf isCodeTag t
  preEnd := t == .found preEnd
  codeEnd := t == .found codeEnd

theorem exists_of_isTagOf {good : List Char → Bool} {t : Token} (h : isTagOf good t = true) :
    ∃ tag, t = .found tag ∧ good tag = true := by
  cases t with
  | char c => cases h
  | found tag => exact ⟨tag, rfl, h⟩

/-- The tag has the property if the passes search for it: if it is taken for a start tag of a preformatted
block or of code. -/
def IfSearched (P : List Char → Prop) (tag : List Char) : Prop :=
  isStart "pre" tag = true ∨ isStart "code" tag = true → P tag

/-- The token has the property if it is a tag that the passes search for. -/
def SearchedToken (P : List Char → Prop) : Token → Prop
  | .char _ => True
  | .found tag => IfSearched P tag

section Searched

variable {P : List Char → Prop}

theorem holdsElsewhere_ifSearched (P : List Char → Prop) : HoldsElsewhere (IfSearched P) := by
  intro tag hpre hcode hstart
  rcases hstart with h | h
  · exact absurd h (ne_true_of_eq_false hpre)
  · exact absurd h (ne_true_of_eq_false hcode)

theorem searchedToken_of_forall_found {tokens : List Token}
    (h : ∀ tag, .found tag ∈ tokens → IfSearched P tag) : ∀ t ∈ tokens, SearchedToken P t := by
  intro t ht
  cases t with
  | char c => exact trivial
  | found tag => exact h tag ht

/-- Joining makes no tags that are searched for. -/
theorem searchedToken_merger {tokens : List Token} (h : ∀ t ∈ tokens, SearchedToken P t) :
    ∀ t ∈ merger.rewrite tokens, SearchedToken P t := by
  have hpreEnd : SearchedToken P (.found preEnd) := fun hstart => absurd hstart (by decide +kernel)
  have hcodeEnd : SearchedToken P (.found codeEnd) := fun hstart => absurd hstart (by decide +kernel)
  exact forall_merger hpreEnd hcodeEnd h

/-- The start tags of a block are searched for. -/
theorem TokenBlock.Proper.searched {block : TokenBlock} (h : block.Proper)
    (hsource : ∀ t ∈ block.source, SearchedToken P t) :
    (P block.preStart ∧ P block.codeStart) ∧ ∀ t ∈ block.content, SearchedToken P t := by
  obtain ⟨hfirst, hrest⟩ := List.forall_mem_cons.1 hsource
  obtain ⟨-, hinside⟩ := List.forall_mem_append.1 hrest
  obtain ⟨hstart, hcontent⟩ := List.forall_mem_cons.1 hinside
  exact ⟨⟨hfirst (.inl h.preStart), hstart (.inr h.codeStart)⟩, (List.forall_mem_append.1 hcontent).1⟩

end Searched

section SameKind

variable {t t' : Token} {tag : List Char}

/-- A token of the kind of a start tag of a block is one. -/
theorem exists_preStart (h : kind t' = kind (.found tag)) (hpre : isStart "pre" tag = true) :
    ∃ tag', t' = .found tag' ∧ isStart "pre" tag' = true :=
  exists_of_isTagOf ((congrArg Kind.preStart h).trans hpre)

/-- A token of the kind of a start tag of code is one. -/
theorem exists_codeStart (h : kind t' = kind (.found tag)) (hcode : isStart "code" tag = true) :
    ∃ tag', t' = .found tag' ∧ isStart "code" tag' = true :=
  exists_of_isTagOf ((congrArg Kind.codeStart h).trans hcode)

theorem kind_eq_preEnd_iff : kind t = kind (.found preEnd) ↔ t = .found preEnd := by
  constructor
  · intro h
    have hend : (t == .found preEnd) = true := (congrArg Kind.preEnd h).trans (by decide)
    exact beq_iff_eq.1 hend
  · rintro rfl
    rfl

theorem kind_eq_codeEnd_iff : kind t = kind (.found codeEnd) ↔ t = .found codeEnd := by
  constructor
  · intro h
    have hend : (t == .found codeEnd) = true := (congrArg Kind.codeEnd h).trans (by decide)
    exact beq_iff_eq.1 hend
  · rintro rfl
    rfl

end SameKind

/-- What all tokens have by their kind, all tokens of the same kinds have. -/
theorem forall_of_kinds {P : Token → Prop} (hP : ∀ {t t' : Token}, kind t' = kind t → P t → P t')
    {tokens tokens' : List Token} (h : tokens'.map kind = tokens.map kind) (hall : ∀ t ∈ tokens, P t) :
    ∀ t ∈ tokens', P t := by
  intro t' ht'
  have hmem : kind t' ∈ tokens.map kind := h ▸ List.mem_map_of_mem ht'
  obtain ⟨t, ht, hkind⟩ := List.mem_map.1 hmem
  exact hP hkind.symm (hall t ht)

/-- A token that is told by its kind is not among tokens of the same kinds either. -/
theorem not_mem_of_kinds {u : Token} (hu : ∀ {t : Token}, kind t = kind u → t = u)
    {tokens tokens' : List Token} (h : tokens'.map kind = tokens.map kind) (hnot : u ∉ tokens) :
    u ∉ tokens' := by
  intro hmem
  have hkind : kind u ∈ tokens.map kind := h ▸ List.mem_map_of_mem hmem
  obtain ⟨t, ht, heq⟩ := List.mem_map.1 hkind
  exact hnot (hu heq ▸ ht)

theorem preEnd_not_mem_of_kinds {tokens tokens' : List Token} (h : tokens'.map kind = tokens.map kind)
    (hnot : .found preEnd ∉ tokens) : .found preEnd ∉ tokens' :=
  not_mem_of_kinds kind_eq_preEnd_iff.1 h hnot

theorem codeEnd_not_mem_of_kinds {tokens tokens' : List Token} (h : tokens'.map kind = tokens.map kind)
    (hnot : .found codeEnd ∉ tokens) : .found codeEnd ∉ tokens' :=
  not_mem_of_kinds kind_eq_codeEnd_iff.1 h hnot

/-! ## Blocks of code -/

/-- Tokens of the kinds of a block of code are one. -/
theorem exists_tokenBlock_of_kinds {tokens tokens' : List Token}
    (h : tokens'.map kind = tokens.map kind) {block : TokenBlock} {rest : List Token}
    (hblock : tokenBlock? tokens = some (block, rest)) :
    ∃ block' rest', tokenBlock? tokens' = some (block', rest') := by
  obtain ⟨rfl, hpre, hspace, hcode, hnot⟩ := tokenBlock?_eq_some_iff.1 hblock
  have hsource : block.source ++ rest = .found block.preStart :: (block.space ++
      .found block.codeStart :: (block.content ++ .found codeEnd :: rest)) := by
    simp [TokenBlock.source]
  rw [hsource, List.map_cons, List.map_append, List.map_cons, List.map_append, List.map_cons] at h
  obtain ⟨first, after, rfl, hfirst, hafter⟩ := List.map_eq_cons_iff.1 h
  obtain ⟨space', more, rfl, hspace', hmore⟩ := List.map_eq_append_iff.1 hafter
  obtain ⟨start, inside, rfl, hstart, hinside⟩ := List.map_eq_cons_iff.1 hmore
  obtain ⟨content', ending, rfl, hcontent', hending⟩ := List.map_eq_append_iff.1 hinside
  obtain ⟨last, rest', rfl, hlast, -⟩ := List.map_eq_cons_iff.1 hending
  obtain ⟨tag, rfl, hpre'⟩ := exists_preStart hfirst hpre
  obtain ⟨code, rfl, hcode'⟩ := exists_codeStart hstart hcode
  obtain rfl := kind_eq_codeEnd_iff.1 hlast
  have hblank : ∀ t ∈ space', isBlankToken t = true :=
    forall_of_kinds (fun hkind hblank => (congrArg Kind.blank hkind).trans hblank) hspace' hspace
  refine ⟨⟨tag, space', code, content'⟩, rest', tokenBlock?_eq_some_iff.2 ⟨?_, ?_⟩⟩
  · simp [TokenBlock.source]
  · exact ⟨hpre', hblank, hcode', codeEnd_not_mem_of_kinds hcontent' hnot⟩

/-! ## Joining what is joined -/

/-- The tokens of a preformatted block are in one piece: they hold no code, or they are code. -/
def InOnePiece (inside : List Token) : Prop :=
  (∀ t ∈ inside, isTagOf (isStart "code") t = false) ∨
    ∃ start content, inside = .found start :: (content ++ [.found codeEnd]) ∧
      isStart "code" start = true ∧ ∀ t ∈ content, isTagOf isCodeTag t = false

theorem firstCode?_eq_none_iff {tokens : List Token} :
    firstCode? tokens = none ↔ ∀ t ∈ tokens, isTagOf (isStart "code") t = false := by
  rw [firstCode?, List.head?_eq_none_iff, List.filter_eq_nil_iff]
  constructor
  · intro h t ht
    cases t with
    | char c => rfl
    | found tag => exact eq_false_of_ne_true (h tag (List.mem_filterMap.2 ⟨_, ht, rfl⟩))
  · intro h tag htag
    exact ne_true_of_eq_false (h _ (Piece.found_mem htag))

theorem isOther_eq_not (good : List Char → Bool) (t : Token) :
    TagSearch.isOther good t = !isTagOf good t := by
  cases t <;> rfl

theorem isCodeTag_codeEnd : isCodeTag codeEnd = true := by decide +kernel

theorem isCodeTag_of_isStart {tag : List Char} (h : isStart "code" tag = true) :
    isCodeTag tag = true := by
  rw [isCodeTag, h, Bool.true_or]

theorem isOther_codeStart {start : List Char} (h : isStart "code" start = true) :
    ¬ TagSearch.isOther isCodeTag (.found start) = true := by
  rw [isOther_eq_not, isTagOf, isCodeTag_of_isStart h]
  exact Bool.false_ne_true

theorem isOther_codeEnd : ¬ TagSearch.isOther isCodeTag (.found codeEnd) = true := by
  rw [isOther_eq_not, isTagOf, isCodeTag_codeEnd]
  exact Bool.false_ne_true

/-- The tokens of a preformatted block with its code in one piece, without the tags of the block. -/
def joinedTokens (inside : List Token) : List Token :=
  match firstCode? inside with
  | some start => .found start :: (inside.filter (TagSearch.isOther isCodeTag) ++ [.found codeEnd])
  | none => inside

theorem mergedTokens_eq (opening : List Char) (inside : List Token) :
    mergedTokens opening inside = .found opening :: (joinedTokens inside ++ [.found preEnd]) := by
  unfold mergedTokens joinedTokens
  cases firstCode? inside with
  | none => rfl
  | some start => simp

/-- A block in one piece is left as it is. -/
theorem joinedTokens_of_inOnePiece {inside : List Token} (h : InOnePiece inside) :
    joinedTokens inside = inside := by
  unfold joinedTokens
  rcases h with hnone | ⟨start, content, rfl, hstart, hcontent⟩
  · rw [firstCode?_eq_none_iff.2 hnone]
  · have hfirst : firstCode? (.found start :: (content ++ [.found codeEnd])) = some start := by
      have htags : (.found start :: (content ++ [.found codeEnd]) : List Token).filterMap Piece.found? =
          start :: (content ++ [.found codeEnd] : List Token).filterMap Piece.found? := rfl
      rw [firstCode?, htags, List.filter_cons_of_pos hstart, List.head?_cons]
    have hall : ∀ t ∈ content, TagSearch.isOther isCodeTag t = true := fun t ht => by
      rw [isOther_eq_not, hcontent t ht, Bool.not_false]
    rw [hfirst]
    dsimp only
    rw [List.filter_cons_of_neg (isOther_codeStart hstart), List.filter_append,
      List.filter_eq_self.2 hall, List.filter_cons_of_neg isOther_codeEnd, List.filter_nil,
      List.append_nil]

/-- Joining a block leaves it in one piece. -/
theorem inOnePiece_joinedTokens (inside : List Token) : InOnePiece (joinedTokens inside) := by
  unfold joinedTokens
  split
  · next start hfirst =>
    refine .inr ⟨start, _, rfl, (mem_of_firstCode? hfirst).2, fun t ht => ?_⟩
    have hother := (List.mem_filter.1 ht).2
    rwa [isOther_eq_not, Bool.not_eq_true'] at hother
  · next hfirst => exact .inl (firstCode?_eq_none_iff.1 hfirst)

theorem preEnd_not_mem_joinedTokens {inside : List Token} (hnot : .found preEnd ∉ inside) :
    .found preEnd ∉ joinedTokens inside := by
  unfold joinedTokens
  split
  · next start hfirst =>
    rw [List.mem_cons, List.mem_append, List.mem_singleton]
    rintro (heq | hin | heq)
    · exact hnot (heq ▸ (mem_of_firstCode? hfirst).1)
    · exact hnot (List.mem_filter.1 hin).1
    · exact absurd heq (by decide)
  · exact hnot

/-- Joining joins the first block and then the tokens after it. -/
theorem merger_of_block {opening : List Char} {inside rest : List Token}
    (hopening : isStart "pre" opening = true) (hnot : .found preEnd ∉ inside) :
    merger.rewrite (.found opening :: (inside ++ .found preEnd :: rest)) =
      .found opening :: (joinedTokens inside ++ .found preEnd :: merger.rewrite rest) := by
  rw [merger_block hopening hnot, mergedTokens_eq]
  simp

/-- Nothing is joined at a token that begins no block, or no block that ends. -/
theorem mergeFirst?_eq_none_iff {t : Token} {tokens : List Token} :
    mergeFirst? (t :: tokens) = none ↔
      (isTagOf (isStart "pre") t = true → .found preEnd ∉ tokens) := by
  cases t with
  | char c => exact ⟨fun _ h => absurd h Bool.false_ne_true, fun _ => rfl⟩
  | found tag =>
    rw [mergeFirst?, isTagOf]
    by_cases hpre : isStart "pre" tag = true
    · rw [if_pos hpre, Option.map_eq_none_iff, cutAtTag?_eq_none_iff]
      exact ⟨fun h _ => h, fun h => h hpre⟩
    · rw [if_neg hpre]
      exact ⟨fun _ h => absurd h hpre, fun _ => rfl⟩

/-- Where no preformatted block ends, nothing is joined. -/
theorem merger_of_not_mem {tokens : List Token} (h : .found preEnd ∉ tokens) :
    merger.rewrite tokens = tokens := by
  induction tokens with
  | nil => exact Rewriter.rewrite_nil
  | cons t tokens ih =>
    rw [List.mem_cons, not_or] at h
    have hnone : merger.run (t :: tokens) = none := mergeFirst?_eq_none_iff.2 fun _ => h.2
    rw [Rewriter.rewrite_of_not_run hnone, ih h.2]

/-- There is nothing left to join. -/
def Joined (tokens : List Token) : Prop := merger.rewrite tokens = tokens

theorem joined_block_append {opening : List Char} {inside rest : List Token}
    (hopening : isStart "pre" opening = true) (hpiece : InOnePiece inside)
    (hnot : .found preEnd ∉ inside) (hrest : Joined rest) :
    Joined (.found opening :: (inside ++ .found preEnd :: rest)) := by
  rw [Joined, merger_of_block hopening hnot, joinedTokens_of_inOnePiece hpiece, hrest]

/-- Where nothing is joined at a token, nothing is joined there once the tokens after it are joined. -/
theorem merger_run_of_joined {t : Token} {tokens : List Token} (h : merger.run (t :: tokens) = none) :
    merger.run (t :: merger.rewrite tokens) = none := by
  refine mergeFirst?_eq_none_iff.2 fun hpre => ?_
  have hnot := mergeFirst?_eq_none_iff.1 h hpre
  rwa [merger_of_not_mem hnot]

/-- Joining leaves nothing to join. -/
theorem joined_merger (tokens : List Token) : Joined (merger.rewrite tokens) := by
  induction tokens using merger.rewrite_induction with
  | nil =>
    rw [Rewriter.rewrite_nil]
    exact Rewriter.rewrite_nil
  | @run tokens out rest hrun ih =>
    obtain ⟨opening, inside, rfl, hopening, hnot, rfl⟩ := mergeFirst?_eq_some_iff.1 hrun
    rw [merger_of_block hopening hnot]
    exact joined_block_append hopening (inOnePiece_joinedTokens inside)
      (preEnd_not_mem_joinedTokens hnot) ih
  | @step t tokens hrun ih =>
    rw [Rewriter.rewrite_of_not_run hrun, Joined,
      Rewriter.rewrite_of_not_run (merger_run_of_joined hrun), ih]

/-- In joined tokens a block that is found is in one piece, and the tokens after it are joined. -/
theorem Joined.of_run {opening : List Char} {inside rest : List Token}
    (h : Joined (.found opening :: (inside ++ .found preEnd :: rest)))
    (hopening : isStart "pre" opening = true) (hnot : .found preEnd ∉ inside) :
    InOnePiece inside ∧ Joined rest := by
  rw [Joined, merger_of_block hopening hnot] at h
  have hsame := List.tail_eq_of_cons_eq h
  -- Both are cut at the first end tag, so both parts agree.
  have hcut := cutAtTag?_eq_some_iff.2 ⟨hsame.symm, preEnd_not_mem_joinedTokens hnot⟩
  rw [cutAtTag?_eq_some_iff.2 ⟨rfl, hnot⟩] at hcut
  obtain ⟨hinside, hrest⟩ := Prod.mk.inj (Option.some.inj hcut)
  exact ⟨hinside ▸ inOnePiece_joinedTokens inside, hrest.symm⟩

theorem inOnePiece_of_kinds {inside inside' : List Token} (h : inside'.map kind = inside.map kind)
    (hpiece : InOnePiece inside) : InOnePiece inside' := by
  rcases hpiece with hnone | ⟨start, content, rfl, hstart, hcontent⟩
  · left
    exact forall_of_kinds (fun hkind hnot => (congrArg Kind.codeStart hkind).trans hnot) h hnone
  · right
    rw [List.map_cons, List.map_append] at h
    obtain ⟨first, after, rfl, hfirst, hafter⟩ := List.map_eq_cons_iff.1 h
    obtain ⟨content', ending, rfl, hcontent', hending⟩ := List.map_eq_append_iff.1 hafter
    obtain ⟨last, none, rfl, hlast, hnone⟩ := List.map_eq_cons_iff.1 hending
    obtain rfl := List.map_eq_nil_iff.1 hnone
    obtain ⟨start', rfl, hstart'⟩ := exists_codeStart hfirst hstart
    obtain rfl := kind_eq_codeEnd_iff.1 hlast
    exact ⟨start', content', rfl, hstart',
      forall_of_kinds (fun hkind hnot => (congrArg Kind.codeTag hkind).trans hnot) hcontent' hcontent⟩

/-- Whether anything is left to join depends on the kinds of the tokens alone. -/
theorem joined_of_kinds {tokens tokens' : List Token} (h : tokens'.map kind = tokens.map kind)
    (hjoined : Joined tokens) : Joined tokens' := by
  induction tokens using merger.rewrite_induction generalizing tokens' with
  | nil =>
    rw [List.map_nil, List.map_eq_nil_iff] at h
    rw [h]
    exact Rewriter.rewrite_nil
  | @run tokens out rest hrun ih =>
    obtain ⟨opening, inside, rfl, hopening, hnot, -⟩ := mergeFirst?_eq_some_iff.1 hrun
    obtain ⟨hpiece, hrest⟩ := hjoined.of_run hopening hnot
    rw [List.map_cons, List.map_append, List.map_cons] at h
    obtain ⟨first, after, rfl, hfirst, hafter⟩ := List.map_eq_cons_iff.1 h
    obtain ⟨inside', ending, rfl, hinside', hending⟩ := List.map_eq_append_iff.1 hafter
    obtain ⟨last, rest', rfl, hlast, hrest'⟩ := List.map_eq_cons_iff.1 hending
    obtain ⟨opening', rfl, hopening'⟩ := exists_preStart hfirst hopening
    obtain rfl := kind_eq_preEnd_iff.1 hlast
    exact joined_block_append hopening' (inOnePiece_of_kinds hinside' hpiece)
      (preEnd_not_mem_of_kinds hinside' hnot) (ih hrest' hrest)
  | @step t tokens hrun ih =>
    rw [List.map_cons] at h
    obtain ⟨t', after, rfl, ht', hafter⟩ := List.map_eq_cons_iff.1 h
    have hafterJoined : Joined tokens := by
      rw [Joined, Rewriter.rewrite_of_not_run hrun] at hjoined
      exact List.tail_eq_of_cons_eq hjoined
    have hnone : merger.run (t' :: after) = none := by
      refine mergeFirst?_eq_none_iff.2 fun hpre => ?_
      have hpre' : isTagOf (isStart "pre") t = true := (congrArg Kind.preStart ht').symm.trans hpre
      exact preEnd_not_mem_of_kinds hafter (mergeFirst?_eq_none_iff.1 hrun hpre')
    rw [Joined, Rewriter.rewrite_of_not_run hnone, ih hafter hafterJoined]

end Assessment.Report
