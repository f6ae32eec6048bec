import Assessment.Proofs.Markup.CountTags
import Assessment.Proofs.Markup.RawTag

/-!
# Proofs: HTML as tokens

HTML is a list of tokens that is written out: its tags, and the characters between them. What a search
for tags does to the text, it does to the tokens one by one (`TagSearch`), and a replacement of longer
matches is a rewriting of tokens (`Rewriter.replace_writeTokens`).
-/

namespace Assessment.Markup

open Assessment.Text

/-! ## Tokens -/

/-- A token of HTML: a character of its text, or a tag. -/
abbrev Token := Piece (List Char)

/-- The token is a character that is no bracket, or one tag. -/
def IsToken : Token → Prop
  | .char c => c ≠ '<' ∧ c ≠ '>'
  | .found tag => IsTag tag

/-- All of the tokens are tokens of HTML. -/
def Tokens (tokens : List Token) : Prop := ∀ t ∈ tokens, IsToken t

/-- The tokens as they are written. -/
def writeTokens (tokens : List Token) : List Char := tokens.flatMap (Piece.write id)

@[simp] theorem writeTokens_nil : writeTokens [] = [] := rfl

@[simp] theorem writeTokens_char (c : Char) (tokens : List Token) :
    writeTokens (.char c :: tokens) = c :: writeTokens tokens := rfl

@[simp] theorem writeTokens_found (tag : List Char) (tokens : List Token) :
    writeTokens (.found tag :: tokens) = tag ++ writeTokens tokens := rfl

@[simp] theorem writeTokens_append (tokens more : List Token) :
    writeTokens (tokens ++ more) = writeTokens tokens ++ writeTokens more := List.flatMap_append

theorem Tokens.append {tokens more : List Token} (h : Tokens tokens) (hmore : Tokens more) :
    Tokens (tokens ++ more) := fun t ht => (List.mem_append.1 ht).elim (h t) (hmore t)

theorem Tokens.of_append {tokens more : List Token} (h : Tokens (tokens ++ more)) :
    Tokens tokens ∧ Tokens more :=
  ⟨fun t ht => h t (List.mem_append_left _ ht), fun t ht => h t (List.mem_append_right _ ht)⟩

/-- The tokens of HTML are found again. -/
theorem pieces_writeTokens {tokens : List Token} (h : Tokens tokens) :
    anyTag.pieces (writeTokens tokens) = tokens := by
  induction tokens with
  | nil => exact anyTag.pieces_nil
  | cons t tokens ih =>
    obtain ⟨ht, htokens⟩ := List.forall_mem_cons.1 h
    cases t with
    | char c => rw [writeTokens_char, anyTag.pieces_of_not_run (anyTag?_cons ht.1 _), ih htokens]
    | found tag => rw [writeTokens_found, anyTag.pieces_of_run (anyTag?_append ht _), ih htokens]

theorem findAll_anyTag_writeTokens {tokens : List Token} (h : Tokens tokens) :
    anyTag.findAll (writeTokens tokens) = tokens.filterMap Piece.found? := by
  rw [anyTag.findAll_eq, pieces_writeTokens h]

/-- HTML whose tags have a property is written from tokens whose tags have it. -/
theorem MadeOf.exists_tokens {P : List Char → Prop} {html : List Char} (h : MadeOf P html) :
    ∃ tokens, Tokens tokens ∧ (∀ tag, .found tag ∈ tokens → P tag) ∧ writeTokens tokens = html := by
  induction h with
  | nil => exact ⟨[], fun t ht => absurd ht List.not_mem_nil, fun t ht => absurd ht List.not_mem_nil, rfl⟩
  | @char c html h1 h2 _ ih =>
    obtain ⟨tokens, htokens, hP, rfl⟩ := ih
    refine ⟨.char c :: tokens, List.forall_mem_cons.2 ⟨⟨h1, h2⟩, htokens⟩, fun tag htag => ?_, rfl⟩
    rcases List.mem_cons.1 htag with heq | htag
    · cases heq
    · exact hP tag htag
  | @tag tag html htag hP _ ih =>
    obtain ⟨tokens, htokens, hall, rfl⟩ := ih
    refine ⟨.found tag :: tokens, List.forall_mem_cons.2 ⟨htag, htokens⟩, fun other hother => ?_, rfl⟩
    rcases List.mem_cons.1 hother with heq | hother
    · cases heq
      exact hP
    · exact hall other hother

/-- The tags of HTML are the tags among its tokens. -/
theorem MadeOf.forall_found {P : List Char → Prop} {tokens : List Token}
    (h : MadeOf P (writeTokens tokens)) (htokens : Tokens tokens) :
    ∀ tag, .found tag ∈ tokens → P tag := by
  obtain ⟨others, hothers, hall, htext⟩ := h.exists_tokens
  have hsame : others = tokens := by
    rw [← pieces_writeTokens hothers, htext, pieces_writeTokens htokens]
  rwa [hsame] at hall

/-! ## Searching for tags -/

/-- A search that finds the tags that are `good`, and nothing else. -/
structure TagSearch (p : Recognizer (List Char)) (good : List Char → Bool) : Prop where
  /-- Matches start with an opening bracket. -/
  starts : ∀ {c : Char} {s : List Char}, c ≠ '<' → p.run (c :: s) = none
  /-- Whether a tag is found depends on the tag alone. -/
  run : ∀ {tag : List Char}, IsTag tag → ∀ s : List Char,
    p.run (tag ++ s) = if good tag then some (tag, s) else none

namespace TagSearch

variable {p : Recognizer (List Char)} {good : List Char → Bool}

/-- The token is none that the search finds. -/
def isOther (good : List Char → Bool) : Token → Bool
  | .char _ => true
  | .found tag => !good tag

/-- The token with its tag edited if the search finds it. -/
def edit (good : List Char → Bool) (f : List Char → List Char) : Token → Token
  | .char c => .char c
  | .found tag => .found (if good tag then f tag else tag)

theorem replace_cons (hp : TagSearch p good) (f : List Char → List Char) {t : Token} (ht : IsToken t)
    (tokens : List Token) :
    p.replace f (writeTokens (t :: tokens)) =
      Piece.write id (edit good f t) ++ p.replace f (writeTokens tokens) := by
  cases t with
  | char c =>
    have hpieces : p.pieces (c :: writeTokens tokens) = [c].map .char ++ p.pieces (writeTokens tokens) :=
      p.pieces_of_not_run (hp.starts ht.1)
    exact Recognizer.replace_of_pieces f hpieces
  | found tag =>
    have hrun := hp.run ht (writeTokens tokens)
    rw [writeTokens_found, edit]
    by_cases hgood : good tag
    · rw [if_pos hgood] at hrun
      rw [if_pos hgood, Recognizer.replace_of_run f hrun]
      rfl
    · rw [if_neg hgood] at hrun
      rw [if_neg hgood, Recognizer.replace_of_pieces f (pieces_tag_append hp.starts ht hrun)]
      rfl

/-- Editing the tags that are found edits these tokens. -/
theorem replace_writeTokens (hp : TagSearch p good) (f : List Char → List Char) {tokens : List Token}
    (h : Tokens tokens) :
    p.replace f (writeTokens tokens) = writeTokens (tokens.map (edit good f)) := by
  induction tokens with
  | nil => simp [Recognizer.replace]
  | cons t tokens ih =>
    obtain ⟨ht, htokens⟩ := List.forall_mem_cons.1 h
    rw [hp.replace_cons f ht, ih htokens]
    rfl

/-- Deleting the tags that are found deletes these tokens. -/
theorem delete_writeTokens (hp : TagSearch p good) {tokens : List Token} (h : Tokens tokens) :
    p.replace (fun _ => []) (writeTokens tokens) =
      writeTokens (tokens.filter (isOther good)) := by
  induction tokens with
  | nil => simp [Recognizer.replace]
  | cons t tokens ih =>
    obtain ⟨ht, htokens⟩ := List.forall_mem_cons.1 h
    rw [hp.replace_cons _ ht, ih htokens]
    cases t with
    | char c => rfl
    | found tag =>
      by_cases hgood : good tag
      · have hfound : ¬ isOther good (.found tag) = true := by simp [isOther, hgood]
        rw [List.filter_cons_of_neg hfound, edit, if_pos hgood]
        rfl
      · have hother : isOther good (.found tag) = true := by simp [isOther, hgood]
        rw [List.filter_cons_of_pos hother, edit, if_neg hgood]
        rfl

/-- The tags that are found are those of the tokens. -/
theorem findAll_writeTokens (hp : TagSearch p good) {tokens : List Token} (h : Tokens tokens) :
    p.findAll (writeTokens tokens) = (tokens.filterMap Piece.found?).filter good := by
  induction tokens with
  | nil => exact p.findAll_nil
  | cons t tokens ih =>
    obtain ⟨ht, htokens⟩ := List.forall_mem_cons.1 h
    cases t with
    | char c =>
      rw [writeTokens_char, p.findAll_of_not_run (hp.starts ht.1), ih htokens]
      rfl
    | found tag =>
      have hrun := hp.run ht (writeTokens tokens)
      have hcons : (Piece.found tag :: tokens).filterMap Piece.found? =
          tag :: tokens.filterMap Piece.found? := rfl
      rw [writeTokens_found, hcons]
      by_cases hgood : good tag
      · rw [if_pos hgood] at hrun
        rw [List.filter_cons_of_pos hgood, p.findAll_of_run hrun, ih htokens]
      · rw [if_neg hgood] at hrun
        rw [List.filter_cons_of_neg hgood,
          Recognizer.findAll_of_pieces (pieces_tag_append hp.starts ht hrun), ih htokens]

end TagSearch

/-! ## Cutting at a tag -/

/-- The tokens before the first occurrence of a tag, and the tokens after it. -/
def cutAtTag? (mark : List Char) : List Token → Option (List Token × List Token)
  | [] => none
  | t :: tokens =>
    if t = .found mark then some ([], tokens)
    else (cutAtTag? mark tokens).map fun (before, rest) => (t :: before, rest)

theorem cutAtTag?_eq_some_iff {mark : List Char} {tokens before rest : List Token} :
    cutAtTag? mark tokens = some (before, rest) ↔
      tokens = before ++ .found mark :: rest ∧ .found mark ∉ before := by
  induction tokens generalizing before with
  | nil => simp [cutAtTag?]
  | cons t tokens ih =>
    rw [cutAtTag?]
    split
    · next ht =>
      subst ht
      constructor
      · intro h
        cases h
        exact ⟨rfl, List.not_mem_nil⟩
      · rintro ⟨heq, hnot⟩
        cases before with
        | nil =>
          cases heq
          rfl
        | cons first before =>
          cases heq
          exact absurd List.mem_cons_self hnot
    · next ht =>
      constructor
      · intro h
        obtain ⟨⟨b, r⟩, hcut, hp⟩ := Option.map_eq_some_iff.1 h
        cases hp
        obtain ⟨rfl, hnot⟩ := ih.1 hcut
        refine ⟨rfl, fun hmem => ?_⟩
        rcases List.mem_cons.1 hmem with heq | hmem
        · exact ht heq.symm
        · exact hnot hmem
      · rintro ⟨heq, hnot⟩
        cases before with
        | nil =>
          cases heq
          exact absurd rfl ht
        | cons first before =>
          cases heq
          rw [ih.2 ⟨rfl, fun hmem => hnot (List.mem_cons_of_mem _ hmem)⟩]
          rfl

theorem cutAtTag?_eq_none_iff {mark : List Char} {tokens : List Token} :
    cutAtTag? mark tokens = none ↔ .found mark ∉ tokens := by
  induction tokens with
  | nil => simp [cutAtTag?]
  | cons t tokens ih =>
    rw [cutAtTag?, List.mem_cons, not_or]
    split
    · next ht => simp [ht]
    · next ht => simp [ih, Ne.symm ht]

/-- Cutting the text at a tag cuts the tokens at it. -/
theorem cutAt?_writeTokens {mark : List Char} (hmark : IsTag mark) {tokens : List Token}
    (h : Tokens tokens) :
    cutAt? mark (writeTokens tokens) =
      (cutAtTag? mark tokens).map fun (before, rest) => (writeTokens before, writeTokens rest) := by
  induction tokens with
  | nil =>
    obtain ⟨tail, rfl, -⟩ := hmark.exists_tail
    rfl
  | cons t tokens ih =>
    obtain ⟨ht, htokens⟩ := List.forall_mem_cons.1 h
    rw [cutAtTag?]
    cases t with
    | char c =>
      have hc : ∀ d ∈ [c], d ≠ '<' := by simpa using ht.1
      have hcut := hmark.cutAt?_append hc (writeTokens tokens)
      have hother : Piece.char c ≠ Piece.found mark := by
        intro heq
        cases heq
      rw [if_neg hother, writeTokens_char, Option.map_map]
      rw [ih htokens, Option.map_map] at hcut
      exact hcut
    | found tag =>
      by_cases hmarked : tag = mark
      · rw [if_pos (congrArg Piece.found hmarked), hmarked]
        exact cutAt?_of_after? (after?_eq_some_iff.2 rfl)
      · rw [if_neg fun heq => hmarked (Piece.found.inj heq), writeTokens_found,
          hmark.cutAt?_tag_append ht hmarked, ih htokens, Option.map_map, Option.map_map]
        rfl

/-! ## Rewriting tokens -/

/-- A way to rewrite the first tokens of a list. -/
structure Rewriter where
  /-- What stands in place of the first tokens, and the tokens after these. -/
  run : List Token → Option (List Token × List Token)
  /-- The rest is what comes after at least one token. -/
  exists_first : ∀ {tokens out rest : List Token}, run tokens = some (out, rest) →
    ∃ first, first ≠ [] ∧ tokens = first ++ rest

namespace Rewriter

theorem shorter (r : Rewriter) {tokens out rest : List Token} (h : r.run tokens = some (out, rest)) :
    rest.length < tokens.length := by
  obtain ⟨first, hfirst, rfl⟩ := r.exists_first h
  have hpos := List.length_pos_iff.2 hfirst
  rw [List.length_append]
  omega

/-- The tokens rewritten from left to right. -/
def rewrite (r : Rewriter) : List Token → List Token
  | [] => []
  | t :: tokens =>
    match _h : r.run (t :: tokens) with
    | some (out, rest) => out ++ r.rewrite rest
    | none => t :: r.rewrite tokens
termination_by tokens => tokens.length
decreasing_by
  · exact r.shorter _h
  · simp

variable {r : Rewriter}

@[simp] theorem rewrite_nil : r.rewrite [] = [] := by rw [rewrite]

theorem rewrite_of_run {tokens out rest : List Token} (h : r.run tokens = some (out, rest)) :
    r.rewrite tokens = out ++ r.rewrite rest := by
  cases tokens with
  | nil => exact absurd (r.shorter h) (Nat.not_lt_zero _)
  | cons t tokens =>
    rw [rewrite]
    split
    · next h' =>
      rw [h] at h'
      cases h'
      rfl
    · next h' =>
      rw [h] at h'
      cases h'

theorem rewrite_of_not_run {t : Token} {tokens : List Token} (h : r.run (t :: tokens) = none) :
    r.rewrite (t :: tokens) = t :: r.rewrite tokens := by
  rw [rewrite]
  split
  · next h' =>
    rw [h] at h'
    cases h'
  · rfl

/-- Tokens are rewritten from left to right, so a property is proved for tokens of which the first are
rewritten and for tokens of which the first stays. -/
theorem rewrite_induction {motive : List Token → Prop} (nil : motive [])
    (run : ∀ {tokens out rest : List Token}, r.run tokens = some (out, rest) → motive rest →
      motive tokens)
    (step : ∀ {t : Token} {tokens : List Token}, r.run (t :: tokens) = none → motive tokens →
      motive (t :: tokens)) (tokens : List Token) : motive tokens := by
  induction tokens using rewrite.induct r with
  | case1 => exact nil
  | case2 t tokens out rest hrun ih => exact run hrun ih
  | case3 t tokens hrun ih => exact step hrun ih

/-- What all tokens have is kept if each rewriting keeps it. -/
theorem forall_rewrite {P : Token → Prop}
    (hrun : ∀ {tokens out rest : List Token}, (∀ t ∈ tokens, P t) → r.run tokens = some (out, rest) →
      ∀ t ∈ out, P t) {tokens : List Token} (h : ∀ t ∈ tokens, P t) : ∀ t ∈ r.rewrite tokens, P t := by
  induction tokens using r.rewrite_induction with
  | nil => simp
  | @run tokens out rest hfirst ih =>
    obtain ⟨first, -, htokens⟩ := r.exists_first hfirst
    rw [rewrite_of_run hfirst]
    intro t ht
    rcases List.mem_append.1 ht with ht | ht
    · exact hrun h hfirst t ht
    · exact ih (fun other hother => h other (htokens ▸ List.mem_append_right _ hother)) t ht
  | @step t tokens hnone ih =>
    obtain ⟨ht, htokens⟩ := List.forall_mem_cons.1 h
    rw [rewrite_of_not_run hnone]
    exact List.forall_mem_cons.2 ⟨ht, ih htokens⟩

/-- A replacement in the text is a rewriting of the tokens if its matches are what is rewritten. -/
theorem replace_writeTokens {α : Type} {p : Recognizer α} {f : α → List Char}
    (hstarts : ∀ {c : Char} {s : List Char}, c ≠ '<' → p.run (c :: s) = none)
    (hnone : ∀ {t : Token} {tokens : List Token}, Tokens (t :: tokens) → r.run (t :: tokens) = none →
      p.run (writeTokens (t :: tokens)) = none)
    (hsome : ∀ {tokens out rest : List Token}, Tokens tokens → r.run tokens = some (out, rest) →
      ∃ a, p.run (writeTokens tokens) = some (a, writeTokens rest) ∧ f a = writeTokens out)
    {tokens : List Token} (h : Tokens tokens) :
    p.replace f (writeTokens tokens) = writeTokens (r.rewrite tokens) := by
  induction tokens using r.rewrite_induction with
  | nil => simp [Recognizer.replace]
  | @run tokens out rest hrun ih =>
    obtain ⟨first, -, htokens⟩ := r.exists_first hrun
    have hrest : Tokens rest := (Tokens.of_append (htokens ▸ h)).2
    obtain ⟨a, hmatch, hout⟩ := hsome h hrun
    rw [Recognizer.replace_of_run f hmatch, rewrite_of_run hrun, hout, ih hrest, writeTokens_append]
  | @step t tokens hrun ih =>
    have hpassed := hnone h hrun
    obtain ⟨ht, htokens⟩ := List.forall_mem_cons.1 h
    rw [rewrite_of_not_run hrun]
    cases t with
    | char c =>
      have hpieces : p.pieces (c :: writeTokens tokens) =
          [c].map .char ++ p.pieces (writeTokens tokens) := p.pieces_of_not_run hpassed
      rw [writeTokens_char, Recognizer.replace_of_pieces f hpieces, ih htokens]
      rfl
    | found tag =>
      have hpieces : p.pieces (tag ++ writeTokens tokens) =
          tag.map .char ++ p.pieces (writeTokens tokens) := pieces_tag_append hstarts ht hpassed
      rw [writeTokens_found, Recognizer.replace_of_pieces f hpieces, ih htokens]
      rfl

end Rewriter

end Assessment.Markup
