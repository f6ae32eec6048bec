import Assessment.Markup.RawTag
import Assessment.Proofs.Markup.Escape

/-!
# Proofs: the text that HTML shows

HTML shows what is left of it without its tags. `Shows html text` says this by the shape of the HTML,
where every angle bracket belongs to a tag, and `stripTags_of_shows` that it is what deleting the tags
gives. A recogniser that is `Whole` never cuts a tag in two, so a replacement with it shows the same
text as before if each single match does (`Shows.replace`).
-/

namespace Assessment.Markup

open Assessment.Text

/-! ## Tags -/

/-- The text holds no angle bracket. -/
def Unbracketed (s : List Char) : Prop := ∀ c ∈ s, c ≠ '<' ∧ c ≠ '>'

instance (s : List Char) : Decidable (Unbracketed s) :=
  inferInstanceAs (Decidable (∀ c ∈ s, c ≠ '<' ∧ c ≠ '>'))

theorem Unbracketed.of_subset {s t : List Char} (ht : Unbracketed t) (h : s ⊆ t) :
    Unbracketed s := fun c hc => ht c (h hc)

theorem Unbracketed.append {s t : List Char} (hs : Unbracketed s) (ht : Unbracketed t) :
    Unbracketed (s ++ t) := fun c hc => (List.mem_append.1 hc).elim (hs c) (ht c)

theorem Unbracketed.cons {c : Char} {s : List Char} (h1 : c ≠ '<') (h2 : c ≠ '>')
    (hs : Unbracketed s) : Unbracketed (c :: s) := List.forall_mem_cons.2 ⟨⟨h1, h2⟩, hs⟩

theorem unbracketed_escape (s : List Char) : Unbracketed (escape s) := fun _ hc =>
  ⟨(ne_of_mem_escape hc).1, (ne_of_mem_escape hc).2.1⟩

/-- The text is one tag, with no angle brackets but those at its ends. -/
inductive IsTag : List Char → Prop where
  | intro {inside : List Char} (h : Unbracketed inside) : IsTag ('<' :: inside ++ ['>'])

theorem IsTag.unbracketed_inside {inside : List Char} (h : IsTag ('<' :: inside ++ ['>'])) :
    Unbracketed inside := by
  generalize htag : '<' :: inside ++ ['>'] = tag at h
  obtain ⟨hinside⟩ := h
  rw [List.append_cancel_right (List.cons.inj htag).2]
  exact hinside

/-- A tag ends at the first closing bracket. -/
theorem IsTag.cutAtChar? {tag : List Char} (h : IsTag tag) (rest : List Char) :
    ∃ inside, tag = '<' :: inside ++ ['>'] ∧
      cutAtChar? '>' (tag ++ rest) = some ('<' :: inside, rest) := by
  obtain ⟨hinside⟩ := h
  rename_i inside
  refine ⟨inside, rfl, ?_⟩
  have hmem : '>' ∉ '<' :: inside := by
    rw [List.mem_cons, not_or]
    exact ⟨by decide, fun hm => (hinside _ hm).2 rfl⟩
  rw [List.append_assoc]
  exact cutAtChar?_append_cons hmem rest

/-- What text starts with a tag does so in one way. -/
theorem IsTag.append_inj {tag tag' rest rest' : List Char} (h : IsTag tag) (h' : IsTag tag')
    (heq : tag ++ rest = tag' ++ rest') : tag = tag' ∧ rest = rest' := by
  obtain ⟨inside, rfl, hcut⟩ := h.cutAtChar? rest
  obtain ⟨inside', rfl, hcut'⟩ := h'.cutAtChar? rest'
  rw [heq, hcut'] at hcut
  cases hcut
  exact ⟨rfl, rfl⟩

/-! ## What HTML shows -/

/-- The HTML is made of tags and of text without angle brackets, and the text outside its tags is the
given one. -/
inductive Shows : List Char → List Char → Prop where
  | nil : Shows [] []
  | char {c : Char} {html text : List Char} (h1 : c ≠ '<') (h2 : c ≠ '>') (h : Shows html text) :
      Shows (c :: html) (c :: text)
  | tag {tag html text : List Char} (htag : IsTag tag) (h : Shows html text) :
      Shows (tag ++ html) text

namespace Shows

theorem append {html html' text text' : List Char} (h : Shows html text) (h' : Shows html' text') :
    Shows (html ++ html') (text ++ text') := by
  induction h with
  | nil => exact h'
  | char h1 h2 _ ih => exact .char h1 h2 ih
  | tag htag _ ih =>
    rw [List.append_assoc]
    exact .tag htag ih

theorem of_isTag {tag : List Char} (h : IsTag tag) : Shows tag [] := by
  simpa using Shows.tag h .nil

theorem of_unbracketed {s : List Char} (h : Unbracketed s) : Shows s s := by
  induction s with
  | nil => exact .nil
  | cons c s ih =>
    obtain ⟨hc, hs⟩ := List.forall_mem_cons.1 h
    exact .char hc.1 hc.2 (ih hs)

/-- HTML that starts with an opening bracket starts with a tag. -/
theorem exists_tag {s text : List Char} (h : Shows ('<' :: s) text) :
    ∃ tag rest, '<' :: s = tag ++ rest ∧ IsTag tag ∧ Shows rest text := by
  generalize hs : '<' :: s = html at h
  cases h with
  | nil => cases hs
  | char h1 _ _ =>
    cases hs
    exact absurd rfl h1
  | tag htag h => exact ⟨_, _, rfl, htag, h⟩

theorem of_cons {c : Char} {html text : List Char} (hc : c ≠ '<') (h : Shows (c :: html) text) :
    ∃ left, text = c :: left ∧ Shows html left := by
  generalize hs : c :: html = html' at h
  cases h with
  | nil => cases hs
  | char _ _ h =>
    cases hs
    exact ⟨_, rfl, h⟩
  | tag htag _ =>
    obtain ⟨_⟩ := htag
    simp only [List.cons_append, List.cons.injEq] at hs
    exact absurd hs.1 hc

/-- Text without brackets at the start of HTML is shown first. -/
theorem of_unbracketed_append {s html text : List Char} (hs : ∀ c ∈ s, c ≠ '<')
    (h : Shows (s ++ html) text) : ∃ left, text = s ++ left ∧ Shows html left := by
  induction s generalizing text with
  | nil => exact ⟨text, rfl, h⟩
  | cons c s ih =>
    obtain ⟨hc, hs⟩ := List.forall_mem_cons.1 hs
    obtain ⟨shown, rfl, hrest⟩ := of_cons hc h
    obtain ⟨left, rfl, hleft⟩ := ih hs hrest
    exact ⟨left, rfl, hleft⟩

end Shows

/-! ## Deleting tags -/

/-- The tag that a text starts with, and the rest of the text. -/
def anyTag? : List Char → Option (List Char × List Char)
  | '<' :: s => (cutAtChar? '>' s).map fun (inside, rest) => ('<' :: inside ++ ['>'], rest)
  | _ => none

theorem length_of_anyTag? {s tag rest : List Char} (h : anyTag? s = some (tag, rest)) :
    rest.length < s.length := by
  unfold anyTag? at h
  split at h
  · obtain ⟨⟨inside, r⟩, hcut, hp⟩ := Option.map_eq_some_iff.1 h
    cases hp
    have := length_of_cutAtChar? hcut
    simp only [List.length_cons]
    omega
  · cases h

/-- Recognises tags of every name. -/
def anyTag : Recognizer (List Char) := ⟨anyTag?, length_of_anyTag?⟩

/-- The text with every tag deleted. -/
def stripTags (s : List Char) : List Char := anyTag.replace (fun _ => []) s

theorem anyTag?_append {tag : List Char} (h : IsTag tag) (rest : List Char) :
    anyTag? (tag ++ rest) = some (tag, rest) := by
  obtain ⟨hinside⟩ := h
  rename_i inside
  have hcut : cutAtChar? '>' (inside ++ '>' :: rest) = some (inside, rest) :=
    cutAtChar?_append_cons (fun hm => (hinside _ hm).2 rfl) rest
  rw [List.append_assoc, List.cons_append, List.singleton_append]
  simp [anyTag?, hcut]

theorem anyTag?_cons {c : Char} (h : c ≠ '<') (s : List Char) : anyTag? (c :: s) = none := by
  unfold anyTag?
  split
  · next heq =>
    cases heq
    exact absurd rfl h
  · rfl

/-- What HTML shows is what deleting its tags leaves. -/
theorem stripTags_of_shows {html text : List Char} (h : Shows html text) : stripTags html = text := by
  induction h with
  | nil => simp [stripTags, Recognizer.replace]
  | char h1 _ _ ih =>
    unfold stripTags Recognizer.replace at ih ⊢
    rw [anyTag.pieces_of_not_run (anyTag?_cons h1 _), List.flatMap_cons, ih, List.singleton_append]
  | tag htag _ ih =>
    unfold stripTags Recognizer.replace at ih ⊢
    rw [anyTag.pieces_of_run (anyTag?_append htag _), List.flatMap_cons, ih, List.nil_append]

/-! ## Cutting at tags -/

/-- Only the first character of a tag is an opening bracket. -/
theorem IsTag.exists_tail {tag : List Char} (h : IsTag tag) :
    ∃ tail, tag = '<' :: tail ∧ ∀ c ∈ tail, c ≠ '<' := by
  obtain ⟨hinside⟩ := h
  rename_i inside
  refine ⟨inside ++ ['>'], rfl, fun c hc => ?_⟩
  rcases List.mem_append.1 hc with hc | hc
  · exact (hinside c hc).1
  · rw [List.mem_singleton.1 hc]
    decide

theorem cutAt?_of_after? {mark s rest : List Char} (h : after? mark s = some rest) :
    cutAt? mark s = some ([], rest) := by
  cases s with
  | nil =>
    obtain ⟨rfl, rfl⟩ := List.append_eq_nil_iff.1 (after?_eq_some_iff.1 h).symm
    rfl
  | cons c s => rw [cutAt?, h]

theorem cutAt?_cons_of_after? {mark s : List Char} {c : Char} (h : after? mark (c :: s) = none) :
    cutAt? mark (c :: s) = (cutAt? mark s).map fun (before, rest) => (c :: before, rest) := by
  rw [cutAt?, h]

/-- A search for a tag passes over text without an opening bracket. -/
theorem IsTag.cutAt?_append {mark before : List Char} (h : IsTag mark)
    (hbefore : ∀ c ∈ before, c ≠ '<') (s : List Char) :
    cutAt? mark (before ++ s) = (cutAt? mark s).map fun (b, rest) => (before ++ b, rest) := by
  obtain ⟨tail, rfl, -⟩ := h.exists_tail
  induction before with
  | nil => simp
  | cons c before ih =>
    obtain ⟨hc, hbefore⟩ := List.forall_mem_cons.1 hbefore
    rw [List.cons_append, cutAt?_cons_of_after? (by simp [after?, Ne.symm hc]), ih hbefore,
      Option.map_map]
    rfl

/-- HTML is cut at a tag into the HTML before it and the HTML after it. -/
theorem Shows.of_cutAt? {mark html text before rest : List Char} (hmark : IsTag mark)
    (h : Shows html text) (hcut : cutAt? mark html = some (before, rest)) :
    ∃ shown left, text = shown ++ left ∧ Shows before shown ∧ Shows rest left := by
  induction h generalizing before with
  | nil =>
    obtain ⟨tail, rfl, -⟩ := hmark.exists_tail
    cases hcut
  | @char c html text h1 h2 h ih =>
    rw [← List.singleton_append, hmark.cutAt?_append (by simpa using h1) html] at hcut
    obtain ⟨⟨b, r⟩, hbr, hp⟩ := Option.map_eq_some_iff.1 hcut
    cases hp
    obtain ⟨shown, left, rfl, hb, hr⟩ := ih hbr
    exact ⟨c :: shown, left, rfl, .char h1 h2 hb, hr⟩
  | @tag tag html text htag h ih =>
    cases hafter : after? mark (tag ++ html) with
    | some r =>
      rw [cutAt?_of_after? hafter] at hcut
      cases hcut
      obtain ⟨-, rfl⟩ := htag.append_inj hmark (after?_eq_some_iff.1 hafter)
      exact ⟨[], text, rfl, .nil, h⟩
    | none =>
      obtain ⟨tail, rfl, htail⟩ := htag.exists_tail
      rw [List.cons_append] at hafter hcut
      rw [cutAt?_cons_of_after? hafter, hmark.cutAt?_append htail,
        Option.map_map] at hcut
      obtain ⟨⟨b, r⟩, hbr, hp⟩ := Option.map_eq_some_iff.1 hcut
      cases hp
      obtain ⟨shown, left, rfl, hb, hr⟩ := ih hbr
      exact ⟨shown, left, rfl, .tag htag hb, hr⟩

/-- A tag ends at its first closing bracket. -/
theorem RawTag.exists_inside {opening s tag rest : List Char}
    (h : RawTag.tag? opening s = some (tag, rest)) :
    ∃ inside, tag = opening ++ inside ++ ['>'] ∧ '>' ∉ inside := by
  unfold RawTag.tag? at h
  split at h
  · cases h
  · split at h
    · obtain ⟨⟨inside, r⟩, hcut, hp⟩ := Option.map_eq_some_iff.1 h
      cases hp
      exact ⟨inside, rfl, not_mem_of_cutAtChar? hcut⟩
    · cases h

/-- A tag that is found at the start of HTML is the first tag of that HTML. -/
theorem Shows.of_tag? {name html text tag rest : List Char} (hname : '>' ∉ name)
    (h : Shows html text) (htag : RawTag.tag? ('<' :: name) html = some (tag, rest)) :
    IsTag tag ∧ Shows rest text := by
  have hhtml := RawTag.tag?_append htag
  obtain ⟨inside, rfl, hinside⟩ := RawTag.exists_inside htag
  have hmem : '>' ∉ '<' :: (name ++ inside) := by
    simp only [List.mem_cons, List.mem_append, not_or]
    exact ⟨by decide, hname, hinside⟩
  subst hhtml
  have hcut : cutAtChar? '>' ('<' :: name ++ inside ++ ['>'] ++ rest) =
      some ('<' :: (name ++ inside), rest) := by
    rw [List.append_assoc]
    exact cutAtChar?_append_cons hmem rest
  obtain ⟨tag', rest', heq, htag', hrest⟩ := h.exists_tag
  obtain ⟨inside', rfl, hcut'⟩ := htag'.cutAtChar? rest'
  have heq' : '<' :: name ++ inside ++ ['>'] ++ rest = '<' :: inside' ++ ['>'] ++ rest' := heq
  rw [heq', hcut'] at hcut
  cases hcut
  exact ⟨htag', hrest⟩

/-! ## Replacing in HTML -/

section Replacing

variable {α : Type} {p : Recognizer α} {Q : α → List Char → Prop}

/-- The recogniser matches only at tags, and what it leaves is HTML again. `Q` says what its matches are
and what they show. -/
structure Whole (p : Recognizer α) (Q : α → List Char → Prop) : Prop where
  /-- Matches start with an opening bracket. -/
  starts : ∀ {c : Char} {s : List Char}, c ≠ '<' → p.run (c :: s) = none
  /-- A match at the start of HTML shows a first part of the text, and the rest shows the rest. -/
  splits : ∀ {html text rest : List Char} {a : α}, Shows html text → p.run html = some (a, rest) →
    ∃ shown left, text = shown ++ left ∧ Q a shown ∧ Shows rest left

/-- The pieces of HTML, and the text that the HTML shows. -/
inductive PiecesShow (Q : α → List Char → Prop) : List (Piece α) → List Char → Prop where
  | nil : PiecesShow Q [] []
  | char {c : Char} {pieces : List (Piece α)} {text : List Char} (h1 : c ≠ '<') (h2 : c ≠ '>')
      (h : PiecesShow Q pieces text) : PiecesShow Q (.char c :: pieces) (c :: text)
  | tag {tag : List Char} {pieces : List (Piece α)} {text : List Char} (htag : IsTag tag)
      (h : PiecesShow Q pieces text) : PiecesShow Q (tag.map .char ++ pieces) text
  | found {a : α} {pieces : List (Piece α)} {shown text : List Char} (ha : Q a shown)
      (h : PiecesShow Q pieces text) : PiecesShow Q (.found a :: pieces) (shown ++ text)

/-- HTML is cut into pieces that show what it shows. -/
theorem Whole.piecesShow (hp : Whole p Q) {html text : List Char} (h : Shows html text) :
    PiecesShow Q (p.pieces html) text := by
  -- A match can swallow several tags, so the induction is on the length and not on `h`.
  induction hn : html.length using Nat.strongRecOn generalizing html text with
  | ind n ih =>
    cases h with
    | nil =>
      rw [p.pieces_nil]
      exact .nil
    | @char c html text h1 h2 h =>
      rw [p.pieces_of_not_run (hp.starts h1)]
      exact .char h1 h2 (ih html.length (by simp [← hn]) h rfl)
    | @tag tag html _ htag h =>
      obtain ⟨tail, rfl, htail⟩ := htag.exists_tail
      cases hrun : p.run ('<' :: tail ++ html) with
      | some found =>
        obtain ⟨a, rest⟩ := found
        obtain ⟨shown, left, rfl, ha, hrest⟩ := hp.splits (.tag htag h) hrun
        rw [p.pieces_of_run hrun]
        exact .found ha (ih rest.length (hn ▸ p.shorter hrun) hrest rfl)
      | none =>
        rw [List.cons_append] at hrun ⊢
        rw [p.pieces_of_not_run hrun, p.pieces_append_of_starts hp.starts htail]
        refine .tag htag (ih html.length ?_ h rfl)
        rw [← hn, List.length_append, List.length_cons]
        omega

/-- Replacing matches by what shows the same text leaves the text that is shown. -/
theorem Shows.replace (hp : Whole p Q) {f : α → List Char}
    (hf : ∀ {a : α} {shown : List Char}, Q a shown → Shows (f a) shown) {html text : List Char}
    (h : Shows html text) : Shows (p.replace f html) text := by
  unfold Recognizer.replace
  have hpieces := hp.piecesShow h
  generalize p.pieces html = pieces at hpieces
  clear h
  induction hpieces with
  | nil => exact .nil
  | char h1 h2 _ ih => exact .char h1 h2 ih
  | @tag tag pieces _ htag _ ih =>
    rw [List.flatMap_append, List.flatMap_map]
    simpa using Shows.tag htag ih
  | found ha _ ih => exact (hf ha).append ih

theorem PiecesShow.of_mem {pieces : List (Piece α)} {text : List Char} {a : α}
    (h : PiecesShow Q pieces text) (ha : .found a ∈ pieces) : ∃ shown, Q a shown := by
  induction h with
  | nil => cases ha
  | char _ _ _ ih => exact ih (by simpa using ha)
  | tag _ _ ih => exact ih (by simpa using ha)
  | found hQ _ ih =>
    rcases List.mem_cons.1 ha with heq | ha
    · cases heq
      exact ⟨_, hQ⟩
    · exact ih ha

/-- What is found in HTML is a match at a tag. -/
theorem Shows.of_mem_findAll (hp : Whole p Q) {html text : List Char} {a : α} (h : Shows html text)
    (ha : a ∈ p.findAll html) : ∃ shown, Q a shown := (hp.piecesShow h).of_mem (Piece.found_mem ha)

end Replacing

end Assessment.Markup
