import Assessment.Html.Print
import Assessment.Html.Tree
import Assessment.Proofs.Markup.Tree

/-!
# Proofs: reading written HTML

A chunk of text *lexes* to some tokens if reading it, whatever follows, does to the tree that is being
built what these tokens do. Chunks can be put one after the other, so a whole text is read chunk by
chunk (`parse_of_lexes`): characters of text, references, start tags and end tags.
-/

namespace Assessment.Html

open Assessment.Markup Assessment.Text

/-- What the first reading makes of a tree that is being built, from a place on that may lie inside of an
element whose text is no markup: the tree, such an element, and the rest of the text. -/
def readFrom (raw : Option (List Char)) (b : Builder) (s : List Char) :
    Option (Builder × Option (List Char) × List Char) :=
  (run false raw s).map fun r => (r.tokens.foldl Builder.take b, r.raw, r.rest)

/-- What the first reading of a text makes of a tree that is being built: the tree, the element whose
text is no markup, and the rest of the text. -/
def readInto (b : Builder) (s : List Char) :
    Option (Builder × Option (List Char) × List Char) :=
  (run false none s).map fun r => (r.tokens.foldl Builder.take b, r.raw, r.rest)

/-- Reading the text, whatever follows, has the effect of some tokens. -/
def Lexes (s : List Char) (tokens : List Token) : Prop :=
  ∀ (b : Builder) (rest : List Char),
    readInto b (s ++ rest) = readInto (tokens.foldl Builder.take b) rest

theorem Lexes.nil : Lexes [] [] := fun _ _ => rfl

theorem Lexes.append {s t : List Char} {tokens more : List Token} (hs : Lexes s tokens)
    (ht : Lexes t more) : Lexes (s ++ t) (tokens ++ more) := by
  intro b rest
  rw [List.append_assoc, hs, ht, List.foldl_append]

/-- One step of the reading. -/
theorem readFrom_of_read {raw : Option (List Char)} {b : Builder} {s rest : List Char} {token : Token}
    (h : Step.next false raw s = .read token rest) :
    readFrom raw b s = readFrom (token.rawAfter raw) (b.take token) rest := by
  unfold readFrom
  rw [run]
  split
  · next token' rest' h' =>
    rw [h] at h'
    cases h'
    rw [Option.map_map]
    rfl
  · next h' =>
    rw [h] at h'
    cases h'
  · next h' =>
    rw [h] at h'
    cases h'

/-- One step of the reading, after which text is still markup. -/
theorem readInto_of_read {b : Builder} {s rest : List Char} {token : Token}
    (h : Step.inMarkup false s = .read token rest) (hraw : token.rawAfter none = none) :
    readInto b s = readInto (b.take token) rest := by
  have hstep := @readFrom_of_read none b s rest token h
  rwa [hraw] at hstep

theorem take_text_nil (b : Builder) : b.take (.text []) = b := by
  simp [Builder.take]

theorem take_text_append (b : Builder) (s t : List Char) :
    (b.take (.text s)).take (.text t) = b.take (.text (s ++ t)) := by
  simp [Builder.take]

/-- The end of the text ends the reading. -/
theorem readInto_nil (b : Builder) : readInto b [] = some (b, none, []) := by
  unfold readInto
  rw [run]
  simp [Step.next, Step.inMarkup, take_text_nil]

/-- A text that is read to its end makes what is built then. -/
theorem parse_of_readInto {s : List Char} {b : Builder} (h : readInto {} s = some (b, none, [])) :
    parse s = some b.finish := by
  obtain ⟨first, hfirst, hpair⟩ := Option.map_eq_some_iff.1 h
  simp only [Prod.mk.injEq] at hpair
  obtain ⟨htokens, hraw, hrest⟩ := hpair
  have hsecond : run true first.raw first.rest = some ⟨[.text []], none, []⟩ := by
    rw [hraw, hrest, run]
    simp [Step.next, Step.inMarkup]
  unfold parse tokenize
  simp [hfirst, hsecond, ofTokens, htokens, take_text_nil]

/-- What a text makes that lexes to some tokens is what the tokens make. -/
theorem parse_of_lexes {s : List Char} {tokens : List Token} (h : Lexes s tokens) :
    parse s = some (ofTokens tokens) := by
  have hread := h {} []
  rw [List.append_nil, readInto_nil] at hread
  exact parse_of_readInto hread

/-! ## Text -/

/-- Characters of text at the start of a text are read as text. -/
theorem takeWhile_dropWhile_isPlain (s : List Char) (b : Builder) :
    readInto (b.take (.text (s.takeWhile Step.isPlain))) (s.dropWhile Step.isPlain) =
      readInto b s := by
  cases s with
  | nil => rw [List.takeWhile_nil, List.dropWhile_nil, take_text_nil]
  | cons c s =>
    by_cases hc : Step.isPlain c
    · have hread : Step.inMarkup false (c :: s) =
          .read (.text (c :: s.takeWhile Step.isPlain)) (s.dropWhile Step.isPlain) := by
        simp only [Step.isPlain, Bool.and_eq_true, bne_iff_ne, ne_eq] at hc
        unfold Step.inMarkup
        split
        · next h => cases h
        · next h =>
          simp only [List.cons.injEq] at h
          exact absurd h.1 hc.1
        · next h =>
          simp only [List.cons.injEq] at h
          exact absurd h.1 hc.2
        · next h =>
          cases h
          rfl
      rw [List.takeWhile_cons_of_pos hc, List.dropWhile_cons_of_pos hc,
        readInto_of_read hread rfl]
    · rw [List.takeWhile_cons_of_neg hc, List.dropWhile_cons_of_neg hc, take_text_nil]

/-- A character that opens neither a tag nor a reference is text. -/
theorem lexes_singleton {c : Char} (h : c ≠ '<' ∧ c ≠ '&') : Lexes [c] [.text [c]] := by
  intro b rest
  have hc : Step.isPlain c := by simp [Step.isPlain, h]
  rw [List.singleton_append, ← takeWhile_dropWhile_isPlain (c :: rest), List.takeWhile_cons_of_pos hc,
    List.dropWhile_cons_of_pos hc, ← List.singleton_append, ← take_text_append,
    takeWhile_dropWhile_isPlain]
  rfl

/-- A reference is the text that it stands for. -/
theorem lexes_reference {s text : List Char}
    (h : ∀ rest, Step.inMarkup false (s ++ rest) = .read (.text text) rest) :
    Lexes s [.text text] := fun _ rest => readInto_of_read (h rest) rfl

/-- A reference to a known name is what the name stands for. -/
theorem lexes_name {name text : List Char} {c : Char} {t : List Char} (hcons : name = c :: t)
    (hc : c ≠ '#') (hname : Entity.ofName? name = some text)
    (h : ∀ rest, Reference.name? (name ++ ';' :: rest) = some (name, rest)) :
    Lexes ('&' :: name ++ [';']) [.text text] := by
  apply lexes_reference
  intro rest
  have hread := h rest
  have hstep : Step.inMarkup false ('&' :: name ++ [';'] ++ rest) =
      Step.atReference false (name ++ ';' :: rest) := by
    rw [List.cons_append, List.cons_append, List.append_assoc]
    rfl
  subst hcons
  rw [hstep]
  unfold Step.atReference
  split
  · next heq => cases heq
  · next heq =>
    simp only [List.cons_append, List.cons.injEq] at heq
    exact absurd heq.1 hc
  · next heq =>
    cases heq
    have htext : Reference.nameText (c :: t) = text := by rw [Reference.nameText, hname]; rfl
    simp only [hread, htext]

theorem lexes_amp : Lexes "&amp;".toList [.text ['&']] :=
  @lexes_name "amp".toList _ _ _ rfl (by decide) Entity.ofName?_amp fun _ => rfl

theorem lexes_lt : Lexes "&lt;".toList [.text ['<']] :=
  @lexes_name "lt".toList _ _ _ rfl (by decide) Entity.ofName?_lt fun _ => rfl

theorem lexes_gt : Lexes "&gt;".toList [.text ['>']] :=
  @lexes_name "gt".toList _ _ _ rfl (by decide) Entity.ofName?_gt fun _ => rfl

theorem lexes_quot : Lexes "&quot;".toList [.text ['\x22']] :=
  @lexes_name "quot".toList _ _ _ rfl (by decide) Entity.ofName?_quot fun _ => rfl

theorem lexes_apostrophe : Lexes "&#x27;".toList [.text ['\x27']] :=
  lexes_reference fun _ => rfl

/-- An escaped character is read as that character. -/
theorem lexes_escapeChar (c : Char) : Lexes (escapeChar c) [.text [c]] := by
  unfold escapeChar
  split
  · next h => subst h; exact lexes_amp
  split
  · next h => subst h; exact lexes_lt
  split
  · next h => subst h; exact lexes_gt
  split
  · next h => subst h; exact lexes_quot
  split
  · next h => subst h; exact lexes_apostrophe
  · next hamp hlt _ _ _ => exact lexes_singleton ⟨hlt, hamp⟩

theorem lexes_escapeTextChar (c : Char) : Lexes (escapeTextChar c) [.text [c]] := by
  unfold escapeTextChar
  split
  · next h => subst h; exact lexes_amp
  split
  · next h => subst h; exact lexes_lt
  split
  · next h => subst h; exact lexes_gt
  · next hamp hlt _ => exact lexes_singleton ⟨hlt, hamp⟩

/-- Text that is written character by character is read as that text. -/
theorem lexes_flatMap {f : Char → List Char} (hf : ∀ c, Lexes (f c) [.text [c]]) (s : List Char) :
    Lexes (s.flatMap f) [.text s] := by
  induction s with
  | nil =>
    intro b rest
    rw [List.flatMap_nil, List.nil_append, List.foldl_cons, take_text_nil]
    rfl
  | cons c s ih =>
    intro b rest
    rw [List.flatMap_cons, List.append_assoc, hf c b, ih]
    simp only [List.foldl_cons, List.foldl_nil, take_text_append, List.singleton_append]

theorem lexes_escape (s : List Char) : Lexes (escape s) [.text s] := lexes_flatMap lexes_escapeChar s

theorem lexes_escapeText (s : List Char) : Lexes (escapeText s) [.text s] :=
  lexes_flatMap lexes_escapeTextChar s

end Assessment.Html
