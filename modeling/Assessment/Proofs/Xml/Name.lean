import Mathlib.Data.List.TakeWhile
import Assessment.Proofs.Markup.Shown
import Assessment.Text.Blank
import Assessment.Xml.Token

/-!
# Proofs: names in tokens

The names that the tokens of content carry are made of the characters of names, and so they hold no
bracket and no brace.
-/

namespace Assessment.Xml

open Assessment.Text Assessment.Markup

/-- What succeeds after something else does so with what that gave. -/
theorem exists_of_bind {ε α β : Type} {x : Except ε α} {f : α → Except ε β} {b : β}
    (h : x >>= f = .ok b) : ∃ a, x = .ok a ∧ f a = .ok b := by
  cases x with
  | error e => cases h
  | ok a => exact ⟨a, rfl, h⟩

/-! ## The characters of names -/

/-- The text is made of the characters of names and of colons. -/
def NameLike (s : List Char) : Prop := ∀ c ∈ s, isNameChar c = true ∨ c = ':'

theorem NameLike.of_subset {s t : List Char} (ht : NameLike t) (h : s ⊆ t) : NameLike s :=
  fun c hc => ht c (h hc)

theorem NameLike.append {s t : List Char} (hs : NameLike s) (ht : NameLike t) : NameLike (s ++ t) :=
  fun c hc => (List.mem_append.1 hc).elim (hs c) (ht c)

/-- The characters of markup are none of names. -/
theorem NameLike.ne {s : List Char} (h : NameLike s) {c : Char} (hc : c ∈ s) :
    c ≠ '<' ∧ c ≠ '>' ∧ c ≠ '{' ∧ c ≠ '}' := by
  refine ⟨?_, ?_, ?_, ?_⟩ <;> rintro rfl <;> rcases h _ hc with h | h <;>
    exact absurd h (by decide +kernel)

/-- A character in ranges that are apart from white space is no white space. -/
theorem not_isBlank_of_apart {ranges : Ranges}
    (h : ∀ range ∈ ranges, ∀ blank ∈ blankRanges, range.2 < blank.1 ∨ blank.2 < range.1) {c : Char}
    (hc : ranges.mem c.toNat = true) : isBlank c = false := by
  refine eq_false_of_ne_true fun hblank => ?_
  obtain ⟨range, hrange, hlow, hhigh⟩ := Ranges.mem_iff.1 hc
  obtain ⟨blank, hmem, hlow', hhigh'⟩ := Ranges.mem_iff.1 hblank
  rcases h range hrange blank hmem with hbefore | hafter
  · omega
  · omega

/-- No character of a name is white space. -/
theorem NameLike.isBlank {s : List Char} (h : NameLike s) : ∀ c ∈ s, isBlank c = false := by
  intro c hc
  rcases h c hc with hname | rfl
  · rcases Bool.or_eq_true_iff.1 hname with hstart | hpart
    · exact not_isBlank_of_apart (by decide +kernel) hstart
    · exact not_isBlank_of_apart (by decide +kernel) hpart
  · decide +kernel

theorem NameLike.unbracketed {s : List Char} (h : NameLike s) : Unbracketed s := fun _ hc =>
  ⟨(h.ne hc).1, (h.ne hc).2.1⟩

theorem nameLike_takeWhile (s : List Char) : NameLike (s.takeWhile isNameChar) := fun c hc =>
  .inl (List.all_eq_true.1 List.all_takeWhile c hc)

theorem nameLike_of_plainName? {s name rest : List Char} (h : plainName? s = some (name, rest)) :
    NameLike name := by
  unfold plainName? at h
  split at h
  · cases h
  · next c s =>
    split at h
    · next hc =>
      cases h
      refine List.forall_mem_cons.2 ⟨.inl ?_, nameLike_takeWhile s⟩
      rw [isNameChar, hc, Bool.true_or]
    · cases h

theorem nameLike_of_qualifiedName? {s name rest : List Char}
    (h : qualifiedName? s = some (name, rest)) : NameLike name := by
  unfold qualifiedName? at h
  split at h
  · next first rest' hfirst =>
    obtain ⟨⟨second, r⟩, hsecond, hp⟩ := Option.map_eq_some_iff.1 h
    cases hp
    exact (nameLike_of_plainName? hfirst).append <|
      List.forall_mem_cons.2 ⟨.inr rfl, nameLike_of_plainName? hsecond⟩
  · exact nameLike_of_plainName? h

/-! ## The part of a name after its prefix -/

/-- The text is like a name, and not empty. -/
structure IsName (s : List Char) : Prop where
  /-- It is made of the characters of names. -/
  like : NameLike s
  /-- It has characters. -/
  ne_nil : s ≠ []

theorem splitName_of_not_mem {name : List Char} (h : ':' ∉ name) : splitName name = (none, name) := by
  have hdrop : name.dropWhile (· != ':') = [] :=
    List.dropWhile_eq_nil_iff.2 fun c hc => bne_iff_ne.2 fun heq => h (heq ▸ hc)
  unfold splitName
  rw [hdrop]

theorem splitName_append_cons {first : List Char} (h : ':' ∉ first) (second : List Char) :
    splitName (first ++ ':' :: second) = (some first, second) := by
  have hall : ∀ c ∈ first, (c != ':') = true := fun c hc => bne_iff_ne.2 fun heq => h (heq ▸ hc)
  obtain ⟨htake, hdrop⟩ := span_append_cons hall (by decide : (':' != ':') = false) second
  unfold splitName
  rw [htake, hdrop]

/-- A name without a prefix is a name, and holds no colon. -/
theorem isName_of_plainName? {s name rest : List Char} (h : plainName? s = some (name, rest)) :
    IsName name ∧ ':' ∉ name := by
  have hlike := nameLike_of_plainName? h
  have hcolon : isNameChar ':' = false := by decide +kernel
  unfold plainName? at h
  split at h
  · cases h
  · next c s =>
    split at h
    · next hc =>
      cases h
      refine ⟨⟨hlike, List.cons_ne_nil _ _⟩, fun hmem => ?_⟩
      have hstart : isNameChar c = true := by rw [isNameChar, hc, Bool.true_or]
      rcases List.mem_cons.1 hmem with rfl | hmem
      · rw [hstart] at hcolon
        cases hcolon
      · rw [List.all_eq_true.1 List.all_takeWhile ':' hmem] at hcolon
        cases hcolon
    · cases h

/-- A name that is read has a part after its prefix. -/
theorem isName_splitName_of_qualifiedName? {s name rest : List Char}
    (h : qualifiedName? s = some (name, rest)) : IsName (splitName name).2 := by
  unfold qualifiedName? at h
  split at h
  · next first rest' hfirst =>
    obtain ⟨⟨second, r⟩, hsecond, hp⟩ := Option.map_eq_some_iff.1 h
    cases hp
    rw [splitName_append_cons (isName_of_plainName? hfirst).2]
    exact (isName_of_plainName? hsecond).1
  · obtain ⟨hname, hcolon⟩ := isName_of_plainName? h
    rw [splitName_of_not_mem hcolon]
    exact hname

/-! ## Tokens -/

/-- All attributes have names. -/
def NamedAttributes (attributes : List RawAttribute) : Prop :=
  ∀ a ∈ attributes, IsName (splitName a.1).2

namespace Token

/-- A start tag has a name, and so have its attributes. -/
def Named : Token → Prop
  | .start name attributes _ => NameLike name ∧ NamedAttributes attributes
  | _ => True

theorem namedAttributes_of_attributes {fuel : Nat} {s rest : List Char}
    {found attributes : List RawAttribute} {empty : Bool} (hfound : NamedAttributes found)
    (h : Token.attributes fuel s found = .ok ((attributes, empty), rest)) :
    NamedAttributes attributes := by
  induction fuel generalizing s found with
  | zero => cases h
  | succ fuel ih =>
    unfold Token.attributes at h
    split at h
    · cases h
    · cases h
      exact fun a ha => hfound a (List.mem_reverse.1 ha)
    · cases h
      exact fun a ha => hfound a (List.mem_reverse.1 ha)
    · split at h
      · cases h
      · split at h
        · cases h
        · next name afterName hname =>
          split at h
          · obtain ⟨⟨value, rest'⟩, -, h⟩ := exists_of_bind h
            exact ih (List.forall_mem_cons.2 ⟨isName_splitName_of_qualifiedName? hname, hfound⟩) h
          · cases h
          · cases h

theorem named_of_tag {s rest : List Char} {token : Token} (h : Token.tag s = .ok (token, rest)) :
    token.Named := by
  unfold Token.tag at h
  split at h
  · obtain ⟨rest', -, h⟩ := exists_of_bind h
    cases h
    trivial
  · obtain ⟨rest', -, h⟩ := exists_of_bind h
    cases h
    trivial
  · unfold endTag at h
    split at h
    · cases h
    · split at h <;> cases h
      trivial
  · split at h
    · split at h <;> cases h
      trivial
    · split at h
      · cases h
      · next name rest' hname =>
        obtain ⟨⟨⟨attributes, empty⟩, rest''⟩, hattributes, h⟩ := exists_of_bind h
        cases h
        exact ⟨nameLike_of_qualifiedName? hname,
          namedAttributes_of_attributes (fun _ ha => absurd ha List.not_mem_nil) hattributes⟩

theorem named_of_next {s rest : List Char} {token : Token} (h : Token.next s = .ok (token, rest)) :
    token.Named := by
  unfold Token.next at h
  split at h
  · exact named_of_tag h
  · split at h <;> cases h <;> trivial
  · dsimp only at h
    split at h <;> cases h
    trivial

/-- Every token of a text is named. -/
theorem named_of_list {s : List Char} {tokens : List Token} (h : Token.list s = .ok tokens) :
    ∀ token ∈ tokens, token.Named := by
  unfold Token.list at h
  generalize s.length = fuel at h
  induction fuel generalizing s tokens with
  | zero =>
    cases s with
    | nil =>
      cases h
      exact fun _ ht => absurd ht List.not_mem_nil
    | cons c s => cases h
  | succ fuel ih =>
    cases s with
    | nil =>
      cases h
      exact fun _ ht => absurd ht List.not_mem_nil
    | cons c s =>
      obtain ⟨⟨token, rest⟩, hnext, h⟩ := exists_of_bind h
      obtain ⟨tokens', htokens, h⟩ := exists_of_bind h
      cases h
      exact List.forall_mem_cons.2 ⟨named_of_next hnext, ih htokens⟩

end Token

end Assessment.Xml
