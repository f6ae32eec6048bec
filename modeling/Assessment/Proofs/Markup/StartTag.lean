import Assessment.Proofs.Markup.Shown
import Assessment.Proofs.Text.Lower
import Assessment.Proofs.Text.Split
import Assessment.Report.Language

/-!
# Proofs: edited start tags

A tag that is edited as text stays one tag. What is read from a tag stands between its brackets, so it
holds none itself, and neither does what is made of it.
-/

namespace Assessment.Text

open Assessment.Markup

/-! ## Texts made of texts -/

/-- Every match in a text is a match at one of its ends, if a match leaves an end of the text. -/
theorem Recognizer.exists_of_mem_findAll {α : Type} {p : Recognizer α}
    (hp : ∀ {s r : List Char} {a : α}, p.run s = some (a, r) → r <:+ s) {s : List Char} {a : α}
    (h : a ∈ p.findAll s) : ∃ t r, t <:+ s ∧ p.run t = some (a, r) := by
  induction hn : s.length using Nat.strongRecOn generalizing s with
  | ind n ih =>
    cases s with
    | nil => simp at h
    | cons c s =>
      cases hrun : p.run (c :: s) with
      | none =>
        rw [p.findAll_of_not_run hrun] at h
        obtain ⟨t, r, ht, hr⟩ := ih s.length (by simp [← hn]) h rfl
        exact ⟨t, r, ht.trans (List.suffix_cons c s), hr⟩
      | some found =>
        obtain ⟨b, rest⟩ := found
        rw [p.findAll_of_run hrun] at h
        rcases List.mem_cons.1 h with rfl | h
        · exact ⟨c :: s, rest, List.suffix_rfl, hrun⟩
        · obtain ⟨t, r, ht, hr⟩ := ih rest.length (hn ▸ p.shorter hrun) h rfl
          exact ⟨t, r, ht.trans (hp hrun), hr⟩

theorem subset_of_mem_wordsFrom {word s w : List Char} (h : w ∈ wordsFrom word s) :
    w ⊆ word.reverse ++ s := by
  induction s generalizing word with
  | nil =>
    rw [wordsFrom] at h
    split at h
    · cases h
    · rw [List.mem_singleton.1 h]
      simp
  | cons c s ih =>
    have hskip : w ∈ wordsFrom [] s → w ⊆ word.reverse ++ c :: s := fun hw =>
      List.Subset.trans (ih hw) (by simp)
    rw [wordsFrom] at h
    split at h
    · split at h
      · exact hskip h
      · rcases List.mem_cons.1 h with rfl | h
        · simp
        · exact hskip h
    · simpa using ih h

/-- A word of a text is made of characters of the text. -/
theorem subset_of_mem_words {s w : List Char} (h : w ∈ words s) : w ⊆ s := by
  simpa using subset_of_mem_wordsFrom h

theorem unbracketed_joinWith {separator : List Char} (hseparator : Unbracketed separator)
    {parts : List (List Char)} (h : ∀ part ∈ parts, Unbracketed part) :
    Unbracketed (joinWith separator parts) := forall_mem_joinWith hseparator h

theorem unbracketed_replaceChar {mark : Char} {replacement s : List Char}
    (hreplacement : Unbracketed replacement) (h : Unbracketed s) :
    Unbracketed (replaceChar mark replacement s) :=
  forall_mem_replaceChar hreplacement fun c hc _ => h c hc

/-! ## Lower case -/

/-- No letter is a bracket: these have smaller numbers than all letters. -/
theorem IsLate.unbracketed {c : Char} (h : IsLate c) : c ≠ '<' ∧ c ≠ '>' := by
  refine ⟨?_, ?_⟩ <;> rintro rfl <;> exact absurd h (by decide)

theorem unbracketed_lower {s : List Char} (h : Unbracketed s) : Unbracketed (lower s) :=
  forall_lower (fun _ => IsLate.unbracketed) h

end Assessment.Text

namespace Assessment.Markup.StartTag

open Assessment.Text

/-! ## Reading a tag -/

/-- A character that is a quote of either kind. -/
def IsQuote (c : Char) : Prop := c = '\x22' ∨ c = '\x27'

theorem quotedValue?_append {s value rest : List Char} (h : quotedValue? s = some (value, rest)) :
    ∃ quote, IsQuote quote ∧ s = quote :: value ++ quote :: rest := by
  unfold quotedValue? at h
  split at h
  · exact ⟨'\x22', .inl rfl, by rw [cutAtChar?_append h, List.cons_append]⟩
  · exact ⟨'\x27', .inr rfl, by rw [cutAtChar?_append h, List.cons_append]⟩
  · cases h

/-- The value of an attribute stands between two quotes. -/
theorem attribute?_append {s name value rest : List Char}
    (h : attribute? s = some ((name, value), rest)) :
    ∃ before quote, IsQuote quote ∧ s = before ++ quote :: value ++ quote :: rest := by
  unfold attribute? at h
  split at h
  · cases h
  · next c t =>
    split at h
    · obtain ⟨⟨value, r⟩, hassigned, hp⟩ := Option.map_eq_some_iff.1 h
      cases hp
      unfold assigned? at hassigned
      split at hassigned
      · next u hu =>
        obtain ⟨quote, hquote, hvalue⟩ := quotedValue?_append hassigned
        obtain ⟨before, hbefore⟩ : u.dropWhile isBlank <:+ c :: t :=
          (List.dropWhile_suffix isBlank).trans <| (List.suffix_cons '=' u).trans <|
            hu ▸ (List.dropWhile_suffix isBlank).trans <|
              (List.dropWhile_suffix isNamePart).trans (List.suffix_cons c t)
        exact ⟨before, quote, hquote, by rw [← hbefore, hvalue, ← List.append_assoc]⟩
      · cases hassigned
    · cases h

theorem suffix_of_attribute? {s rest : List Char} {a : List Char × List Char}
    (h : attribute? s = some (a, rest)) : rest <:+ s := by
  obtain ⟨before, quote, -, rfl⟩ := attribute?_append h
  exact ⟨before ++ quote :: a.2 ++ [quote], by simp⟩

/-- Between two quotes of a tag there is no bracket, because the brackets are at its ends. -/
theorem unbracketed_of_quotes {tag before value rest : List Char} {quote : Char} (htag : IsTag tag)
    (hquote : IsQuote quote) (h : tag = before ++ quote :: value ++ quote :: rest) :
    Unbracketed value := by
  obtain ⟨hinside⟩ := htag
  rename_i inside
  have hne : quote ≠ '<' ∧ quote ≠ '>' := by
    rcases hquote with rfl | rfl <;> decide
  cases before with
  | nil =>
    simp only [List.nil_append, List.cons_append, List.cons.injEq] at h
    exact absurd h.1.symm hne.1
  | cons c before =>
    simp only [List.cons_append, List.cons.injEq] at h
    obtain ⟨r, -, rfl⟩ := exists_of_append_eq_concat h.2.symm (List.cons_ne_nil quote rest)
    exact hinside.of_subset fun d hd => by simp [hd]

theorem unbracketed_of_mem_findAll {tag name value : List Char} (htag : IsTag tag)
    (h : (name, value) ∈ quotedAttribute.findAll tag) : Unbracketed value := by
  obtain ⟨t, r, ⟨start, rfl⟩, hrun⟩ :=
    Recognizer.exists_of_mem_findAll (p := quotedAttribute) suffix_of_attribute? h
  obtain ⟨before, quote, hquote, rfl⟩ := attribute?_append hrun
  exact @unbracketed_of_quotes _ (start ++ before) _ r quote htag hquote (by simp)

theorem mem_of_get?_put {name value key v : List Char} {attributes : Attributes}
    (h : (Attributes.put name value attributes).get? key = some v) :
    v = value ∨ attributes.get? key = some v := by
  rw [Attributes.get?_put] at h
  split at h
  · exact .inl (Option.some.inj h).symm
  · exact .inr h

theorem exists_mem_of_get?_foldl {entries : List (List Char × List Char)} {start : Attributes}
    {key value : List Char} (h : (entries.foldl
      (fun attributes entry => Attributes.put entry.1 entry.2 attributes) start).get? key =
        some value) :
    start.get? key = some value ∨ ∃ name, (name, value) ∈ entries := by
  induction entries generalizing start with
  | nil => exact .inl h
  | cons entry entries ih =>
    rcases ih h with hput | ⟨name, hmem⟩
    · rcases mem_of_get?_put hput with rfl | hstart
      · exact .inr ⟨entry.1, List.mem_cons_self⟩
      · exact .inl hstart
    · exact .inr ⟨name, List.mem_cons_of_mem _ hmem⟩

/-- The attributes that a list leaves have values from the list. -/
theorem exists_mem_of_get?_ofList {entries : List (List Char × List Char)} {key value : List Char}
    (h : (Attributes.ofList entries).get? key = some value) : ∃ name, (name, value) ∈ entries := by
  rcases exists_mem_of_get?_foldl (h : (entries.foldl
    (fun attributes entry => Attributes.put entry.1 entry.2 attributes) []).get? key = some value)
    with hnil | hmem
  · cases hnil
  · exact hmem

/-- The values of the attributes of a tag hold no bracket. -/
theorem unbracketed_of_attributes {tag key value : List Char} (htag : IsTag tag)
    (h : (attributes tag).get? key = some value) : Unbracketed value := by
  obtain ⟨name, hmem⟩ := exists_mem_of_get?_ofList h
  exact unbracketed_of_mem_findAll htag hmem

theorem unbracketed_of_mem_classes {tag name : List Char} (htag : IsTag tag)
    (h : name ∈ classes tag) : Unbracketed name := by
  unfold classes at h
  cases hget : (attributes tag).get? "class".toList with
  | none =>
    rw [hget] at h
    cases h
  | some value =>
    rw [hget] at h
    exact (unbracketed_of_attributes htag hget).of_subset (subset_of_mem_words h)

/-! ## Editing a tag -/

theorem unbracketed_written {name value : List Char} (hname : Unbracketed name)
    (hvalue : Unbracketed value) : Unbracketed (written name value) := by
  unfold written
  have hsign : Unbracketed "=\"".toList := by decide
  have hquote : Unbracketed "&quot;".toList := by decide
  have hend : Unbracketed ['\x22'] := by decide
  exact (((Unbracketed.cons (by decide) (by decide) hname).append hsign).append
    (unbracketed_replaceChar hquote hvalue)).append hend

theorem existing?_append {name s rest : List Char} {u : Unit}
    (h : existing? name s = some (u, rest)) : ∃ before, s = before ++ '\x22' :: rest := by
  unfold existing? at h
  split at h
  · cases h
  · next c t =>
    split at h
    · split at h
      · next r hr =>
        obtain ⟨⟨value, rest'⟩, hcut, hp⟩ := Option.map_eq_some_iff.1 h
        cases hp
        rw [after?_eq_some_iff.1 hr, cutAtChar?_append hcut]
        exact ⟨c :: (name ++ "=\"".toList ++ value), by simp⟩
      · cases h
    · cases h

section Edited

variable {p : Char → Prop} {inserted inside : List Char} (hinserted : ∀ c ∈ inserted, p c)
  (hinside : ∀ c ∈ inside, p c)

include hinserted hinside

/-- Replacing an attribute leaves the closing bracket, because what is replaced ends with a quote. -/
theorem exists_of_replaceFirst? {name edited : List Char}
    (h : (existing name).replaceFirst? (fun _ => inserted) (inside ++ ['>']) = some edited) :
    ∃ inside', edited = inside' ++ ['>'] ∧ ∀ c ∈ inside', p c := by
  induction inside generalizing edited with
  | nil => cases h
  | cons c inside ih =>
    obtain ⟨hc, hrest⟩ := List.forall_mem_cons.1 hinside
    rw [List.cons_append, Recognizer.replaceFirst?] at h
    cases hrun : (existing name).run (c :: (inside ++ ['>'])) with
    | some found =>
      obtain ⟨u, rest⟩ := found
      rw [hrun] at h
      cases h
      have hexisting : existing? name (c :: (inside ++ ['>'])) = some (u, rest) := hrun
      obtain ⟨before, heq⟩ := existing?_append hexisting
      rw [← List.cons_append] at heq
      obtain ⟨r, hr, hsplit⟩ := exists_of_append_eq_concat heq.symm (List.cons_ne_nil _ rest)
      cases r with
      | nil => exact absurd (List.cons.inj hr).1 (by decide)
      | cons d r =>
        obtain ⟨-, rfl⟩ := List.cons.inj hr
        refine ⟨inserted ++ r, by simp, List.forall_mem_append.2 ⟨hinserted, fun e he => ?_⟩⟩
        exact hinside e (by rw [hsplit]; simp [he])
    | none =>
      rw [hrun] at h
      obtain ⟨edited', h', rfl⟩ := Option.map_eq_some_iff.1 h
      obtain ⟨inside', rfl, hinside'⟩ := ih hrest h'
      exact ⟨c :: inside', rfl, List.forall_mem_cons.2 ⟨hc, hinside'⟩⟩

theorem exists_of_insertAfterName :
    ∃ inside', insertAfterName inserted ('<' :: inside ++ ['>']) = '<' :: inside' ++ ['>'] ∧
      ∀ c ∈ inside', p c := by
  have hrest : (inside ++ ['>']).dropWhile isTagNameChar ≠ [] := by
    rw [List.dropWhile_append]
    split
    · decide
    · simp
  have hsplit : (inside ++ ['>']).takeWhile isTagNameChar ++
      (inside ++ ['>']).dropWhile isTagNameChar = inside ++ ['>'] :=
    List.takeWhile_append_dropWhile
  show ∃ inside', (if ((inside ++ ['>']).takeWhile isTagNameChar).isEmpty then
    '<' :: (inside ++ ['>']) else '<' :: (inside ++ ['>']).takeWhile isTagNameChar ++ inserted ++
      (inside ++ ['>']).dropWhile isTagNameChar) = _ ∧ _
  split
  · exact ⟨inside, rfl, hinside⟩
  · obtain ⟨r, hr, hname⟩ := exists_of_append_eq_concat hsplit hrest
    generalize (inside ++ ['>']).takeWhile isTagNameChar = name at hname
    rw [hname, List.forall_mem_append] at hinside
    refine ⟨name ++ inserted ++ r, by simp [hr], ?_⟩
    exact List.forall_mem_append.2 ⟨List.forall_mem_append.2 ⟨hinside.1, hinserted⟩, hinside.2⟩

omit hinserted in
/-- A tag with an attribute set keeps its brackets, and what is between them is made of the characters of
the tag and of the attribute. -/
theorem exists_of_setAttribute {name value : List Char} (hwritten : ∀ c ∈ written name value, p c) :
    ∃ inside', setAttribute name value ('<' :: inside ++ ['>']) = '<' :: inside' ++ ['>'] ∧
      ∀ c ∈ inside', p c := by
  unfold setAttribute
  split
  · next edited h =>
    obtain ⟨edited', h', rfl⟩ := Option.map_eq_some_iff.1 h
    obtain ⟨inside', rfl, hinside'⟩ := exists_of_replaceFirst? hwritten hinside h'
    exact ⟨inside', rfl, hinside'⟩
  · exact exists_of_insertAfterName hwritten hinside

end Edited

/-- A tag with an attribute set is one tag. -/
theorem isTag_setAttribute {name value tag : List Char} (hname : Unbracketed name)
    (hvalue : Unbracketed value) (htag : IsTag tag) : IsTag (setAttribute name value tag) := by
  obtain ⟨hinside⟩ := htag
  obtain ⟨inside', heq, hinside'⟩ :=
    exists_of_setAttribute hinside (unbracketed_written hname hvalue)
  rw [heq]
  exact .intro hinside'

theorem mem_mergeClasses {present added : List (List Char)} {name : List Char}
    (h : name ∈ mergeClasses present added) : name ∈ present ∨ name ∈ added := by
  unfold mergeClasses at h
  induction added generalizing present with
  | nil => exact .inl h
  | cons first added ih =>
    rcases ih h with hmem | hmem
    · dsimp only at hmem
      split at hmem
      · exact .inl hmem
      · rcases List.mem_append.1 hmem with hmem | hmem
        · exact .inl hmem
        · exact .inr (List.mem_singleton.1 hmem ▸ List.mem_cons_self)
    · exact .inr (List.mem_cons_of_mem _ hmem)

/-- A tag with classes added is one tag. -/
theorem isTag_addClasses {tag : List Char} {added : List (List Char)} (htag : IsTag tag)
    (hadded : ∀ name ∈ added, Unbracketed name) : IsTag (addClasses tag added) := by
  refine isTag_setAttribute (by decide) (unbracketed_joinWith (by decide) fun name hname => ?_) htag
  rcases mem_mergeClasses hname with h | h
  · exact unbracketed_of_mem_classes htag h
  · exact hadded name h

end Assessment.Markup.StartTag

namespace Assessment.Report.Language

open Assessment.Text Assessment.Markup

/-! ## The language of a tag -/

theorem subset_of_ofClassAfter {start name language : List Char}
    (h : ofClassAfter start name = some language) : language ⊆ name := by
  unfold ofClassAfter at h
  split at h
  · next rest hrest =>
    split at h
    · cases h
      rw [after?_eq_some_iff.1 hrest]
      exact fun c hc => List.mem_append_right start hc
    · cases h
  · cases h

/-- The language that a tag declares holds no bracket. -/
theorem unbracketed_of_ofTag {tag language : List Char} (htag : IsTag tag)
    (h : ofTag tag = some language) : Unbracketed language := by
  rcases Option.or_eq_some_iff.1 h with h | ⟨-, h⟩
  · unfold ofAttributes at h
    split at h
    · next value hvalue =>
      obtain ⟨key, -, hkey⟩ := List.exists_of_findSome?_eq_some hvalue
      simp only [Option.ite_none_left_eq_some, Option.some.injEq] at h
      rw [← h.2]
      exact (StartTag.unbracketed_of_attributes htag hkey).of_subset (trim_subset value)
    · cases h
  · obtain ⟨name, hname, hclass⟩ := List.exists_of_findSome?_eq_some h
    have hlanguage : language ⊆ name := by
      rcases Option.or_eq_some_iff.1 hclass with h | ⟨-, h⟩ <;> exact subset_of_ofClassAfter h
    exact (StartTag.unbracketed_of_mem_classes htag hname).of_subset hlanguage

theorem unbracketed_normalize {language : List Char} (h : Unbracketed language) :
    Unbracketed (normalize language) := by
  show Unbracketed ((aliases.lookup (lower language)).getD (lower language))
  cases hlookup : aliases.lookup (lower language) with
  | none => exact unbracketed_lower h
  | some name =>
    have hall : ∀ entry ∈ aliases, Unbracketed entry.2 := by decide
    obtain ⟨before, after, heq, -⟩ := List.lookup_eq_some_iff.1 hlookup
    exact hall (lower language, name) (by simp [heq])

end Assessment.Report.Language
