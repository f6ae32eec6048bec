import Assessment.Proofs.Markup.Classes
import Assessment.Proofs.Report.TokenPasses

/-!
# Proofs: marking start tags

What the passes over code do to one start tag, by the parts of the tag: they add classes and set the
attribute that names the language. A tag that was marked is not changed by marking it again, and the
language that it declares is the one it was marked with.
-/

namespace Assessment.Report

open Assessment.Text Assessment.Markup Assessment.Markup.StartTag

/-! ## Names of languages -/

/-- The text is the name of a language as tags are marked with it. -/
structure IsLanguage (language : List Char) : Prop where
  /-- It is what is read of it. -/
  trimmed : Trimmed language
  /-- It is the name under which the language is shown. -/
  normal : Language.normalize language = language
  /-- It is written as it is. -/
  value : IsValue language

theorem isWord_ascii {w : List Char} (h : w ≠ [] ∧ ∀ c ∈ w, isTagNameChar c = true) : IsWord w :=
  ⟨h.1, (solid_of_isTagNameChar h.2).isBlank⟩

theorem isLanguage_ascii {w : List Char} (h : w ≠ [] ∧ ∀ c ∈ w, isTagNameChar c = true)
    (hnormal : Language.normalize w = w) : IsLanguage w :=
  ⟨(isWord_ascii h).trimmed, hnormal, (solid_of_isTagNameChar h.2).isValue⟩

theorem isLanguage_plain : IsLanguage Language.plain := isLanguage_ascii (by decide) (by decide +kernel)

theorem isLanguage_html : IsLanguage "html".toList := isLanguage_ascii (by decide) (by decide +kernel)

theorem isValue_lower {s : List Char} (h : IsValue s) : IsValue (lower s) := by
  refine forall_lower (fun c hc => ?_) h
  refine ⟨⟨?_, ?_⟩, ?_, ?_⟩ <;> rintro rfl <;> exact absurd hc (by decide)

/-- The name under which a language is shown is that of the language so named. -/
theorem isLanguage_normalize {language : List Char} (h : Trimmed language) (hvalue : IsValue language) :
    IsLanguage (Language.normalize language) := by
  have heq : Language.normalize language =
      (Language.aliases.lookup (lower language)).getD (lower language) := rfl
  cases hlookup : Language.aliases.lookup (lower language) with
  | none =>
    rw [hlookup] at heq
    rw [heq]
    refine ⟨h.lower, ?_, isValue_lower hvalue⟩
    show (Language.aliases.lookup (lower (lower language))).getD (lower (lower language)) = lower language
    rw [lower_lower, hlookup]
    rfl
  | some name =>
    rw [hlookup] at heq
    obtain ⟨before, after, hentry, -⟩ := List.lookup_eq_some_iff.1 hlookup
    have hmem : (lower language, name) ∈ Language.aliases := by simp [hentry]
    have hall : ∀ entry ∈ Language.aliases, entry.2 = "html".toList ∨ entry.2 = Language.plain := by
      decide
    rw [heq, Option.getD_some]
    rcases hall _ hmem with rfl | rfl
    · exact isLanguage_html
    · exact isLanguage_plain

end Assessment.Report

namespace Assessment.Markup.StartTag.Spelling

open Assessment.Text Assessment.Report

/-! ## The language of a tag -/

/-- The attribute that names the language of code. -/
def languageKey : List Char := ({} : Options).languageAttribute

theorem isKey_languageKey : IsKey languageKey := by
  unfold IsKey
  decide

theorem solid_languageKey : Solid languageKey := solid_of_isTagNameChar (by decide)

/-- The value of the first attribute for a language that the tag has. -/
def named? (s : Spelling) : Option (List Char) := Language.attributeNames.findSome? (s.get? ·)

/-- The language that the tag declares, as it is written there. -/
def declared? (s : Spelling) : Option (List Char) :=
  (match s.named? with
    | some value => if (trim value).isEmpty then none else some (trim value)
    | none => none).or (s.classes.findSome? Language.ofClass)

/-- The language that the tag declares, under the name by which it is shown. -/
def language? (s : Spelling) : Option (List Char) := s.declared?.map Language.normalize

variable {s : Spelling}

theorem Regular.ofTag_write (h : s.Regular) : Language.ofTag s.write = s.declared? := by
  have hget : (fun name => (attributes s.write).get? name) = (s.get? ·) := funext h.get?_attributes
  have hclass : (attributes s.write).get? "class".toList = s.get? classKey := h.get?_attributes classKey
  unfold Language.ofTag Language.ofAttributes declared? named? classes
  dsimp only
  rewrite [hget, hclass]
  rfl

theorem Regular.languageOf_write (h : s.Regular) :
    languageOf s.write = s.language?.getD Language.plain := by
  unfold languageOf language?
  rw [h.ofTag_write]
  cases s.declared? <;> rfl

theorem isWord_of_ofClass {w language : List Char} (hw : IsWord w)
    (h : Language.ofClass w = some language) : IsWord language ∧ language ⊆ w := by
  have hread : ∀ start, Language.ofClassAfter start w = some language →
      language ≠ [] ∧ language ⊆ w := by
    intro start hstart
    refine ⟨?_, Language.subset_of_ofClassAfter hstart⟩
    unfold Language.ofClassAfter at hstart
    split at hstart
    · split at hstart
      · next hgood =>
        cases hstart
        rintro rfl
        cases hgood
      · cases hstart
    · cases hstart
  have hlanguage : language ≠ [] ∧ language ⊆ w := by
    rcases Option.or_eq_some_iff.1 h with h | ⟨-, h⟩
    · exact hread _ h
    · exact hread _ h
  exact ⟨⟨hlanguage.1, fun c hc => hw.solid c (hlanguage.2 hc)⟩, hlanguage.2⟩

/-- What a tag declares can be the name of a language. -/
theorem Regular.isLanguage_language? (h : s.Regular) {language : List Char}
    (hlanguage : s.language? = some language) : IsLanguage language := by
  obtain ⟨declared, hdeclared, rfl⟩ := Option.map_eq_some_iff.1 hlanguage
  rcases Option.or_eq_some_iff.1 hdeclared with hnamed | ⟨-, hclass⟩
  · split at hnamed
    · next value hvalue =>
      obtain ⟨name, -, hget⟩ := List.exists_of_findSome?_eq_some hvalue
      split at hnamed
      · cases hnamed
      · next hsome =>
        cases hnamed
        rw [List.isEmpty_iff] at hsome
        exact isLanguage_normalize (.of_trim hsome)
          ((h.isValue_of_get? hget).of_subset (trim_subset value))
    · cases hnamed
  · obtain ⟨w, hw, hread⟩ := List.exists_of_findSome?_eq_some hclass
    obtain ⟨hword, hsubset⟩ := isWord_of_ofClass (isWord_of_mem_classes hw) hread
    exact isLanguage_normalize hword.trimmed ((h.isValue_of_mem_classes hw).of_subset hsubset)

theorem Regular.isLanguage_getD (h : s.Regular) : IsLanguage (s.language?.getD Language.plain) := by
  cases hlanguage : s.language? with
  | none => exact isLanguage_plain
  | some language => exact h.isLanguage_language? hlanguage

theorem named?_eq (s : Spelling) :
    s.named? = ((s.get? "data-lang".toList).or (s.get? "data-language".toList)).or
      (s.get? languageKey) := by
  have hthree : ∀ (f : List Char → Option (List Char)) (a b c : List Char),
      [a, b, c].findSome? f = ((f a).or (f b)).or (f c) := by
    intro f a b c
    simp only [List.findSome?_cons, List.findSome?_nil]
    cases f a <;> cases f b <;> cases f c <;> rfl
  exact hthree (s.get? ·) "data-lang".toList "data-language".toList languageKey

/-- Classes name no language by attributes. -/
theorem named?_set_classKey (value : List Char) : (s.set classKey value).named? = s.named? := by
  have hget : ∀ {name : List Char}, name ≠ classKey → (s.set classKey value).get? name = s.get? name :=
    fun hne => get?_set_of_ne isKey_classKey hne value
  rw [named?_eq, named?_eq, hget (by decide), hget (by decide), hget (by decide)]

/-- Hidden classes declare no language. -/
theorem language?_set_of_hidden? {hider : List Char} (hhidden : s.hidden? classKey = some hider)
    (value : List Char) : (s.set classKey value).language? = s.language? := by
  unfold language? declared?
  rw [named?_set_classKey, classes_set_of_hidden? hhidden]

/-- Adding classes that name no language leaves the language. -/
theorem language?_add {added : List (List Char)} (hadded : ∀ w ∈ added, IsWord w)
    (hclass : ∀ w ∈ added, Language.ofClass w = none) : (s.add added).language? = s.language? := by
  cases hhidden : s.hidden? classKey with
  | some hider => exact language?_set_of_hidden? hhidden _
  | none =>
    obtain ⟨more, hmerged, hmore⟩ := exists_mergeClasses s.classes added
    have hnone : more.findSome? Language.ofClass = none :=
      List.findSome?_eq_none_iff.2 fun w hw => hclass w (hmore hw)
    have hnamed : (s.add added).named? = s.named? := named?_set_classKey _
    unfold language? declared?
    rw [hnamed, classes_add hadded hhidden, hmerged, List.findSome?_append, hnone, Option.or_none]

/-- A tag marked with its language declares what it declared, or that language. -/
theorem language?_set_languageKey {language : List Char} (hlanguage : IsLanguage language) :
    (s.set languageKey language).language? = s.language? ∨
      (s.set languageKey language).language? = some language := by
  have hget : ∀ {name : List Char}, name ≠ languageKey →
      (s.set languageKey language).get? name = s.get? name :=
    fun hne => get?_set_of_ne isKey_languageKey hne language
  have hclasses : (s.set languageKey language).classes = s.classes :=
    congrArg (fun value : Option (List Char) => words (value.getD [])) (hget (by decide))
  have hnamed : (s.set languageKey language).named? = s.named? ∨
      (s.set languageKey language).named? = some language := by
    rw [named?_eq, named?_eq, hget (by decide), hget (by decide), get?_set isKey_languageKey]
    cases (s.get? "data-lang".toList).or (s.get? "data-language".toList) with
    | some value => exact .inl rfl
    | none =>
      cases hhidden : s.hidden? languageKey with
      | some hider => exact .inl (congrArg _ (get?_of_hidden? hhidden).symm)
      | none => exact .inr rfl
  unfold language? declared?
  rw [hclasses]
  rcases hnamed with hsame | hset
  · exact .inl (by rw [hsame])
  · right
    have hsome : (trim language).isEmpty = false := by
      rw [hlanguage.trimmed.trim, List.isEmpty_eq_false_iff]
      exact hlanguage.trimmed.ne_nil
    rw [hset]
    dsimp only
    rw [if_neg (ne_true_of_eq_false hsome), hlanguage.trimmed.trim, Option.some_or, Option.map_some,
      hlanguage.normal]

/-- A tag marked with its language declares it. -/
theorem language?_set_own {language : List Char} (hlanguage : IsLanguage language)
    (h : s.language?.getD Language.plain = language) :
    (s.set languageKey language).language?.getD Language.plain = language := by
  rcases language?_set_languageKey (s := s) hlanguage with hsame | hset
  · rw [hsame, h]
  · rw [hset, Option.getD_some]

/-! ## Marking a tag -/

/-- The tag with classes added and a language set. -/
def marked (added : List (List Char)) (language : List Char) (s : Spelling) : Spelling :=
  (s.add added).set languageKey language

/-- The classes of code in a block. -/
def blockCodeWords : List (List Char) := words ({} : Options).codeBlockCodeClass

/-- The classes of other code. -/
def inlineWords : List (List Char) := words ({} : Options).inlineCodeClass

/-- The tag marked as that of other code. -/
def asInline (s : Spelling) : Spelling :=
  match s.language? with
  | some language => s.marked inlineWords language
  | none => s.add inlineWords

/-- The tag marked as that of other code, unless it is that of code in a block. -/
def inlined (s : Spelling) : Spelling :=
  if blockCodeWords.all s.classes.contains then s else s.asInline

theorem classKey_ne_languageKey : classKey ≠ languageKey := by decide

section Marked

variable {added : List (List Char)} {language : List Char}

theorem classKey_mem_add : classKey ∈ keys (s.add added).entries := (mem_keys_set _).2 (.inl rfl)

theorem classKey_mem_marked : classKey ∈ keys (s.marked added language).entries :=
  (mem_keys_set _).2 (.inr classKey_mem_add)

/-- Setting the classes of a marked tag sets them before it is marked. -/
theorem set_classKey_marked (value : List Char) :
    (s.marked added language).set classKey value =
      ((s.add added).set classKey value).set languageKey language :=
  set_comm (Ne.symm classKey_ne_languageKey) (.inr classKey_mem_add) language value

theorem classes_marked : (s.marked added language).classes = (s.add added).classes :=
  congrArg (fun value : Option (List Char) => words (value.getD []))
    (get?_set_of_ne isKey_languageKey classKey_ne_languageKey language)

theorem hidden?_marked : (s.marked added language).hidden? classKey = s.hidden? classKey :=
  (hidden?_set isKey_languageKey language).trans (hidden?_set isKey_classKey _)

/-- The language that a tag was marked with is set on it. -/
theorem set_languageKey_marked :
    (s.marked added language).set languageKey language = s.marked added language := set_set _ _

/-- The classes that a tag was marked with are on it. -/
theorem add_marked (hadded : ∀ w ∈ added, IsWord w) :
    (s.marked added language).add added = s.marked added language := by
  have hvalue : (s.add added).set classKey
      (joinWith [' '] (mergeClasses (s.add added).classes added)) = s.add added := add_add hadded
  have hadd : (s.marked added language).add added = (s.marked added language).set classKey
      (joinWith [' '] (mergeClasses (s.marked added language).classes added)) := rfl
  rw [hadd, classes_marked, set_classKey_marked, hvalue]
  rfl

/-- A tag that was marked is not changed by marking it again. -/
theorem marked_marked (hadded : ∀ w ∈ added, IsWord w) :
    (s.marked added language).marked added language = s.marked added language := by
  rw [marked, add_marked hadded, set_languageKey_marked]

theorem language?_marked_getD (hadded : ∀ w ∈ added, IsWord w)
    (hclass : ∀ w ∈ added, Language.ofClass w = none) (hlanguage : IsLanguage language)
    (h : s.language?.getD Language.plain = language) :
    (s.marked added language).language?.getD Language.plain = language :=
  language?_set_own hlanguage (by rw [language?_add hadded hclass, h])

end Marked

theorem isWord_blockCodeWords : ∀ w ∈ blockCodeWords, IsWord w := fun _ hw => isWord_of_mem_words hw

theorem isWord_inlineWords : ∀ w ∈ inlineWords, IsWord w := fun _ hw => isWord_of_mem_words hw

theorem ofClass_blockCodeWords : ∀ w ∈ blockCodeWords, Language.ofClass w = none := by decide

theorem ofClass_inlineWords : ∀ w ∈ inlineWords, Language.ofClass w = none := by decide

theorem asInline_asInline (h : s.Regular) : s.asInline.asInline = s.asInline := by
  have hadd : (s.add inlineWords).language? = s.language? :=
    language?_add isWord_inlineWords ofClass_inlineWords
  cases hlanguage : s.language? with
  | none =>
    have hfirst : s.asInline = s.add inlineWords := by rw [asInline, hlanguage]
    have hagain : (s.add inlineWords).language? = none := hadd.trans hlanguage
    rw [hfirst, asInline, hagain]
    exact add_add isWord_inlineWords
  | some language =>
    have hfirst : s.asInline = s.marked inlineWords language := by rw [asInline, hlanguage]
    have hagain : (s.marked inlineWords language).language? = some language := by
      rcases language?_set_languageKey (s := s.add inlineWords) (h.isLanguage_language? hlanguage)
        with hsame | hset
      · exact hsame.trans (hadd.trans hlanguage)
      · exact hset
    rw [hfirst, asInline, hagain]
    exact marked_marked isWord_inlineWords

/-- Marking other code a second time changes nothing. -/
theorem inlined_inlined (h : s.Regular) : s.inlined.inlined = s.inlined := by
  unfold inlined
  by_cases hblock : blockCodeWords.all s.classes.contains = true
  · rw [if_pos hblock, if_pos hblock]
  · rw [if_neg hblock]
    split
    · rfl
    · exact asInline_asInline h

section Block

variable {language : List Char}

/-- Only where its classes are hidden is code in a block marked as other code, and then it gets other
classes, which are hidden as well. -/
theorem inlined_marked_cases (hlanguage : IsLanguage language)
    (h : s.language?.getD Language.plain = language) :
    (s.marked blockCodeWords language).inlined = s.marked blockCodeWords language ∨
      ∃ hider value, s.hidden? classKey = some hider ∧
        (s.marked blockCodeWords language).inlined =
          (s.marked blockCodeWords language).set classKey value := by
  by_cases hblock : blockCodeWords.all (s.marked blockCodeWords language).classes.contains = true
  · exact .inl (if_pos hblock)
  · right
    have hown := language?_marked_getD isWord_blockCodeWords ofClass_blockCodeWords hlanguage h
    have hinlined : (s.marked blockCodeWords language).inlined =
        (s.marked blockCodeWords language).asInline := if_neg hblock
    cases hhidden : s.hidden? classKey with
    | none =>
      refine absurd (List.all_eq_true.2 fun w hw => ?_) hblock
      rw [List.contains_iff_mem, classes_marked, classes_add isWord_blockCodeWords hhidden]
      exact subset_mergeClasses (fun w hw => (isWord_blockCodeWords w hw).ne_nil) _ hw
    | some hider =>
      refine ⟨hider, joinWith [' ']
        (mergeClasses (s.marked blockCodeWords language).classes inlineWords), rfl, ?_⟩
      rw [hinlined, asInline]
      split
      · next other hother =>
        rw [hother, Option.getD_some] at hown
        have hcomm := set_comm (s := s.marked blockCodeWords language) classKey_ne_languageKey
          (.inl classKey_mem_marked)
          (joinWith [' '] (mergeClasses (s.marked blockCodeWords language).classes inlineWords))
          language
        rw [set_languageKey_marked] at hcomm
        rw [hown]
        exact hcomm
      · rfl

/-- The language of code in a block is read from the finished tag. -/
theorem language?_inlined_marked (hlanguage : IsLanguage language)
    (h : s.language?.getD Language.plain = language) :
    (s.marked blockCodeWords language).inlined.language?.getD Language.plain = language := by
  have hown := language?_marked_getD isWord_blockCodeWords ofClass_blockCodeWords hlanguage h
  rcases inlined_marked_cases hlanguage h with heq | ⟨hider, value, hhidden, heq⟩
  · rw [heq, hown]
  · rw [heq, language?_set_of_hidden? (hidden?_marked.trans hhidden), hown]

/-- Marking the finished tag of code in a block takes back what the last pass did to it. -/
theorem marked_inlined_marked (hlanguage : IsLanguage language)
    (h : s.language?.getD Language.plain = language) :
    (s.marked blockCodeWords language).inlined.marked blockCodeWords language =
      s.marked blockCodeWords language := by
  rcases inlined_marked_cases hlanguage h with heq | ⟨hider, value, hhidden, heq⟩
  · rw [heq, marked_marked isWord_blockCodeWords]
  · have hclasses := classes_set_of_hidden? (hidden?_marked.trans hhidden) value
      (s := s.marked blockCodeWords language)
    have hadd : ((s.marked blockCodeWords language).set classKey value).add blockCodeWords =
        (s.marked blockCodeWords language).add blockCodeWords := by
      unfold add
      rw [hclasses, set_set]
    rw [heq, marked, hadd, add_marked isWord_blockCodeWords, set_languageKey_marked]

end Block

/-! ## Marking the text of a tag -/

section Text

variable {classes language : List Char}

theorem isValue_blockCodeWords : ∀ w ∈ blockCodeWords, IsValue w := by
  unfold IsValue
  decide

theorem isValue_inlineWords : ∀ w ∈ inlineWords, IsValue w := by
  unfold IsValue
  decide

theorem Regular.marked (h : s.Regular) (hclasses : ∀ w ∈ words classes, IsValue w)
    (hlanguage : IsValue language) : (s.marked (words classes) language).Regular :=
  (h.add hclasses).set (by decide) solid_languageKey hlanguage

theorem Regular.taggedStart_write (h : s.Regular) (hclasses : ∀ w ∈ words classes, IsValue w)
    (hlanguage : IsValue language) :
    taggedStart {} classes language s.write = (s.marked (words classes) language).write := by
  unfold taggedStart
  rw [h.addClasses_write hclasses]
  exact (h.add hclasses).setAttribute_write solid_languageKey hlanguage

theorem Regular.isBlockCode_write (h : s.Regular) :
    isBlockCode {} s.write = blockCodeWords.all s.classes.contains := by
  have hsome : blockCodeWords.isEmpty = false := by decide
  have hclass : hasClass s.write = s.classes.contains := by
    funext w
    exact congrArg (fun classes : List (List Char) => classes.contains w) h.classes_write
  show (!blockCodeWords.isEmpty && blockCodeWords.all (hasClass s.write)) = _
  rw [hsome, hclass, Bool.not_false, Bool.true_and]

theorem Regular.asInline (h : s.Regular) : s.asInline.Regular := by
  unfold Spelling.asInline
  split
  · next language hlanguage =>
    exact h.marked isValue_inlineWords (h.isLanguage_language? hlanguage).value
  · exact h.add isValue_inlineWords

theorem Regular.inlined (h : s.Regular) : s.inlined.Regular := by
  unfold Spelling.inlined
  split
  · exact h
  · exact h.asInline

theorem Regular.inlineStart_write (h : s.Regular) : inlineStart {} s.write = s.inlined.write := by
  unfold inlineStart Spelling.inlined
  rw [h.isBlockCode_write, h.ofTag_write]
  split
  · rfl
  · have hlanguage : s.language? = s.declared?.map Language.normalize := rfl
    unfold Spelling.asInline
    rw [hlanguage]
    cases hdeclared : s.declared? with
    | none => exact h.addClasses_write isValue_inlineWords
    | some declared =>
      rw [hdeclared] at hlanguage
      exact h.taggedStart_write isValue_inlineWords (h.isLanguage_language? hlanguage).value

/-! ### The name of a marked tag -/

variable {name : String}

theorem Regular.isStart_marked (h : s.Regular) (hname : ∀ c ∈ name.toList, isTagNameChar c = true)
    (hclasses : ∀ w ∈ words classes, IsValue w) (hlanguage : IsValue language)
    (hstart : isStart name s.write = true) :
    isStart name (s.marked (words classes) language).write = true :=
  (h.add hclasses).isStart_set hname (by decide) solid_languageKey hlanguage <|
    h.isStart_set hname (by decide) solid_classKey (h.isValue_classes hclasses) hstart

theorem Regular.isStart_inlined (h : s.Regular) (hname : ∀ c ∈ name.toList, isTagNameChar c = true)
    (hstart : isStart name s.write = true) : isStart name s.inlined.write = true := by
  unfold Spelling.inlined
  split
  · exact hstart
  · unfold Spelling.asInline
    split
    · next language hlanguage =>
      exact h.isStart_marked hname isValue_inlineWords (h.isLanguage_language? hlanguage).value hstart
    · exact h.isStart_set hname (by decide) solid_classKey (h.isValue_classes isValue_inlineWords) hstart

end Text

end Assessment.Markup.StartTag.Spelling
