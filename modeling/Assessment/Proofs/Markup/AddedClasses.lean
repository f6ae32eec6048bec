import Assessment.Proofs.Markup.ClearTags
import Assessment.Proofs.Markup.QuotedTags

/-!
# Proofs: classes that are added to tags

Adding classes to a tag whose attributes are quoted in either way. The classes that the tag had stay in
their order and nothing is added twice. The new classes are read if the tag had no class attribute or one
in the plain form. If it is written otherwise, they are put into a second class attribute, which is never
read.
-/

namespace Assessment.Markup.StartTag

open Assessment.Text

/-! ## The classes of a tag -/

namespace QuotedTag.Regular

variable {t : QuotedTag} {added : List (List Char)}

theorem quote_not_mem_classes (h : t.Regular) (hkeys : (quotedKeys t.entries).Nodup)
    (hspells : t.Spells classKey) {w : List Char} (hw : w ∈ classes t.write) : '\x22' ∉ w := by
  have hclasses : classes t.write = words (((quotedPairs t.entries).get? classKey).getD []) := by
    rw [classes, h.attributes_write hkeys]
    rfl
  rw [hclasses] at hw
  cases hget : (quotedPairs t.entries).get? classKey with
  | none =>
    rw [hget] at hw
    cases hw
  | some value =>
    rw [hget] at hw
    obtain ⟨e, he, heq⟩ := List.mem_map.1 (Attributes.mem_of_get? hget)
    obtain ⟨hkey, rfl⟩ := Prod.mk.inj heq
    have hvalue := (h.entries e he).value
    rw [(hspells e he hkey).2.2] at hvalue
    exact fun hc => hvalue (subset_of_mem_words hw hc)

/-- The classes of a tag after some were added: with them if the tag had no class attribute or one in
plain form, and otherwise those that it had. -/
theorem classes_addClasses (h : t.Regular) (hkeys : (quotedKeys t.entries).Nodup)
    (hleads : ¬ Misleading classKey t.entries) (hadded : ∀ w ∈ added, IsWord w ∧ '\x22' ∉ w) :
    (t.Spells classKey →
      classes (addClasses t.write added) = mergeClasses (classes t.write) added) ∧
    (¬ t.Spells classKey → classes (addClasses t.write added) = classes t.write) := by
  have hname : IsAttributeName classKey := by decide
  have hset : addClasses t.write added = (t.set classKey (settable
      (joinWith [' '] (mergeClasses (classes t.write) added)))).write :=
    h.setAttribute_write hname hleads _
  have hquote := not_mem_settable (joinWith [' '] (mergeClasses (classes t.write) added))
  rw [hset]
  constructor
  · intro hspells
    have hwords : ∀ w ∈ mergeClasses (classes t.write) added, IsWord w ∧ '\x22' ∉ w := fun w hw =>
      (mem_mergeClasses hw).elim
        (fun hw => ⟨isWord_of_mem_words hw, h.quote_not_mem_classes hkeys hspells hw⟩) (hadded w)
    have hjoined : '\x22' ∉ joinWith [' '] (mergeClasses (classes t.write) added) := fun hc =>
      forall_mem_joinWith (p := fun c => c ≠ '\x22') (by decide)
        (fun w hw c hc heq => (hwords w hw).2 (heq ▸ hc)) _ hc rfl
    show words (((attributes _).get? classKey).getD []) = _
    rw [h.get?_set hkeys hname hquote hspells, Option.getD_some, settable_of_not_mem hjoined]
    exact words_joinWith fun w hw => (hwords w hw).1
  · intro hspells
    show words (((attributes _).get? classKey).getD []) = words (((attributes _).get? classKey).getD [])
    rw [h.get?_set_of_not_spells hkeys hname hquote hspells]

/-- Adding the same classes twice adds them once. -/
theorem addClasses_addClasses (h : t.Regular) (hkeys : (quotedKeys t.entries).Nodup)
    (hleads : ¬ Misleading classKey t.entries) (hadded : ∀ w ∈ added, IsWord w ∧ '\x22' ∉ w) :
    addClasses (addClasses t.write added) added = addClasses t.write added := by
  have hname : IsAttributeName classKey := by decide
  obtain ⟨hmerged, hkept⟩ := h.classes_addClasses hkeys hleads hadded
  have hsame : mergeClasses (classes (addClasses t.write added)) added =
      mergeClasses (classes t.write) added := by
    by_cases hspells : t.Spells classKey
    · rw [hmerged hspells, mergeClasses_mergeClasses fun w hw => (hadded w hw).1.ne_nil]
    · rw [hkept hspells]
  have hset := h.setAttribute_write hname hleads (joinWith [' '] (mergeClasses (classes t.write) added))
  have hfirst : addClasses t.write added = _ := hset
  have hsecond : addClasses (addClasses t.write added) added = setAttribute classKey
      (joinWith [' '] (mergeClasses (classes (addClasses t.write added)) added))
        (addClasses t.write added) := rfl
  rw [hsecond, hsame, hfirst, (h.set hname (not_mem_settable _)).setAttribute_write hname
    (not_misleading_set hleads), set_set]

end QuotedTag.Regular

/-! ## Adding classes -/

/-- Classes that are added to a tag are there afterwards if the tag had no class attribute, or one in
double quotes with nothing around its equals sign, and else if they were there before. The classes that
the tag had are there in their order, and adding the same classes again changes nothing. The attributes
of the tag stand in quotes of either kind with any white space, each name once, and no value in front
of the class attribute looks like one. -/
theorem added_classes_are_there {t : QuotedTag} {added : List (List Char)} (h : t.Regular)
    (hkeys : (quotedKeys t.entries).Nodup) (hleads : ¬ QuotedTag.Misleading classKey t.entries)
    (hadded : ∀ w ∈ added, IsWord w ∧ '\x22' ∉ w) :
    let changed := addClasses t.write added
    ((∀ w ∈ added, hasClass changed w = true) ↔ t.Spells classKey ∨ added ⊆ classes t.write) ∧
      (∀ w, hasClass t.write w = true → hasClass changed w = true) ∧
      classes t.write <+: classes changed ∧
      addClasses changed added = changed := by
  intro changed
  obtain ⟨hmerged, hkept⟩ := h.classes_addClasses hkeys hleads hadded
  have hfront : classes t.write <+: classes changed := by
    by_cases hspells : t.Spells classKey
    · obtain ⟨more, heq, -⟩ := exists_mergeClasses (classes t.write) added
      exact ⟨more, ((hmerged hspells).trans heq).symm⟩
    · exact ⟨[], (List.append_nil _).trans (hkept hspells).symm⟩
  have hall : (∀ w ∈ added, hasClass changed w = true) ↔ added ⊆ classes changed :=
    forall₂_congr fun w _ => List.contains_iff_mem
  refine ⟨hall.trans ⟨fun hsub => ?_, ?_⟩, fun w hw => ?_, hfront,
    h.addClasses_addClasses hkeys hleads hadded⟩
  · by_cases hspells : t.Spells classKey
    · exact .inl hspells
    · exact .inr (hkept hspells ▸ hsub)
  · rintro (hspells | hsub)
    · rw [hmerged hspells]
      exact subset_mergeClasses (fun w hw => (hadded w hw).1.ne_nil) _
    · exact List.Subset.trans hsub hfront.subset
  · exact List.contains_iff_mem.2 (hfront.subset (List.contains_iff_mem.1 hw))

/-- A tag with quotes of both kinds, white space around an equals sign, an attribute without a value, and a
value behind the class attribute that looks like one. -/
def quotedSample : QuotedTag where
  name := "code".toList
  after := []
  entries := [
    ⟨"\n  ".toList, "data-x".toList, [' '], [' '], '\x27', "a=1".toList, []⟩,
    ⟨[' '], "class".toList, [], [], '\x22', "a  b".toList, " hidden".toList⟩,
    ⟨[' '], "id".toList, [], [], '\x27', "x class=\"y\"".toList, " /".toList⟩]

/-- Two classes are added to the sample, of which it has one. -/
theorem added_classes_are_there_quotedSample :
    (quotedSample.Regular ∧ (quotedKeys quotedSample.entries).Nodup ∧
      ¬ QuotedTag.Misleading classKey quotedSample.entries) ∧
      let changed := addClasses quotedSample.write ["b".toList, "c".toList]
      ((∀ w ∈ ["b".toList, "c".toList], hasClass changed w = true) ↔ quotedSample.Spells classKey ∨
        ["b".toList, "c".toList] ⊆ classes quotedSample.write) ∧
        (∀ w, hasClass quotedSample.write w = true → hasClass changed w = true) ∧
        classes quotedSample.write <+: classes changed ∧
        addClasses changed ["b".toList, "c".toList] = changed := by
  have hregular : quotedSample.Regular := ⟨by decide, by decide, nofun, by decide, by decide⟩
  have hkeys : (quotedKeys quotedSample.entries).Nodup := by decide
  have hwords : ∀ w ∈ ["b".toList, "c".toList], IsWord w ∧ '\x22' ∉ w := by
    refine List.forall_mem_cons.2 ⟨?_, List.forall_mem_singleton.2 ?_⟩
    all_goals exact ⟨⟨by decide, by decide⟩, by decide⟩
  have hleads : ¬ QuotedTag.Misleading classKey quotedSample.entries := by
    rintro ⟨-, hsuggests | hmisleading⟩
    · exact QuotedEntry.not_suggests_of_not_isBlank (.inr rfl) (by decide) _ _ hsuggests
    · exact hmisleading.1 ⟨rfl, by decide⟩
  exact ⟨⟨hregular, hkeys, hleads⟩, added_classes_are_there hregular hkeys hleads hwords⟩

/-- A class attribute in single quotes. -/
def singleQuoted : QuotedTag where
  name := "code".toList
  after := []
  entries := [⟨[' '], "class".toList, [], [], '\x27', "a".toList, []⟩]

/-- A class that is added to a tag whose classes stand in single quotes is not there. -/
theorem class_beside_single_quotes_is_not_there :
    singleQuoted.Regular ∧ (quotedKeys singleQuoted.entries).Nodup ∧
      ¬ QuotedTag.Misleading classKey singleQuoted.entries ∧ IsWord "b".toList ∧
      singleQuoted.write = "<code class='a'>".toList ∧
      hasClass (addClasses singleQuoted.write ["b".toList]) "b".toList = false := by
  have hleads : ¬ QuotedTag.Misleading classKey singleQuoted.entries := by
    rintro ⟨-, hsuggests | hfalse⟩
    · exact QuotedEntry.not_suggests_of_not_isBlank (.inr rfl) (by decide) _ _ hsuggests
    · exact hfalse
  have hregular : singleQuoted.Regular := ⟨by decide, by decide, nofun, by decide, by decide⟩
  exact ⟨hregular, by decide, hleads, ⟨by decide, by decide⟩, by decide, by decide +kernel⟩

end Assessment.Markup.StartTag
