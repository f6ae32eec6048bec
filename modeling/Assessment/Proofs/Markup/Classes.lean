import Assessment.Proofs.Markup.SetAttribute
import Assessment.Proofs.Markup.StartTag

/-!
# Proofs: the classes of start tags

The classes of a tag are the words of one attribute, and classes are added behind those that are there.
Adding the same classes twice adds them once, also where the attribute is hidden by another and what is
added is never read.
-/

namespace Assessment.Markup.StartTag

open Assessment.Text

/-! ## Merging classes -/

theorem mergeClasses_cons (present added : List (List Char)) (name : List Char) :
    mergeClasses present (name :: added) =
      mergeClasses (if name.isEmpty || present.contains name then present else present ++ [name])
        added := rfl

/-- Classes are added behind those that are there. -/
theorem exists_mergeClasses (present added : List (List Char)) :
    ∃ more, mergeClasses present added = present ++ more ∧ more ⊆ added := by
  induction added generalizing present with
  | nil => exact ⟨[], (List.append_nil present).symm, List.Subset.refl []⟩
  | cons name added ih =>
    rw [mergeClasses_cons]
    split
    · obtain ⟨more, heq, hmore⟩ := ih present
      exact ⟨more, heq, fun w hw => List.mem_cons_of_mem name (hmore hw)⟩
    · obtain ⟨more, heq, hmore⟩ := ih (present ++ [name])
      exact ⟨name :: more, by rw [heq, List.append_assoc]; rfl, List.cons_subset_cons name hmore⟩

/-- All classes that have a name are there after adding them. -/
theorem subset_mergeClasses {added : List (List Char)} (h : ∀ w ∈ added, w ≠ [])
    (present : List (List Char)) : added ⊆ mergeClasses present added := by
  induction added generalizing present with
  | nil => exact List.nil_subset _
  | cons name added ih =>
    obtain ⟨hname, hadded⟩ := List.forall_mem_cons.1 h
    rw [mergeClasses_cons]
    refine List.cons_subset.2 ⟨?_, ih hadded _⟩
    obtain ⟨more, heq, -⟩ := exists_mergeClasses
      (if name.isEmpty || present.contains name then present else present ++ [name]) added
    rw [heq]
    refine List.mem_append_left _ ?_
    split
    · next hskip =>
      rw [Bool.or_eq_true, List.isEmpty_iff, List.contains_iff_mem] at hskip
      exact hskip.resolve_left hname
    · simp

/-- Classes that are there are not added again. -/
theorem mergeClasses_of_subset {present added : List (List Char)} (h : added ⊆ present) :
    mergeClasses present added = present := by
  induction added with
  | nil => rfl
  | cons name added ih =>
    obtain ⟨hname, hadded⟩ := List.cons_subset.1 h
    have hskip : (name.isEmpty || present.contains name) = true := by
      rw [List.contains_iff_mem.2 hname, Bool.or_true]
    rw [mergeClasses_cons, if_pos hskip, ih hadded]

/-- Adding the same classes twice adds them once. -/
theorem mergeClasses_mergeClasses {added : List (List Char)} (h : ∀ w ∈ added, w ≠ [])
    (present : List (List Char)) :
    mergeClasses (mergeClasses present added) added = mergeClasses present added :=
  mergeClasses_of_subset (subset_mergeClasses h present)

/-! ## The classes of a tag -/

/-- The name of the attribute that holds the classes. -/
def classKey : List Char := "class".toList

theorem isKey_classKey : IsKey classKey := by
  unfold IsKey
  decide

theorem solid_classKey : Solid classKey := solid_of_isTagNameChar (by decide)

theorem IsValue.joinWith {ws : List (List Char)} (h : ∀ w ∈ ws, IsValue w) :
    IsValue (joinWith [' '] ws) := by
  have hspace : IsValue [' '] := by
    unfold IsValue
    decide
  exact forall_mem_joinWith hspace h

theorem exists_of_lastValue {name value : List Char} {entries : List Entry}
    (h : lastValue name entries = some value) : ∃ e ∈ entries, e.value = value := by
  induction entries with
  | nil => cases h
  | cons e entries ih =>
    rw [lastValue] at h
    rcases Option.or_eq_some_iff.1 h with h | ⟨-, h⟩
    · obtain ⟨other, hother, heq⟩ := ih h
      exact ⟨other, List.mem_cons_of_mem e hother, heq⟩
    · split at h
      · exact ⟨e, List.mem_cons_self, Option.some.inj h⟩
      · cases h

namespace Spelling

theorem Regular.isValue_of_get? {s : Spelling} (h : s.Regular) {name value : List Char}
    (hget : s.get? name = some value) : IsValue value := by
  obtain ⟨e, he, rfl⟩ := exists_of_lastValue hget
  exact (h.entries e he).value

/-- The classes of the tag. -/
def classes (s : Spelling) : List (List Char) := words ((s.get? classKey).getD [])

/-- The tag with classes added. -/
def add (added : List (List Char)) (s : Spelling) : Spelling :=
  s.set classKey (joinWith [' '] (mergeClasses s.classes added))

variable {s : Spelling} {added : List (List Char)}

theorem Regular.classes_write (h : s.Regular) : StartTag.classes s.write = s.classes :=
  congrArg (fun value : Option (List Char) => words (value.getD [])) (h.get?_attributes classKey)

theorem Regular.isValue_of_mem_classes (h : s.Regular) {w : List Char} (hw : w ∈ s.classes) :
    IsValue w := by
  unfold classes at hw
  cases hget : s.get? classKey with
  | none =>
    rw [hget] at hw
    cases hw
  | some value =>
    rw [hget] at hw
    exact (h.isValue_of_get? hget).of_subset (subset_of_mem_words hw)

theorem Regular.isValue_classes (h : s.Regular) (hadded : ∀ w ∈ added, IsValue w) :
    IsValue (joinWith [' '] (mergeClasses s.classes added)) := by
  refine IsValue.joinWith fun w hw => ?_
  rcases mem_mergeClasses hw with hw | hw
  · exact h.isValue_of_mem_classes hw
  · exact hadded w hw

theorem Regular.add (h : s.Regular) (hadded : ∀ w ∈ added, IsValue w) : (s.add added).Regular :=
  h.set (by decide) solid_classKey (h.isValue_classes hadded)

theorem Regular.addClasses_write (h : s.Regular) (hadded : ∀ w ∈ added, IsValue w) :
    addClasses s.write added = (s.add added).write := by
  unfold addClasses
  rw [h.classes_write]
  exact h.setAttribute_write solid_classKey (h.isValue_classes hadded)

theorem isWord_of_mem_classes {w : List Char} (hw : w ∈ s.classes) : IsWord w :=
  isWord_of_mem_words hw

/-- Where nothing hides them, the classes of a tag are those that were there and those that were
added. -/
theorem classes_add (hadded : ∀ w ∈ added, IsWord w) (hhidden : s.hidden? classKey = none) :
    (s.add added).classes = mergeClasses s.classes added := by
  have hwords : ∀ w ∈ mergeClasses s.classes added, IsWord w := fun w hw =>
    (mem_mergeClasses hw).elim isWord_of_mem_classes (hadded w)
  have hget := get?_set (s := s) isKey_classKey (joinWith [' '] (mergeClasses s.classes added))
  rw [hhidden, Option.none_or] at hget
  unfold add
  rw [classes, hget]
  exact words_joinWith hwords

/-- The classes that are hidden make no difference. -/
theorem classes_set_of_hidden? {hider : List Char} (hhidden : s.hidden? classKey = some hider)
    (value : List Char) : (s.set classKey value).classes = s.classes := by
  unfold classes
  rw [get?_set isKey_classKey, hhidden, get?_of_hidden? hhidden]
  rfl

/-- Adding the same classes twice adds them once. -/
theorem add_add (hadded : ∀ w ∈ added, IsWord w) : (s.add added).add added = s.add added := by
  have hclasses : mergeClasses (s.add added).classes added = mergeClasses s.classes added := by
    cases hhidden : s.hidden? classKey with
    | none => rw [classes_add hadded hhidden, mergeClasses_mergeClasses fun w hw => (hadded w hw).ne_nil]
    | some hider =>
      have hsame : (s.add added).classes = s.classes := classes_set_of_hidden? hhidden _
      rw [hsame]
  have hvalue : (s.add added).add added =
      (s.add added).set classKey (joinWith [' '] (mergeClasses (s.add added).classes added)) := rfl
  rw [hvalue, hclasses]
  exact set_set _ _

end Spelling

end Assessment.Markup.StartTag
