import Assessment.Proofs.Markup.Classes
import Assessment.Proofs.Markup.PlainTags

/-!
# Proofs: the classes of plain tags

Adding classes to a plain tag and setting another attribute after that. A tag is clear for some
attributes if no word of its values looks like the beginning of one of these, so that no value misleads
(`Spelling.Clear.not_misleading`). It stays clear when clear classes are added, and the classes that are
added are then read from it.
-/

namespace Assessment.Markup.StartTag

open Assessment.Text

variable {names : List (List Char)}

/-- The text can stand in a value of a tag, and is not the beginning of an attribute. -/
structure ClearWord (names : List (List Char)) (w : List Char) : Prop where
  unbracketed : Unbracketed w
  quote : '\x22' ∉ w
  sign : ∀ name ∈ names, w ≠ name ++ ['=']

/-- The text can be a value of a tag, and no word of it is the beginning of an attribute. -/
structure ClearValue (names : List (List Char)) (value : List Char) : Prop where
  unbracketed : Unbracketed value
  quote : '\x22' ∉ value
  sign : ∀ name ∈ names, name ++ ['='] ∉ words value

/-- The tag is plain, no attribute stands in it twice, and its values are clear. -/
structure Spelling.Clear (names : List (List Char)) (s : Spelling) : Prop where
  plain : s.Plain
  nodup : (keys s.entries).Nodup
  values : ∀ e ∈ s.entries, ClearValue names e.value

/-! ## Clear values -/

theorem EndsLike.mem_words {name value : List Char} (hname : IsAttributeName name)
    (h : EndsLike name value) : name ++ ['='] ∈ words value := by
  obtain ⟨s, c, hc, rfl⟩ := h
  have hword : IsWord (name ++ ['=']) :=
    ⟨by simp, List.forall_mem_append.2 ⟨hname.solid.isBlank, by decide⟩⟩
  rw [words_append_cons hc, hword.words]
  exact List.mem_append_right _ (List.mem_singleton.2 rfl)

theorem not_misleading_of_sign {name : List Char} (hname : IsAttributeName name)
    {attributes : Attributes} (h : ∀ a ∈ attributes, name ++ ['='] ∉ words a.2) :
    ¬ Misleading name attributes :=
  not_misleading_of_not_endsLike fun a ha hends => h a ha (hends.mem_words hname)

theorem ClearValue.clearWord {value w : List Char} (h : ClearValue names value)
    (hw : w ∈ words value) : ClearWord names w where
  unbracketed c hc := h.unbracketed c (subset_of_mem_words hw hc)
  quote hc := h.quote (subset_of_mem_words hw hc)
  sign name hname heq := h.sign name hname (heq ▸ hw)

/-- Clear words make a clear value. -/
theorem clearValue_joinWith {ws : List (List Char)} (hwords : ∀ w ∈ ws, IsWord w)
    (h : ∀ w ∈ ws, ClearWord names w) : ClearValue names (joinWith [' '] ws) where
  unbracketed := unbracketed_joinWith (by decide) fun w hw => (h w hw).unbracketed
  quote hc :=
    forall_mem_joinWith (p := fun c => c ≠ '\x22') (by decide)
      (fun w hw c hc heq => (h w hw).quote (heq ▸ hc)) _ hc rfl
  sign name hname hmem := by
    rw [words_joinWith hwords] at hmem
    exact (h _ hmem).sign name hname rfl

/-! ## Clear tags -/

theorem mem_entries_of_get? {name value : List Char} {entries : List Entry}
    (h : (pairs entries).get? name = some value) : ∃ e ∈ entries, e.value = value := by
  induction entries with
  | nil => cases h
  | cons e entries ih =>
    have hget : (if e.key = name then some e.value else (pairs entries).get? name) = some value := h
    split at hget
    · exact ⟨e, List.mem_cons_self, Option.some.inj hget⟩
    · obtain ⟨other, hother, heq⟩ := ih hget
      exact ⟨other, List.mem_cons_of_mem e hother, heq⟩

theorem value_of_mem_assign {name value : List Char} {entries : List Entry} {e : Entry}
    (h : e ∈ assign name value entries) : e.value = value ∨ e ∈ entries := by
  induction entries with
  | nil => cases h
  | cons first entries ih =>
    rw [assign] at h
    split at h
    · rcases List.mem_cons.1 h with rfl | h
      · exact .inl rfl
      · exact .inr (List.mem_cons_of_mem first h)
    · rcases List.mem_cons.1 h with rfl | h
      · exact .inr List.mem_cons_self
      · exact (ih h).imp_right (List.mem_cons_of_mem first)

namespace Spelling

variable {s : Spelling} {name value : List Char}

theorem value_of_mem_set {e : Entry} (h : e ∈ (s.set name value).entries) :
    e.value = value ∨ e ∈ s.entries := by
  by_cases hmem : name ∈ keys s.entries
  · rw [set_of_mem hmem] at h
    exact value_of_mem_assign h
  · rw [set_of_not_mem hmem] at h
    exact (List.mem_cons.1 h).imp_left (congrArg Entry.value)

namespace Clear

theorem not_misleading (h : s.Clear names) (hname : IsAttributeName name) (hmem : name ∈ names) :
    ¬ Misleading name (pairs s.entries) := by
  refine not_misleading_of_sign hname fun a ha => ?_
  obtain ⟨e, he, rfl⟩ := List.mem_map.1 ha
  exact (h.values e he).sign name hmem

theorem set (h : s.Clear names) (hname : IsAttributeName name) (hvalue : ClearValue names value) :
    (s.set name value).Clear names where
  plain := h.plain.set hname hvalue.quote
  nodup := nodup_keys_set h.nodup
  values e he := by
    rcases value_of_mem_set he with heq | he
    · exact heq ▸ hvalue
    · exact h.values e he

theorem unbracketed (h : s.Clear names) :
    Unbracketed (s.name ++ s.after ++ writeEntries s.entries) := by
  refine ((solid_of_isTagNameChar h.plain.name).isValue.unbracketed.append
    h.plain.after.isValue.unbracketed).append fun c hc => ?_
  obtain ⟨e, he, hc⟩ := List.mem_flatMap.1 hc
  obtain ⟨hkey, -, htail⟩ := h.plain.entries e he
  have hsigns : Unbracketed "=\"".toList := by decide
  have hquote : Unbracketed ['\x22'] := by decide
  have htext : e.write = (' ' :: e.key) ++ "=\"".toList ++ e.value ++ ['\x22'] ++ e.tail := by
    simp [Entry.write]
  rw [htext] at hc
  have hstart : Unbracketed (' ' :: e.key) := .cons (by decide) (by decide) hkey.solid.isValue.unbracketed
  exact ((((hstart.append hsigns).append (h.values e he).unbracketed).append hquote).append
    htail.isValue.unbracketed) c hc

theorem isTag_write (h : s.Clear names) : IsTag s.write := by
  rw [write_eq]
  exact .intro h.unbracketed

theorem setAttribute_write (h : s.Clear names) (hname : IsAttributeName name) (hmem : name ∈ names)
    (value : List Char) :
    setAttribute name value s.write = (s.set name (settable value)).write :=
  h.plain.setAttribute_write_of_not_misleading hname (h.not_misleading hname hmem) value

/-- Setting an attribute keeps the name of the tag. -/
theorem isStart_setAttribute (h : s.Clear names) (hname : IsAttributeName name) (hmem : name ∈ names)
    (hvalue : Unbracketed value) {tagName : String}
    (htag : ∀ c ∈ tagName.toList, isTagNameChar c = true) (hstart : isStart tagName s.write = true) :
    isStart tagName (setAttribute name value s.write) = true := by
  have hset := isTag_setAttribute hname.solid.isValue.unbracketed hvalue h.isTag_write
  rw [h.setAttribute_write hname hmem] at hset ⊢
  refine Spelling.isStart_set h.plain.name_end h.unbracketed ?_ htag hstart
  rw [write_eq] at hset
  exact hset.unbracketed_inside

theorem get?_setAttribute (h : s.Clear names) (hname : IsAttributeName name) (hmem : name ∈ names)
    (value other : List Char) :
    (attributes (setAttribute name value s.write)).get? other =
      if other = name then some (settable value) else (attributes s.write).get? other := by
  rw [h.plain.attributes_setAttribute h.nodup hname (h.not_misleading hname hmem), get?_setPair,
    h.plain.attributes_write h.nodup]

/-! ### Classes -/

theorem clearWord_of_mem_classes (h : s.Clear names) {w : List Char}
    (hw : w ∈ StartTag.classes s.write) : ClearWord names w := by
  rw [StartTag.classes, h.plain.attributes_write h.nodup] at hw
  cases hget : (pairs s.entries).get? "class".toList with
  | none =>
    rw [hget] at hw
    cases hw
  | some value =>
    rw [hget] at hw
    obtain ⟨e, he, rfl⟩ := mem_entries_of_get? hget
    exact (h.values e he).clearWord hw

variable {added : List (List Char)}

/-- The classes of a tag after some were added. -/
theorem clear_mergeClasses (h : s.Clear names) (hwords : ∀ w ∈ added, IsWord w)
    (hadded : ∀ w ∈ added, ClearWord names w) :
    (∀ w ∈ mergeClasses (StartTag.classes s.write) added, IsWord w) ∧
      ClearValue names (joinWith [' '] (mergeClasses (StartTag.classes s.write) added)) := by
  have hmerged : ∀ w ∈ mergeClasses (StartTag.classes s.write) added, IsWord w := fun w hw =>
    (mem_mergeClasses hw).elim isWord_of_mem_words (hwords w)
  exact ⟨hmerged, clearValue_joinWith hmerged fun w hw =>
    (mem_mergeClasses hw).elim h.clearWord_of_mem_classes (hadded w)⟩

/-- Adding clear classes to a clear tag leaves a clear tag. -/
theorem exists_addClasses (h : s.Clear names) (hclass : classKey ∈ names)
    (hwords : ∀ w ∈ added, IsWord w) (hadded : ∀ w ∈ added, ClearWord names w) :
    ∃ t : Spelling, addClasses s.write added = t.write ∧ t.Clear names ∧
      StartTag.classes t.write = mergeClasses (StartTag.classes s.write) added ∧
      ∀ {tagName : String}, (∀ c ∈ tagName.toList, isTagNameChar c = true) →
        isStart tagName s.write = true → isStart tagName t.write = true := by
  have hkey : IsAttributeName classKey := by decide
  obtain ⟨hmerged, hvalue⟩ := h.clear_mergeClasses hwords hadded
  have hstart {tagName : String} (htag : ∀ c ∈ tagName.toList, isTagNameChar c = true)
      (hstart : isStart tagName s.write = true) := h.isStart_setAttribute hkey hclass
    hvalue.unbracketed htag hstart
  have hwrite := h.setAttribute_write hkey hclass
    (joinWith [' '] (mergeClasses (StartTag.classes s.write) added))
  have hget := h.get?_setAttribute hkey hclass
    (joinWith [' '] (mergeClasses (StartTag.classes s.write) added)) classKey
  rw [settable_of_not_mem hvalue.quote] at hwrite hget
  rw [if_pos rfl, hwrite] at hget
  refine ⟨_, hwrite, h.set hkey hvalue, ?_, hwrite ▸ hstart⟩
  show words (((attributes _).get? classKey).getD []) = _
  rw [hget]
  exact words_joinWith hmerged

/-- Setting another attribute leaves the classes. -/
theorem classes_setAttribute (h : s.Clear names) (hname : IsAttributeName name) (hmem : name ∈ names)
    (hne : name ≠ classKey) (value : List Char) :
    StartTag.classes (setAttribute name value s.write) = StartTag.classes s.write := by
  have hget := h.get?_setAttribute hname hmem value classKey
  rw [if_neg hne.symm] at hget
  show words (((attributes _).get? classKey).getD []) = words (((attributes _).get? classKey).getD [])
  rw [hget]

end Clear

end Spelling

end Assessment.Markup.StartTag
