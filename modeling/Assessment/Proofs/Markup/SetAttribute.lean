import Assessment.Proofs.Markup.AttributeSearch

/-!
# Proofs: setting attributes of start tags

The laws of reading an attribute that was set, and of setting several one after the other. What was set
is read, unless a later key is read as the same name: then its value hides what is set
(`Spelling.hidden?`), and this does not change by setting anything.
-/

namespace Assessment.Markup.StartTag

open Assessment.Text

/-! ## Lists of attributes -/

/-- The value that is read under a name after the first key that is this name. -/
def laterValue (name : List Char) : List Entry → Option (List Char)
  | [] => none
  | e :: entries => if e.key = name then lastValue name entries else laterValue name entries

/-- The key is read as it stands. -/
def IsKey (key : List Char) : Prop := readName key = some key

@[simp] theorem keys_assign (key value : List Char) (entries : List Entry) :
    keys (assign key value entries) = keys entries := by
  induction entries with
  | nil => rfl
  | cons e entries ih =>
    rw [assign]
    split
    · rfl
    · exact congrArg (e.key :: ·) ih

theorem lastValue_assign_of_ne {name key : List Char} (hkey : IsKey key) (hne : name ≠ key)
    (value : List Char) (entries : List Entry) :
    lastValue name (assign key value entries) = lastValue name entries := by
  induction entries with
  | nil => rfl
  | cons e entries ih =>
    rw [assign]
    split
    · next hsame =>
      have hread : ¬ readName e.key = some name := by
        rw [hsame, hkey]
        exact fun heq => hne (Option.some.inj heq).symm
      rw [lastValue, lastValue, if_neg hread, if_neg hread]
    · rw [lastValue, lastValue, ih]

/-- The value under a key is the new one, unless another key is read as this one after it. -/
theorem lastValue_assign {key : List Char} (hkey : IsKey key) (value : List Char)
    {entries : List Entry} (h : key ∈ keys entries) :
    lastValue key (assign key value entries) = (laterValue key entries).or (some value) := by
  induction entries with
  | nil => cases h
  | cons e entries ih =>
    rw [assign, laterValue]
    by_cases hsame : e.key = key
    · rw [if_pos hsame, if_pos hsame, lastValue, if_pos (hsame ▸ hkey)]
    · have hmem : key ∈ keys entries := (List.mem_cons.1 h).resolve_left (Ne.symm hsame)
      rw [if_neg hsame, if_neg hsame, lastValue, ih hmem, Option.or_assoc]
      rfl

theorem laterValue_assign {name key : List Char} (hkey : IsKey key) (value : List Char)
    (entries : List Entry) :
    laterValue name (assign key value entries) = laterValue name entries := by
  induction entries with
  | nil => rfl
  | cons e entries ih =>
    rw [assign]
    by_cases hsame : e.key = key
    · rw [if_pos hsame, laterValue, laterValue]
    · rw [if_neg hsame, laterValue, laterValue, ih]
      by_cases hname : e.key = name
      · rw [if_pos hname, if_pos hname, lastValue_assign_of_ne hkey (hname ▸ hsame)]
      · rw [if_neg hname, if_neg hname]

theorem lastValue_of_laterValue {name value : List Char} {entries : List Entry}
    (h : laterValue name entries = some value) : lastValue name entries = some value := by
  induction entries with
  | nil => cases h
  | cons e entries ih =>
    rw [laterValue] at h
    rw [lastValue]
    split at h
    · rw [h, Option.some_or]
    · rw [ih h, Option.some_or]

theorem assign_assign (key value value' : List Char) (entries : List Entry) :
    assign key value (assign key value' entries) = assign key value entries := by
  induction entries with
  | nil => rfl
  | cons e entries ih =>
    by_cases hsame : e.key = key
    · simp [assign, hsame]
    · simp [assign, hsame, ih]

theorem assign_comm {key key' : List Char} (hne : key ≠ key') (value value' : List Char)
    (entries : List Entry) :
    assign key value (assign key' value' entries) = assign key' value' (assign key value entries) := by
  induction entries with
  | nil => rfl
  | cons e entries ih =>
    by_cases hsame : e.key = key
    · have hother : e.key ≠ key' := hsame ▸ hne
      simp [assign, hsame, hne]
    · by_cases hsame' : e.key = key'
      · simp [assign, hsame', Ne.symm hne]
      · simp [assign, hsame, hsame', ih]

/-! ## Tags -/

namespace Spelling

/-- The value that hides what is set under a name: that of a key which is read as the name and comes
after the place where the value is set. -/
def hidden? (name : List Char) (s : Spelling) : Option (List Char) :=
  if (keys s.entries).contains name then laterValue name s.entries else lastValue name s.entries

variable {s : Spelling} {name key key' : List Char}

theorem hidden?_of_mem (h : name ∈ keys s.entries) : s.hidden? name = laterValue name s.entries :=
  if_pos (List.contains_iff_mem.2 h)

theorem hidden?_of_not_mem (h : name ∉ keys s.entries) : s.hidden? name = lastValue name s.entries :=
  if_neg (mt List.contains_iff_mem.1 h)

/-- The tag has the key that was set, and the keys it had. -/
theorem mem_keys_set (value : List Char) :
    name ∈ keys (s.set key value).entries ↔ name = key ∨ name ∈ keys s.entries := by
  by_cases hmem : key ∈ keys s.entries
  · rw [set_of_mem hmem, keys_assign]
    exact ⟨.inr, fun h => h.elim (· ▸ hmem) id⟩
  · rw [set_of_not_mem hmem]
    exact List.mem_cons

/-- Where nothing hides it, the value that was set is read. -/
theorem get?_set (hkey : IsKey key) (value : List Char) :
    (s.set key value).get? key = (s.hidden? key).or (some value) := by
  unfold get?
  by_cases hmem : key ∈ keys s.entries
  · rw [set_of_mem hmem, hidden?_of_mem hmem, lastValue_assign hkey value hmem]
  · have hread : readName key = some key := hkey
    rw [set_of_not_mem hmem, hidden?_of_not_mem hmem, lastValue, if_pos hread]

theorem get?_set_of_ne (hkey : IsKey key) (hne : name ≠ key) (value : List Char) :
    (s.set key value).get? name = s.get? name := by
  unfold get?
  by_cases hmem : key ∈ keys s.entries
  · rw [set_of_mem hmem, lastValue_assign_of_ne hkey hne]
  · have hread : ¬ readName key = some name := by
      rw [hkey]
      exact fun heq => hne (Option.some.inj heq).symm
    rw [set_of_not_mem hmem, lastValue, if_neg hread, Option.or_none]

theorem laterValue_set_of_ne (hkey : IsKey key) (hne : name ≠ key) (value : List Char) :
    laterValue name (s.set key value).entries = laterValue name s.entries := by
  by_cases hmem : key ∈ keys s.entries
  · rw [set_of_mem hmem, laterValue_assign hkey]
  · rw [set_of_not_mem hmem, laterValue, if_neg (Ne.symm hne)]

/-- Setting an attribute hides nothing. -/
theorem hidden?_set (hkey : IsKey key) (value : List Char) :
    (s.set key value).hidden? name = s.hidden? name := by
  by_cases hname : name = key
  · subst hname
    have hset : name ∈ keys (s.set name value).entries := (mem_keys_set value).2 (.inl rfl)
    rw [hidden?_of_mem hset]
    by_cases hmem : name ∈ keys s.entries
    · rw [set_of_mem hmem, laterValue_assign hkey, hidden?_of_mem hmem]
    · rw [set_of_not_mem hmem, laterValue, if_pos rfl, hidden?_of_not_mem hmem]
  · have hsame : name ∈ keys (s.set key value).entries ↔ name ∈ keys s.entries := by
      rw [mem_keys_set]
      simp [hname]
    by_cases hmem : name ∈ keys s.entries
    · rw [hidden?_of_mem (hsame.2 hmem), hidden?_of_mem hmem, laterValue_set_of_ne hkey hname]
    · rw [hidden?_of_not_mem fun h => hmem (hsame.1 h), hidden?_of_not_mem hmem]
      exact get?_set_of_ne hkey hname value

/-- What hides other values is read itself. -/
theorem get?_of_hidden? {value : List Char} (h : s.hidden? name = some value) :
    s.get? name = some value := by
  by_cases hmem : name ∈ keys s.entries
  · rw [hidden?_of_mem hmem] at h
    exact lastValue_of_laterValue h
  · rwa [hidden?_of_not_mem hmem] at h

/-- Of two values set under one key the second remains. -/
theorem set_set (value value' : List Char) : (s.set key value).set key value' = s.set key value' := by
  have hset : key ∈ keys (s.set key value).entries := (mem_keys_set value).2 (.inl rfl)
  rw [set_of_mem hset]
  by_cases hmem : key ∈ keys s.entries
  · rw [set_of_mem hmem, set_of_mem hmem, assign_assign]
  · rw [set_of_not_mem hmem, set_of_not_mem hmem, assign, if_pos rfl]

/-- The order of two settings does not matter if the tag has one of the keys, and so no second one is put
in front of a first. -/
theorem set_comm (hne : key ≠ key') (h : key ∈ keys s.entries ∨ key' ∈ keys s.entries)
    (value value' : List Char) :
    (s.set key value).set key' value' = (s.set key' value').set key value := by
  have hafter : key' ∈ keys (s.set key value).entries ↔ key' ∈ keys s.entries := by
    rw [mem_keys_set]
    simp [Ne.symm hne]
  have hafter' : key ∈ keys (s.set key' value').entries ↔ key ∈ keys s.entries := by
    rw [mem_keys_set]
    simp [hne]
  by_cases hmem : key ∈ keys s.entries
  · by_cases hmem' : key' ∈ keys s.entries
    · rw [set_of_mem (hafter.2 hmem'), set_of_mem (hafter'.2 hmem), set_of_mem hmem, set_of_mem hmem',
        assign_comm (Ne.symm hne)]
    · rw [set_of_not_mem fun hin => hmem' (hafter.1 hin), set_of_mem (hafter'.2 hmem),
        set_of_mem hmem, set_of_not_mem hmem', assign, if_neg (Ne.symm hne)]
  · have hmem' := h.resolve_left hmem
    rw [set_of_mem (hafter.2 hmem'), set_of_not_mem fun hin => hmem (hafter'.1 hin),
      set_of_not_mem hmem, set_of_mem hmem', assign, if_neg hne]

end Spelling

theorem assign_regular {key value : List Char} (hvalue : IsValue value) {entries : List Entry}
    (h : ∀ e ∈ entries, e.Regular) : ∀ e ∈ assign key value entries, e.Regular := by
  induction entries with
  | nil => exact h
  | cons e entries ih =>
    obtain ⟨he, hentries⟩ := List.forall_mem_cons.1 h
    rw [assign]
    split
    · exact List.forall_mem_cons.2 ⟨⟨he.key_ne, he.key, hvalue, he.tail⟩, hentries⟩
    · exact List.forall_mem_cons.2 ⟨he, ih hentries⟩

theorem Spelling.Regular.set {s : Spelling} (h : s.Regular) {key value : List Char} (hne : key ≠ [])
    (hkey : Solid key) (hvalue : IsValue value) : (s.set key value).Regular := by
  by_cases hmem : key ∈ keys s.entries
  · rw [set_of_mem hmem]
    exact ⟨h.name_ne, h.name, h.name_end, h.after, assign_regular hvalue h.entries⟩
  · rw [set_of_not_mem hmem]
    have hinserted : Entry.Regular ⟨key, value, s.after⟩ := ⟨hne, hkey, hvalue, h.after⟩
    refine ⟨h.name_ne, h.name, ?_, solid_nil, List.forall_mem_cons.2 ⟨hinserted, h.entries⟩⟩
    intro c hc
    cases hc

/-- A tag that begins with the name of a tag and goes on after it begins with that name alone. -/
theorem beginsWord_of_append {name tag after : List Char} (hname : ∀ c ∈ name, isTagNameChar c = true)
    (hafter : ∀ c ∈ after.head?, isTagNameChar c = false) (h : beginsWord name (tag ++ after) = true) :
    beginsWord name tag = true := by
  unfold beginsWord at h ⊢
  split at h
  · next t ht =>
    rcases List.append_eq_append_iff.1 (after?_eq_some_iff.1 ht) with
      ⟨more, hmore, hrest⟩ | ⟨more, hmore, hrest⟩
    · cases more with
      | nil =>
        rw [List.append_nil] at hmore
        rw [after?_eq_some_iff.2 (by rw [hmore, List.append_nil] : tag = name ++ [])]
        rfl
      | cons c more =>
        have hin := hname c (hmore ▸ List.mem_append_right _ List.mem_cons_self)
        have hout := hafter c (by rw [hrest]; rfl)
        rw [hin] at hout
        cases hout
    · rw [after?_eq_some_iff.2 hmore]
      cases more with
      | nil => rfl
      | cons c more =>
        rw [hrest] at h
        exact h
  · cases h

theorem Spelling.isStart_set {s : Spelling} {key value : List Char}
    (hend : ∀ c ∈ s.after.head?, isTagNameChar c = false)
    (h : Unbracketed (s.name ++ s.after ++ writeEntries s.entries))
    (hset : Unbracketed ((s.set key value).name ++ (s.set key value).after ++
      writeEntries (s.set key value).entries))
    {name : String} (hname : ∀ c ∈ name.toList, isTagNameChar c = true)
    (hstart : isStart name s.write = true) : isStart name (s.set key value).write = true := by
  have hbracket : '>' ∉ name.toList := fun hc => absurd (hname _ hc) (by decide)
  have hspace : ' ' ∉ name.toList := fun hc => absurd (hname _ hc) (by decide)
  rw [isStart_write hset hbracket hspace]
  rw [isStart_write h hbracket hspace] at hstart
  by_cases hmem : key ∈ keys s.entries
  · rw [set_of_mem hmem]
    exact hstart
  · rw [set_of_not_mem hmem, List.append_nil]
    exact beginsWord_of_append hname hend hstart

theorem Spelling.Regular.isStart_set {s : Spelling} (h : s.Regular) {name : String}
    (hname : ∀ c ∈ name.toList, isTagNameChar c = true) {key value : List Char} (hne : key ≠ [])
    (hkey : Solid key) (hvalue : IsValue value) (hstart : isStart name s.write = true) :
    isStart name (s.set key value).write = true :=
  Spelling.isStart_set h.name_end h.unbracketed (h.set hne hkey hvalue).unbracketed hname hstart

end Assessment.Markup.StartTag
