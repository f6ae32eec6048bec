import Mathlib.Data.List.Nodup
import Assessment.Proofs.Markup.SetAttribute
import Assessment.Proofs.Markup.Escape
import Assessment.Xml.Tree

/-!
# Proofs: start tags with any values

Start tags whose attributes are written in the plain form: an ASCII name and a value in double quotes.
Nothing else is asked of the values, so that one may look like an attribute itself.

Reading such a tag finds its attributes and nothing else. Setting one sets it among them, unless an
earlier value misleads the search for it.

Main statements: `Spelling.Plain.attributes_write`, `Spelling.Plain.setAttribute_write_of_not_misleading`,
and from them `setAttribute_changes_one_attribute` for the tag of an element.
`setAttribute_takes_value_for_attribute` is a tag with a misleading value.
-/

namespace Assessment.Markup.StartTag

open Assessment.Text

/-! ## Plain tags -/

/-- The name of an attribute in ASCII. -/
def IsAttributeName : List Char → Prop
  | [] => False
  | c :: s => isNameStart c = true ∧ ∀ d ∈ s, isNamePart d = true

instance : DecidablePred IsAttributeName
  | [] => inferInstanceAs (Decidable False)
  | _ :: _ => inferInstanceAs (Decidable (_ ∧ _))

/-- The attribute has an ASCII name, and its value ends at the closing quote. -/
structure Entry.Plain (e : Entry) : Prop where
  key : IsAttributeName e.key
  value : '\x22' ∉ e.value
  tail : Solid e.tail

/-- The tag has a name, and its attributes are plain. -/
structure Spelling.Plain (s : Spelling) : Prop where
  name_ne : s.name ≠ []
  name : ∀ c ∈ s.name, isTagNameChar c = true
  name_end : ∀ c ∈ s.after.head?, isTagNameChar c = false
  after : Solid s.after
  entries : ∀ e ∈ s.entries, e.Plain

theorem isNamePart_of_isNameStart {c : Char} (h : isNameStart c = true) : isNamePart c = true := by
  rw [isNamePart, h]
  rfl

theorem isTagNameChar_or_of_isNamePart {c : Char} (h : isNamePart c = true) :
    isTagNameChar c = true ∨ c = '_' ∨ c = ':' ∨ c = '.' := by
  simp only [isNamePart, isNameStart, isTagNameChar, Bool.or_eq_true, beq_iff_eq] at h ⊢
  tauto

namespace IsAttributeName

variable {name : List Char}

theorem exists_cons (h : IsAttributeName name) :
    ∃ c s, name = c :: s ∧ isNameStart c = true ∧ ∀ d ∈ s, StartTag.isNamePart d = true := by
  cases name with
  | nil => cases h
  | cons c s => exact ⟨c, s, rfl, h⟩

theorem isNamePart (h : IsAttributeName name) : ∀ c ∈ name, isNamePart c = true := by
  obtain ⟨c, s, rfl, hstart, hparts⟩ := h.exists_cons
  exact List.forall_mem_cons.2 ⟨isNamePart_of_isNameStart hstart, hparts⟩

theorem not_mem (h : IsAttributeName name) {d : Char}
    (hd : StartTag.isNamePart d = false) : d ∉ name := fun hmem => by
  rw [h.isNamePart d hmem] at hd
  cases hd

theorem solid (h : IsAttributeName name) : Solid name where
  isValue c hc := by
    refine ⟨⟨?_, ?_⟩, ?_, ?_⟩ <;> rintro rfl <;> exact absurd (h.isNamePart _ hc) (by decide)
  isBlank c hc := by
    rcases isTagNameChar_or_of_isNamePart (h.isNamePart c hc) with hname | rfl | rfl | rfl
    · obtain ⟨hlow, hhigh⟩ := toNat_of_isTagNameChar hname
      exact not_isBlank_of_le (by omega) (by omega)
    all_goals decide

end IsAttributeName

theorem Entry.Plain.delimited {e : Entry} (h : e.Plain) : e.Delimited where
  key_ne hkey := by
    have hname := h.key
    rw [hkey] at hname
    cases hname
  key := h.key.solid
  value := h.value
  tail := h.tail

theorem Spelling.Plain.delimited {s : Spelling} (h : s.Plain) : s.Delimited :=
  ⟨h.name_ne, h.name, h.name_end, h.after, fun e he => (h.entries e he).delimited⟩

/-! ## Reading -/

theorem findAll_writeEntries_of_plain {entries : List Entry} (h : ∀ e ∈ entries, e.Plain) :
    quotedAttribute.findAll (writeEntries entries ++ ['>']) = pairs entries := by
  induction entries with
  | nil =>
    rw [writeEntries, List.flatMap_nil, List.nil_append, findAll_cons_of_not_isNameStart (by decide),
      quotedAttribute.findAll_nil]
    rfl
  | cons e entries ih =>
    obtain ⟨he, hentries⟩ := List.forall_mem_cons.1 h
    obtain ⟨c, s, hkey, hstart, hparts⟩ := he.key.exists_cons
    have hrun : quotedAttribute.run (e.key ++ '=' :: '\x22' ::
        (e.value ++ '\x22' :: (e.tail ++ (writeEntries entries ++ ['>'])))) =
          some ((e.key, e.value), e.tail ++ (writeEntries entries ++ ['>'])) := by
      rw [hkey]
      exact attribute?_key hstart (List.all_eq_true.2 hparts) he.value _
    have hstops := stops_writeEntries fun e he => (hentries e he).delimited
    rw [writeEntries_cons, List.append_assoc, Entry.write_append,
      findAll_cons_of_not_isNameStart (by decide), quotedAttribute.findAll_of_run hrun,
      findAll_append_of_stops he.tail.isValue.not_mem.1 hstops, ih hentries]
    rfl

/-- The attributes of a plain tag are found and nothing else is. -/
theorem Spelling.Plain.findAll_write {s : Spelling} (h : s.Plain) :
    quotedAttribute.findAll s.write = pairs s.entries :=
  h.delimited.findAll_write.trans (findAll_writeEntries_of_plain h.entries)

/-- The attributes of a plain tag are read as they are written. -/
theorem Spelling.Plain.attributes_write {s : Spelling} (h : s.Plain) (hkeys : (keys s.entries).Nodup) :
    attributes s.write = pairs s.entries := by
  rw [attributes, h.findAll_write, Attributes.ofList_of_nodup (keys_eq _ ▸ hkeys)]

/-! ## Setting an attribute -/

/-- Setting an attribute of a plain tag sets it among its attributes, unless an earlier value
misleads. -/
theorem Spelling.Plain.setAttribute_write_of_not_misleading {s : Spelling} (h : s.Plain)
    {name : List Char} (hname : IsAttributeName name) (hleads : ¬ Misleading name (pairs s.entries))
    (value : List Char) :
    setAttribute name value s.write = (s.set name (settable value)).write :=
  h.delimited.setAttribute_write hname.solid hleads value

/-! ## The attributes of the tag afterwards -/

theorem pairs_assign {name : List Char} (value : List Char) {entries : List Entry}
    (h : name ∈ keys entries) :
    pairs (assign name value entries) = Attributes.put name value (pairs entries) := by
  induction entries with
  | nil => cases h
  | cons e entries ih =>
    have hpairs : pairs (e :: entries) = (e.key, e.value) :: pairs entries := rfl
    rw [assign, hpairs, Attributes.put]
    by_cases hsame : e.key = name
    · rw [if_pos hsame, if_pos hsame]
      rfl
    · have hin : name ∈ keys entries := (List.mem_cons.1 h).resolve_left (Ne.symm hsame)
      rw [if_neg hsame, if_neg hsame, ← ih hin]
      rfl

/-- Attributes with one of them set: in its place, or else in front. -/
def setPair (name value : List Char) (attributes : Attributes) : Attributes :=
  if (attributes.get? name).isSome then Attributes.put name value attributes
  else (name, value) :: attributes

theorem pairs_set (s : Spelling) (name value : List Char) :
    pairs (s.set name value).entries = setPair name value (pairs s.entries) := by
  have hkeys : ((pairs s.entries).get? name).isSome ↔ name ∈ keys s.entries :=
    keys_eq s.entries ▸ Attributes.isSome_get?_iff
  rw [setPair]
  by_cases hmem : name ∈ keys s.entries
  · rw [if_pos (hkeys.2 hmem), Spelling.set_of_mem hmem, pairs_assign value hmem]
  · rw [if_neg (hkeys.not.2 hmem), Spelling.set_of_not_mem hmem]
    rfl

theorem filter_put (name value : List Char) (attributes : Attributes) :
    (Attributes.put name value attributes).filter (·.1 ≠ name) =
      attributes.filter (·.1 ≠ name) := by
  induction attributes with
  | nil => simp [Attributes.put]
  | cons a attributes ih =>
    obtain ⟨n, v⟩ := a
    by_cases hn : n = name
    · simp [Attributes.put, hn]
    · simp only [Attributes.put, if_neg hn, List.filter_cons, ih]

/-- What is set is found, and nothing else changes. -/
theorem get?_setPair (name other value : List Char) (attributes : Attributes) :
    (setPair name value attributes).get? other =
      if other = name then some value else attributes.get? other := by
  unfold setPair
  split
  · exact Attributes.get?_put name other value attributes
  · simp [Attributes.get?, eq_comm]

theorem filter_setPair (name value : List Char) (attributes : Attributes) :
    (setPair name value attributes).filter (·.1 ≠ name) = attributes.filter (·.1 ≠ name) := by
  unfold setPair
  split
  · exact filter_put name value attributes
  · simp

theorem plain_assign {name value : List Char} (hvalue : '\x22' ∉ value) {entries : List Entry}
    (h : ∀ e ∈ entries, e.Plain) : ∀ e ∈ assign name value entries, e.Plain := by
  induction entries with
  | nil => exact h
  | cons e entries ih =>
    obtain ⟨he, hentries⟩ := List.forall_mem_cons.1 h
    rw [assign]
    split
    · exact List.forall_mem_cons.2 ⟨⟨he.key, hvalue, he.tail⟩, hentries⟩
    · exact List.forall_mem_cons.2 ⟨he, ih hentries⟩

namespace Spelling

variable {s : Spelling} {name value : List Char}

theorem Plain.set (h : s.Plain) (hname : IsAttributeName name) (hvalue : '\x22' ∉ value) :
    (s.set name value).Plain := by
  by_cases hmem : name ∈ keys s.entries
  · rw [set_of_mem hmem]
    exact ⟨h.name_ne, h.name, h.name_end, h.after, plain_assign hvalue h.entries⟩
  · rw [set_of_not_mem hmem]
    exact ⟨h.name_ne, h.name, by simp, solid_nil,
      List.forall_mem_cons.2 ⟨⟨hname, hvalue, h.after⟩, h.entries⟩⟩

theorem nodup_keys_set (h : (keys s.entries).Nodup) : (keys (s.set name value).entries).Nodup := by
  by_cases hmem : name ∈ keys s.entries
  · rwa [set_of_mem hmem, keys_assign]
  · rw [set_of_not_mem hmem]
    exact List.nodup_cons.2 ⟨hmem, h⟩

/-- The attributes of a plain tag after one of them was set. -/
theorem Plain.attributes_setAttribute (h : s.Plain) (hkeys : (keys s.entries).Nodup)
    (hname : IsAttributeName name) (hleads : ¬ Misleading name (pairs s.entries)) :
    attributes (setAttribute name value s.write) =
      setPair name (settable value) (pairs s.entries) := by
  rw [h.setAttribute_write_of_not_misleading hname hleads,
    (h.set hname (not_mem_settable value)).attributes_write (nodup_keys_set hkeys), pairs_set]

end Spelling

/-! ## The tags of elements -/

/-- The attributes of an element as they are written in its tag. -/
def writtenPairs (attributes : Attributes) : Attributes :=
  (attributes.filter fun a => !Xml.isDeclaration a.1).map fun a =>
    (Xml.attributeName a.1, Markup.escape a.2)

/-- The tag of an element by its parts. -/
def spellingOf (name : List Char) (attributes : Attributes) : Spelling :=
  ⟨name, [], (writtenPairs attributes).map fun a => ⟨a.1, a.2, []⟩⟩

@[simp] theorem pairs_spellingOf (name : List Char) (attributes : Attributes) :
    pairs (spellingOf name attributes).entries = writtenPairs attributes := by
  simp [pairs, spellingOf, Function.comp_def]

theorem write_spellingOf (name : List Char) (attributes : Attributes) :
    (spellingOf name attributes).write = '<' :: name ++ Xml.writeAttributes attributes ++ ['>'] := by
  have hentries : writeEntries (spellingOf name attributes).entries = Xml.writeAttributes attributes := by
    unfold spellingOf writtenPairs
    induction attributes with
    | nil => rfl
    | cons a attributes ih =>
      have hcons : Xml.writeAttributes (a :: attributes) =
          (if Xml.isDeclaration a.1 then [] else Xml.writeAttribute a.1 a.2) ++
            Xml.writeAttributes attributes := List.flatMap_cons
      rw [hcons, ← ih]
      by_cases hdeclaration : Xml.isDeclaration a.1 = true
      · simp [hdeclaration]
      · simp [hdeclaration, Entry.write, Xml.writeAttribute]
  rw [Spelling.write, hentries]
  simp [spellingOf]

theorem plain_spellingOf {name : List Char} (hne : name ≠ [])
    (hname : ∀ c ∈ name, isTagNameChar c = true) {attributes : Attributes}
    (h : ∀ a ∈ writtenPairs attributes, IsAttributeName a.1) : (spellingOf name attributes).Plain where
  name_ne := hne
  name := hname
  name_end := by simp [spellingOf]
  after := solid_nil
  entries e he := by
    obtain ⟨a, ha, rfl⟩ := List.mem_map.1 he
    refine ⟨h a ha, ?_, solid_nil⟩
    obtain ⟨b, -, rfl⟩ := List.mem_map.1 ha
    exact quote_not_mem_escape b.2

/-- Setting an attribute in the tag of an element changes that attribute only: it then has the new value,
and the other attributes are the same as before, with their values and in their order. The names of
the attributes are ASCII and distinct, the values are arbitrary. No value that is written before the
attribute, or before the end of the attributes if it is new, may end like its beginning. -/
theorem setAttribute_changes_one_attribute {name key value : List Char} {attributes : Attributes}
    (hne : name ≠ []) (hname : ∀ c ∈ name, isTagNameChar c = true)
    (hnames : ∀ a ∈ writtenPairs attributes, IsAttributeName a.1)
    (hdistinct : ((writtenPairs attributes).map Prod.fst).Nodup) (hkey : IsAttributeName key)
    (hleads : ¬ Misleading key (writtenPairs attributes)) :
    let tag := '<' :: name ++ Xml.writeAttributes attributes ++ ['>']
    let changed := StartTag.attributes (setAttribute key value tag)
    StartTag.attributes tag = writtenPairs attributes ∧
      changed.get? key = some (replaceChar '\x22' "&quot;".toList value) ∧
      changed.filter (·.1 ≠ key) = (writtenPairs attributes).filter (·.1 ≠ key) ∧
      (changed.map Prod.fst).Nodup := by
  have hplain := plain_spellingOf hne hname hnames
  have hkeys : (keys (spellingOf name attributes).entries).Nodup := by
    rwa [keys_eq, pairs_spellingOf]
  have hread := hplain.attributes_write hkeys
  have hset := @Spelling.Plain.attributes_setAttribute _ key value hplain hkeys hkey
    (by simpa using hleads)
  have hnodup := @Spelling.nodup_keys_set _ key (settable value) hkeys
  rw [keys_eq, pairs_set] at hnodup
  rw [pairs_spellingOf] at hread hset hnodup
  rw [write_spellingOf] at hread hset
  intro tag changed
  have hchanged : changed = setPair key (settable value) (writtenPairs attributes) := hset
  rw [hchanged]
  exact ⟨hread, (get?_setPair ..).trans (if_pos rfl), filter_setPair .., hnodup⟩

/-- Attributes with a value that ends like the beginning of an attribute, after that attribute. -/
def pictureAttributes : Attributes :=
  [("title".toList, "a < b".toList), ("class".toList, "wide".toList),
    ("alt".toList, "x class=".toList), ("id".toList, "p".toList)]

/-- The class of a picture is set, and the other attributes stay. -/
theorem setAttribute_changes_class_of_picture :
    ¬ Misleading "class".toList (writtenPairs pictureAttributes) ∧
      let tag := '<' :: "img".toList ++ Xml.writeAttributes pictureAttributes ++ ['>']
      let changed := StartTag.attributes (setAttribute "class".toList "a \"b\"".toList tag)
      changed.get? "class".toList = some "a &quot;b&quot;".toList ∧
        changed.filter (·.1 ≠ "class".toList) =
          [("title".toList, "a &lt; b".toList), ("alt".toList, "x class=".toList),
            ("id".toList, "p".toList)] := by
  have htitle : ¬ EndsLike "class".toList "a &lt; b".toList := not_endsLike_of_getLast? (by decide)
  have hleads : ¬ Misleading "class".toList (writtenPairs pictureAttributes) := by
    rintro ⟨-, ⟨hends, -⟩ | ⟨hne, -⟩⟩
    · exact htitle hends
    · exact hne rfl
  obtain ⟨-, hget, hfilter, -⟩ := @setAttribute_changes_one_attribute "img".toList "class".toList
    "a \"b\"".toList pictureAttributes (by decide) (by decide) (by decide) (by decide) (by decide) hleads
  exact ⟨hleads, hget, hfilter.trans (by decide)⟩

/-- Where the value of the attribute in front ends like the attribute that is set, this value is cut
there, and the attribute behind it is gone. -/
theorem setAttribute_takes_value_for_attribute :
    ¬ ∀ (name key value : List Char) (attributes : Attributes), name ≠ [] →
      (∀ c ∈ name, isTagNameChar c = true) →
      (∀ a ∈ writtenPairs attributes, IsAttributeName a.1) →
      ((writtenPairs attributes).map Prod.fst).Nodup → IsAttributeName key →
      let tag := '<' :: name ++ Xml.writeAttributes attributes ++ ['>']
      let changed := StartTag.attributes (setAttribute key value tag)
      changed.get? key = some (replaceChar '\x22' "&quot;".toList value) ∧
        changed.filter (·.1 ≠ key) = (writtenPairs attributes).filter (·.1 ≠ key) := by
  intro h
  have hchanged := h "code".toList "class".toList "z".toList
    [("a".toList, "x class=".toList), ("b".toList, "y".toList)]
    (by decide) (by decide) (by decide) (by decide) (by decide)
  exact absurd hchanged.1 (by decide +kernel)

end Assessment.Markup.StartTag
