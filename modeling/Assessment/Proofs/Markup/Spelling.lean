import Assessment.Proofs.Markup.RawTag
import Assessment.Proofs.Text.Blank
import Assessment.Markup.StartTag

/-!
# Proofs: start tags by their parts

A start tag as it is written for an element: a name, and attributes in double quotes. Reading it as text
finds these attributes, and setting an attribute changes one of them or puts a new one in front.

A key is not always read as it stands: reading takes the part of it from which on it is a name
(`readName`), and of several values that are read under one name the last.
-/

namespace Assessment.Markup.StartTag

open Assessment.Text

/-! ## The parts of a tag -/

/-- The text holds no equals sign, no double quote and no bracket. -/
def IsValue (s : List Char) : Prop := ∀ c ∈ s, (c ≠ '=' ∧ c ≠ '\x22') ∧ c ≠ '<' ∧ c ≠ '>'

/-- The text could be a value, and holds no white space. -/
structure Solid (s : List Char) : Prop where
  /-- It could be a value. -/
  isValue : IsValue s
  /-- It holds no white space. -/
  isBlank : ∀ c ∈ s, isBlank c = false

theorem IsValue.not_mem {s : List Char} (h : IsValue s) : '=' ∉ s ∧ '\x22' ∉ s :=
  ⟨fun hc => (h _ hc).1.1 rfl, fun hc => (h _ hc).1.2 rfl⟩

theorem IsValue.unbracketed {s : List Char} (h : IsValue s) : Unbracketed s := fun c hc => (h c hc).2

theorem IsValue.of_subset {s t : List Char} (ht : IsValue t) (h : s ⊆ t) : IsValue s :=
  fun c hc => ht c (h hc)

theorem solid_nil : Solid [] where
  isValue _ hc := absurd hc List.not_mem_nil
  isBlank _ hc := absurd hc List.not_mem_nil

theorem Solid.tail {c : Char} {s : List Char} (h : Solid (c :: s)) : Solid s where
  isValue d hd := h.isValue d (List.mem_cons_of_mem c hd)
  isBlank d hd := h.isBlank d (List.mem_cons_of_mem c hd)

/-- An attribute in a start tag, and what stands between it and the space before the next. -/
structure Entry where
  /-- The name as it is written. -/
  key : List Char
  /-- The value as it is written. -/
  value : List Char
  /-- What follows the value up to the next space. -/
  tail : List Char

/-- A start tag by its parts. -/
structure Spelling where
  /-- The name of the tag, as far as a name of a tag goes. -/
  name : List Char
  /-- What follows the name up to the first space. -/
  after : List Char
  /-- The attributes. -/
  entries : List Entry

namespace Entry

/-- The attribute as it is written. -/
def write (e : Entry) : List Char :=
  ' ' :: (e.key ++ '=' :: '\x22' :: (e.value ++ '\x22' :: e.tail))

/-- The parts are of the characters that can stand there. -/
structure Regular (e : Entry) : Prop where
  /-- There is a key. -/
  key_ne : e.key ≠ []
  /-- The key is one piece. -/
  key : Solid e.key
  /-- The value ends at the closing quote. -/
  value : IsValue e.value
  /-- What follows is one piece. -/
  tail : Solid e.tail

/-- Each part ends where the next one begins. The value may hold anything else. -/
structure Delimited (e : Entry) : Prop where
  /-- There is a key. -/
  key_ne : e.key ≠ []
  /-- The key is one piece. -/
  key : Solid e.key
  /-- The value ends at the closing quote. -/
  value : '\x22' ∉ e.value
  /-- What follows is one piece. -/
  tail : Solid e.tail

theorem Regular.delimited {e : Entry} (h : e.Regular) : e.Delimited :=
  ⟨h.key_ne, h.key, h.value.not_mem.2, h.tail⟩

theorem write_append (e : Entry) (rest : List Char) :
    e.write ++ rest =
      ' ' :: (e.key ++ '=' :: '\x22' :: (e.value ++ '\x22' :: (e.tail ++ rest))) := by
  simp [write]

end Entry

/-- Attributes as they are written. -/
def writeEntries (entries : List Entry) : List Char := entries.flatMap Entry.write

@[simp] theorem writeEntries_cons (e : Entry) (entries : List Entry) :
    writeEntries (e :: entries) = e.write ++ writeEntries entries := List.flatMap_cons

namespace Spelling

/-- The tag as it is written. -/
def write (s : Spelling) : List Char :=
  '<' :: (s.name ++ (s.after ++ (writeEntries s.entries ++ ['>'])))

/-- The parts are of the characters that can stand there. -/
structure Regular (s : Spelling) : Prop where
  /-- There is a name. -/
  name_ne : s.name ≠ []
  /-- The name is one of a tag. -/
  name : ∀ c ∈ s.name, isTagNameChar c = true
  /-- The name goes no further. -/
  name_end : ∀ c ∈ s.after.head?, isTagNameChar c = false
  /-- What follows the name is one piece. -/
  after : Solid s.after
  /-- The attributes are regular. -/
  entries : ∀ e ∈ s.entries, e.Regular

/-- Each part ends where the next one begins. -/
structure Delimited (s : Spelling) : Prop where
  /-- There is a name. -/
  name_ne : s.name ≠ []
  /-- The name is one of a tag. -/
  name : ∀ c ∈ s.name, isTagNameChar c = true
  /-- The name goes no further. -/
  name_end : ∀ c ∈ s.after.head?, isTagNameChar c = false
  /-- What follows the name is one piece. -/
  after : Solid s.after
  /-- The attributes are delimited. -/
  entries : ∀ e ∈ s.entries, e.Delimited

theorem Regular.delimited {s : Spelling} (h : s.Regular) : s.Delimited :=
  ⟨h.name_ne, h.name, h.name_end, h.after, fun e he => (h.entries e he).delimited⟩

end Spelling

/-! ## The characters of a tag -/

theorem toNat_of_isTagNameChar {c : Char} (h : isTagNameChar c = true) :
    0x2D ≤ c.toNat ∧ c.toNat ≤ 0x7A := by
  have hval : c.toNat = c.val.toNat := rfl
  simp only [isTagNameChar, isLetter, Char.isDigit, Bool.or_eq_true, Bool.and_eq_true,
    decide_eq_true_eq, beq_iff_eq, Char.le_def, UInt32.le_iff_toNat_le, ge_iff_le] at h
  rcases h with ((⟨hlow, hhigh⟩ | ⟨hlow, hhigh⟩) | ⟨hlow, hhigh⟩) | rfl
  · exact ⟨Nat.le_trans (by decide) hlow, hhigh⟩
  · exact ⟨Nat.le_trans (by decide) hlow, Nat.le_trans hhigh (by decide)⟩
  · exact ⟨Nat.le_trans (by decide) hlow, Nat.le_trans hhigh (by decide)⟩
  · decide

theorem solid_of_isTagNameChar {s : List Char} (h : ∀ c ∈ s, isTagNameChar c = true) : Solid s where
  isValue c hc := by
    have hname := h c hc
    refine ⟨⟨?_, ?_⟩, ?_, ?_⟩ <;> rintro rfl <;> exact absurd hname (by decide)
  isBlank c hc := by
    obtain ⟨hlow, hhigh⟩ := toNat_of_isTagNameChar (h c hc)
    exact not_isBlank_of_le (by omega) (by omega)

/-! ## The tag as a whole -/

theorem Entry.Regular.unbracketed_write {e : Entry} (h : e.Regular) : Unbracketed e.write := by
  have hsign : Unbracketed "=\"".toList := by decide
  have hquote : Unbracketed ['\x22'] := by decide
  have htext : e.write = (' ' :: e.key) ++ "=\"".toList ++ e.value ++ ['\x22'] ++ e.tail := by
    simp [write]
  have hkey : Unbracketed (' ' :: e.key) := .cons (by decide) (by decide) h.key.isValue.unbracketed
  rw [htext]
  exact (((hkey.append hsign).append h.value.unbracketed).append hquote).append
    h.tail.isValue.unbracketed

theorem unbracketed_writeEntries {entries : List Entry} (h : ∀ e ∈ entries, e.Regular) :
    Unbracketed (writeEntries entries) := by
  intro c hc
  obtain ⟨e, he, hc⟩ := List.mem_flatMap.1 hc
  exact (h e he).unbracketed_write c hc

namespace Spelling

theorem write_eq (s : Spelling) :
    s.write = '<' :: (s.name ++ s.after ++ writeEntries s.entries) ++ ['>'] := by
  simp [write]

theorem Regular.unbracketed {s : Spelling} (h : s.Regular) :
    Unbracketed (s.name ++ s.after ++ writeEntries s.entries) :=
  ((solid_of_isTagNameChar h.name).isValue.unbracketed.append h.after.isValue.unbracketed).append
    (unbracketed_writeEntries h.entries)

theorem Regular.isTag_write {s : Spelling} (h : s.Regular) : IsTag s.write := by
  rw [write_eq]
  exact .intro h.unbracketed

/-- The name of a tag ends before its attributes. -/
theorem isStart_write {s : Spelling} (h : Unbracketed (s.name ++ s.after ++ writeEntries s.entries))
    {name : String} (hbracket : '>' ∉ name.toList) (hspace : ' ' ∉ name.toList) :
    isStart name s.write = beginsWord name.toList (s.name ++ s.after) := by
  rw [write_eq, isStart_eq hbracket h]
  cases s.entries with
  | nil => exact congrArg _ (List.append_nil _)
  | cons e entries =>
    rw [writeEntries_cons]
    exact beginsWord_append_cons hspace (by decide +kernel) _ _

end Spelling

/-! ## Reading a tag -/

theorem assigned?_cons {c : Char} (hblank : isBlank c = false) (hc : c ≠ '=') (s : List Char) :
    assigned? (c :: s) = none := by
  unfold assigned?
  rw [List.dropWhile_cons_of_neg (ne_true_of_eq_false hblank)]
  split
  · next heq =>
    cases heq
    exact absurd rfl hc
  · rfl

theorem attribute?_of_not_assigned {s : List Char} (h : assigned? (s.dropWhile isNamePart) = none)
    (c : Char) : attribute? (c :: s) = none := by
  rw [attribute?, h, Option.map_none, ite_self]

/-- No attribute that begins before the text goes on into it. -/
structure Stops (s : List Char) : Prop where
  /-- No name goes on into the text. -/
  name : s.dropWhile isNamePart = s
  /-- No value is assigned by the text. -/
  assigned : assigned? s = none

theorem stops_cons {c : Char} (hname : isNamePart c = false) (hblank : isBlank c = false) (hc : c ≠ '=')
    (s : List Char) : Stops (c :: s) where
  name := List.dropWhile_cons_of_neg (ne_true_of_eq_false hname)
  assigned := assigned?_cons hblank hc s

/-- No value is assigned by a text without an equals sign and what comes after it. -/
theorem assigned?_append {u rest : List Char} (hu : '=' ∉ u) (h : assigned? rest = none) :
    assigned? (u ++ rest) = none := by
  unfold assigned? at h ⊢
  rw [List.dropWhile_append]
  split
  · next heq =>
    split at heq
    · rwa [heq] at h
    · next hsome =>
      cases hdrop : u.dropWhile isBlank with
      | nil =>
        rw [hdrop] at hsome
        exact absurd rfl hsome
      | cons d v =>
        rw [hdrop] at heq
        cases heq
        have hmem : '=' ∈ u.dropWhile isBlank := hdrop ▸ List.mem_cons_self
        exact absurd ((List.dropWhile_suffix isBlank).subset hmem) hu
  · rfl

theorem attribute?_append_of_stops {c : Char} {u rest : List Char} (hu : '=' ∉ u) (h : Stops rest) :
    attribute? (c :: (u ++ rest)) = none := by
  refine attribute?_of_not_assigned ?_ c
  rw [List.dropWhile_append]
  split
  · rw [h.name]
    exact h.assigned
  · exact assigned?_append (fun hmem => hu ((List.dropWhile_suffix isNamePart).subset hmem)) h.assigned

/-- No attribute is found where there is no equals sign. -/
theorem findAll_append_of_stops {u rest : List Char} (hu : '=' ∉ u) (h : Stops rest) :
    quotedAttribute.findAll (u ++ rest) = quotedAttribute.findAll rest := by
  induction u with
  | nil => rfl
  | cons c u ih =>
    rw [List.mem_cons, not_or] at hu
    rw [List.cons_append, quotedAttribute.findAll_of_not_run (attribute?_append_of_stops hu.2 h),
      ih hu.2]

theorem findAll_cons_of_not_isNameStart {c : Char} (hc : isNameStart c = false) (s : List Char) :
    quotedAttribute.findAll (c :: s) = quotedAttribute.findAll s := by
  have hrun : attribute? (c :: s) = none := if_neg (ne_true_of_eq_false hc)
  exact quotedAttribute.findAll_of_not_run hrun

/-- The name that is read from a key: the part of it from which on it is a name. -/
def readName : List Char → Option (List Char)
  | [] => none
  | c :: s => if isNameStart c && s.all isNamePart then some (c :: s) else readName s

/-- The attribute as it is read. -/
def Entry.reading (e : Entry) : Option (List Char × List Char) :=
  (readName e.key).map fun name => (name, e.value)

/-- A key that is no name all along is not read where it starts. -/
theorem attribute?_key_of_not_all {c : Char} {key : List Char} (hkey : Solid key)
    (hall : key.all isNamePart = false) (rest : List Char) : attribute? (c :: (key ++ rest)) = none := by
  refine attribute?_of_not_assigned ?_ c
  rw [List.dropWhile_append]
  cases hdrop : key.dropWhile isNamePart with
  | nil =>
    rw [List.dropWhile_eq_nil_iff] at hdrop
    rw [List.all_eq_true.2 hdrop] at hall
    cases hall
  | cons d v =>
    have hmem : d ∈ key.dropWhile isNamePart := hdrop ▸ List.mem_cons_self
    have hd := (List.dropWhile_suffix isNamePart).subset hmem
    exact assigned?_cons (hkey.isBlank d hd) (hkey.isValue d hd).1.1 (v ++ rest)

/-- A key that is a name is read with its value. -/
theorem attribute?_key {c : Char} {key value : List Char} (hstart : isNameStart c = true)
    (hall : key.all isNamePart = true) (hvalue : '\x22' ∉ value) (rest : List Char) :
    attribute? (c :: (key ++ '=' :: '\x22' :: (value ++ '\x22' :: rest))) =
      some ((c :: key, value), rest) := by
  have hpart : ∀ d ∈ key, isNamePart d = true := List.all_eq_true.1 hall
  have hsign : isNamePart '=' = false := by decide
  have hassigned : assigned? ('=' :: '\x22' :: (value ++ '\x22' :: rest)) = some (value, rest) :=
    cutAtChar?_append_cons hvalue rest
  obtain ⟨htake, hdrop⟩ := span_append_cons hpart hsign ('\x22' :: (value ++ '\x22' :: rest))
  rw [attribute?, if_pos hstart, hdrop, htake, hassigned]
  rfl

theorem findAll_key {key value : List Char} (hkey : Solid key) (hvalue : IsValue value)
    (rest : List Char) :
    quotedAttribute.findAll (key ++ '=' :: '\x22' :: (value ++ '\x22' :: rest)) =
      ((readName key).map fun name => (name, value)).toList ++ quotedAttribute.findAll rest := by
  obtain ⟨hsign, hquote⟩ := hvalue.not_mem
  induction key with
  | nil =>
    have hstops : Stops ('\x22' :: rest) := stops_cons (by decide) (by decide) (by decide) rest
    rw [List.nil_append, findAll_cons_of_not_isNameStart (by decide),
      findAll_cons_of_not_isNameStart (by decide), findAll_append_of_stops hsign hstops,
      findAll_cons_of_not_isNameStart (by decide)]
    rfl
  | cons c key ih =>
    have hkey := hkey.tail
    rw [List.cons_append, readName]
    by_cases hstart : isNameStart c = true
    · by_cases hall : key.all isNamePart = true
      · have hrun : quotedAttribute.run (c :: (key ++ '=' :: '\x22' :: (value ++ '\x22' :: rest))) =
            some ((c :: key, value), rest) := attribute?_key hstart hall hquote rest
        rw [hstart, hall, Bool.true_and, if_pos rfl, quotedAttribute.findAll_of_run hrun]
        rfl
      · have hrun := attribute?_key_of_not_all (c := c) hkey (eq_false_of_ne_true hall)
          ('=' :: '\x22' :: (value ++ '\x22' :: rest))
        rw [eq_false_of_ne_true hall, Bool.and_false, if_neg Bool.false_ne_true,
          quotedAttribute.findAll_of_not_run hrun, ih hkey]
    · rw [eq_false_of_ne_true hstart, Bool.false_and, if_neg Bool.false_ne_true,
        findAll_cons_of_not_isNameStart (eq_false_of_ne_true hstart), ih hkey]

theorem Entry.Delimited.stops_write {e : Entry} (h : e.Delimited) (rest : List Char) :
    Stops (e.write ++ rest) := by
  obtain ⟨c, s, hkey⟩ := List.exists_cons_of_ne_nil h.key_ne
  have hc : c ∈ e.key := hkey ▸ List.mem_cons_self
  have hname : isNamePart ' ' = false := by decide
  rw [Entry.write_append]
  refine ⟨List.dropWhile_cons_of_neg (ne_true_of_eq_false hname), ?_⟩
  rw [hkey]
  exact assigned?_cons (h.key.isBlank c hc) (h.key.isValue c hc).1.1 _

theorem stops_writeEntries {entries : List Entry} (h : ∀ e ∈ entries, e.Delimited) :
    Stops (writeEntries entries ++ ['>']) := by
  cases entries with
  | nil => exact stops_cons (by decide) (by decide) (by decide) []
  | cons e entries =>
    rw [writeEntries_cons, List.append_assoc]
    exact (h e List.mem_cons_self).stops_write _

/-- Nothing in front of the attributes is read as one. -/
theorem Spelling.Delimited.findAll_write {s : Spelling} (h : s.Delimited) :
    quotedAttribute.findAll s.write = quotedAttribute.findAll (writeEntries s.entries ++ ['>']) := by
  have hname := (solid_of_isTagNameChar h.name).isValue.not_mem.1
  have hafter := h.after.isValue.not_mem.1
  rw [Spelling.write, findAll_cons_of_not_isNameStart (by decide), ← List.append_assoc,
    findAll_append_of_stops (by simp [hname, hafter]) (stops_writeEntries h.entries)]

theorem findAll_writeEntries {entries : List Entry} (h : ∀ e ∈ entries, e.Regular) :
    quotedAttribute.findAll (writeEntries entries ++ ['>']) = entries.filterMap Entry.reading := by
  induction entries with
  | nil => rw [writeEntries, List.flatMap_nil, List.nil_append,
      findAll_cons_of_not_isNameStart (by decide), quotedAttribute.findAll_nil, List.filterMap_nil]
  | cons e entries ih =>
    obtain ⟨he, hentries⟩ := List.forall_mem_cons.1 h
    have hstops := stops_writeEntries fun e he => (hentries e he).delimited
    rw [writeEntries_cons, List.append_assoc, Entry.write_append,
      findAll_cons_of_not_isNameStart (by decide), findAll_key he.key he.value,
      findAll_append_of_stops he.tail.isValue.not_mem.1 hstops, ih hentries, List.filterMap_cons]
    unfold Entry.reading
    cases readName e.key <;> rfl

theorem Spelling.Regular.findAll_write {s : Spelling} (h : s.Regular) :
    quotedAttribute.findAll s.write = s.entries.filterMap Entry.reading :=
  h.delimited.findAll_write.trans (findAll_writeEntries h.entries)

/-! ## The value that is read under a name -/

/-- The last value that is read under a name. -/
def lastValue (name : List Char) : List Entry → Option (List Char)
  | [] => none
  | e :: entries =>
    (lastValue name entries).or (if readName e.key = some name then some e.value else none)

theorem get?_foldl_readings (name : List Char) (entries : List Entry) (start : Attributes) :
    ((entries.filterMap Entry.reading).foldl
      (fun attributes entry => Attributes.put entry.1 entry.2 attributes) start).get? name =
        (lastValue name entries).or (start.get? name) := by
  induction entries generalizing start with
  | nil => rfl
  | cons e entries ih =>
    rw [lastValue]
    cases hread : readName e.key with
    | none =>
      have hreading : e.reading = none := congrArg (Option.map _) hread
      rw [List.filterMap_cons_none hreading, ih, if_neg (by simp), Option.or_none]
    | some key =>
      have hreading : e.reading = some (key, e.value) := congrArg (Option.map _) hread
      rw [List.filterMap_cons_some hreading, List.foldl_cons, ih, Attributes.get?_put]
      by_cases hkey : name = key
      · rw [if_pos hkey, if_pos (congrArg some hkey.symm), Option.or_assoc]
        rfl
      · rw [if_neg hkey, if_neg fun heq => hkey (Option.some.inj heq).symm, Option.or_none]

/-- The value of an attribute of the tag. -/
def Spelling.get? (name : List Char) (s : Spelling) : Option (List Char) := lastValue name s.entries

/-- The value of an attribute of the tag is that of the last key that is read as its name. -/
theorem Spelling.Regular.get?_attributes {s : Spelling} (h : s.Regular) (name : List Char) :
    (attributes s.write).get? name = s.get? name := by
  have hfold := get?_foldl_readings name s.entries []
  rw [← h.findAll_write] at hfold
  exact hfold.trans Option.or_none

/-! ## Setting an attribute -/

/-- The keys of some attributes. -/
def keys (entries : List Entry) : List (List Char) := entries.map Entry.key

/-- The attributes with another value for the first one under a key. -/
def assign (key value : List Char) : List Entry → List Entry
  | [] => []
  | e :: entries =>
    if e.key = key then { e with value := value } :: entries else e :: assign key value entries

/-- The tag with a value set under a key: in place, or else in front of the other attributes. -/
def Spelling.set (key value : List Char) (s : Spelling) : Spelling :=
  if (keys s.entries).contains key then { s with entries := assign key value s.entries }
  else ⟨s.name, [], ⟨key, value, s.after⟩ :: s.entries⟩

theorem Spelling.set_of_mem {s : Spelling} {key : List Char} (h : key ∈ keys s.entries)
    (value : List Char) : s.set key value = { s with entries := assign key value s.entries } :=
  if_pos (List.contains_iff_mem.2 h)

theorem Spelling.set_of_not_mem {s : Spelling} {key : List Char} (h : key ∉ keys s.entries)
    (value : List Char) : s.set key value = ⟨s.name, [], ⟨key, value, s.after⟩ :: s.entries⟩ :=
  if_neg (mt List.contains_iff_mem.1 h)

end Assessment.Markup.StartTag
