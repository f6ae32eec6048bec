import Assessment.Proofs.Markup.Spelling
import Assessment.Proofs.Markup.StartTag

/-!
# Proofs: the search for an attribute

Setting an attribute of a tag looks for its name after white space, with an equals sign and a double
quote behind it. The search goes through the characters of the tag and knows nothing of its attributes,
so that it ends too early where an earlier value ends like the beginning of the attribute
(`Misleading`).

This is the only way in which it goes wrong: `Spelling.Delimited.setAttribute_write`. A value without an
equals sign does not mislead, and so a regular tag needs no such condition
(`Spelling.Regular.setAttribute_write`).
-/

namespace Assessment.Markup.StartTag

open Assessment.Text

/-! ## Values that mislead -/

/-- The names and values of some attributes. -/
def pairs (entries : List Entry) : Attributes := entries.map fun e => (e.key, e.value)

theorem keys_eq (entries : List Entry) : keys entries = (pairs entries).map Prod.fst := by
  simp [keys, pairs]

/-- The value ends like the beginning of the attribute: its name after white space, and an equals
sign. -/
def EndsLike (name value : List Char) : Prop :=
  ∃ s c, isBlank c = true ∧ value = s ++ c :: (name ++ ['='])

theorem not_endsLike_of_getLast? {name value : List Char} (h : value.getLast? ≠ some '=') :
    ¬ EndsLike name value := by
  rintro ⟨s, c, -, rfl⟩
  rw [← List.cons_append, ← List.append_assoc, List.getLast?_concat] at h
  exact h rfl

/-- A value before that of the attribute ends like the beginning of the attribute, and a quote comes
after it that seems to open the value of the attribute. -/
def Misleading (name : List Char) : Attributes → Prop
  | [] => False
  | (key, value) :: attributes =>
    key ≠ name ∧ (EndsLike name value ∧ attributes ≠ [] ∨ Misleading name attributes)

theorem not_misleading_of_not_endsLike {name : List Char} {attributes : Attributes}
    (h : ∀ a ∈ attributes, ¬ EndsLike name a.2) : ¬ Misleading name attributes := by
  induction attributes with
  | nil => exact id
  | cons a attributes ih =>
    obtain ⟨ha, hattributes⟩ := List.forall_mem_cons.1 h
    rintro ⟨-, ⟨hends, -⟩ | hmisleading⟩
    · exact ha hends
    · exact ih hattributes hmisleading

/-! ## What is written -/

/-- A value as it is set: its quotes are escaped. -/
def settable (value : List Char) : List Char := replaceChar '\x22' "&quot;".toList value

theorem not_mem_settable (value : List Char) : '\x22' ∉ settable value := by
  intro h
  obtain ⟨c, -, hmem⟩ := List.mem_flatMap.1 h
  split at hmem
  · exact absurd hmem (by decide)
  · next hc => exact hc (List.mem_singleton.1 hmem).symm

theorem replaceChar_of_not_mem {mark : Char} {s : List Char} (h : mark ∉ s)
    (replacement : List Char) : replaceChar mark replacement s = s := by
  induction s with
  | nil => rfl
  | cons c s ih =>
    rw [List.mem_cons, not_or] at h
    have hstep : replaceChar mark replacement (c :: s) =
        (if c = mark then replacement else [c]) ++ replaceChar mark replacement s := List.flatMap_cons
    rw [hstep, if_neg (Ne.symm h.1), ih h.2, List.singleton_append]

theorem settable_of_not_mem {value : List Char} (h : '\x22' ∉ value) : settable value = value :=
  replaceChar_of_not_mem h _

theorem written_append (name value rest : List Char) :
    written name value ++ rest =
      ' ' :: (name ++ '=' :: '\x22' :: (settable value ++ '\x22' :: rest)) := by
  simp [written, settable]

/-- Text is inserted after the name of a tag, where the name goes no further. -/
theorem insertAfterName_append {name rest : List Char} (hne : name ≠ [])
    (hname : ∀ c ∈ name, isTagNameChar c = true) (hrest : ∀ c ∈ rest.head?, isTagNameChar c = false)
    (inserted : List Char) :
    insertAfterName inserted ('<' :: (name ++ rest)) = '<' :: (name ++ (inserted ++ rest)) := by
  obtain ⟨htake, hdrop⟩ := span_append hname hrest
  have hsome : name.isEmpty = false := List.isEmpty_eq_false_iff.2 hne
  show (if ((name ++ rest).takeWhile isTagNameChar).isEmpty then '<' :: (name ++ rest)
    else '<' :: (name ++ rest).takeWhile isTagNameChar ++ inserted ++
      (name ++ rest).dropWhile isTagNameChar) = _
  rw [htake, hdrop, if_neg (ne_true_of_eq_false hsome)]
  simp

/-- What is inserted after the name of a tag stands before everything else in it. -/
theorem Spelling.Delimited.insertAfterName_write {s : Spelling} (h : s.Delimited)
    (inserted : List Char) :
    insertAfterName inserted s.write =
      '<' :: (s.name ++ (inserted ++ (s.after ++ (writeEntries s.entries ++ ['>'])))) := by
  refine insertAfterName_append h.name_ne h.name ?_ inserted
  intro c hc
  cases hafter : s.after with
  | nil =>
    rw [hafter, List.nil_append] at hc
    cases hentries : s.entries with
    | nil =>
      rw [hentries] at hc
      cases hc
      decide
    | cons e entries =>
      rw [hentries, writeEntries_cons] at hc
      cases hc
      decide
  | cons d after =>
    rw [hafter] at hc
    cases hc
    exact h.name_end c (by rw [hafter]; rfl)

/-! ## The search -/

section Search

variable {name : List Char} {f : Unit → List Char}

theorem existing?_of_not_isBlank {c : Char} (h : isBlank c = false) (name s : List Char) :
    existing? name (c :: s) = none := if_neg (ne_true_of_eq_false h)

theorem replaceFirst?_of_not_run {c : Char} {s : List Char} (h : existing? name (c :: s) = none) :
    (existing name).replaceFirst? f (c :: s) = ((existing name).replaceFirst? f s).map (c :: ·) := by
  have hrun : (existing name).run (c :: s) = none := h
  rw [Recognizer.replaceFirst?, hrun]

/-- An attribute is looked for only after white space. -/
theorem replaceFirst?_append {u : List Char} (hu : ∀ c ∈ u, isBlank c = false) (rest : List Char) :
    (existing name).replaceFirst? f (u ++ rest) =
      ((existing name).replaceFirst? f rest).map (u ++ ·) := by
  induction u with
  | nil => simp
  | cons c u ih =>
    obtain ⟨hblank, hu⟩ := List.forall_mem_cons.1 hu
    rw [List.cons_append, replaceFirst?_of_not_run (existing?_of_not_isBlank hblank _ _), ih hu,
      Option.map_map]
    rfl

theorem cutAtChar?_of_not_mem {mark : Char} {s : List Char} (h : mark ∉ s) :
    cutAtChar? mark s = none := by
  cases hcut : cutAtChar? mark s with
  | none => rfl
  | some cut =>
    rw [cutAtChar?_append hcut] at h
    exact absurd (List.mem_append_right _ List.mem_cons_self) h

theorem IsQuote.not_isBlank {c : Char} (h : IsQuote c) : isBlank c = false := by
  rcases h with rfl | rfl <;> decide

/-- The beginning of an attribute ends inside of a value, or with its closing quote. -/
theorem exists_of_after?_quoted {quote : Char} (hquote : IsQuote quote) (hname : quote ∉ name)
    {value rest t : List Char} (hvalue : quote ∉ value)
    (h : after? (name ++ "=\"".toList) (value ++ quote :: rest) = some t) :
    ∃ more, value ++ [quote] = name ++ '=' :: '\x22' :: more ∧ t = more ++ rest := by
  have htext : (value ++ [quote]) ++ rest = (name ++ "=\"".toList) ++ t := by
    simpa using after?_eq_some_iff.1 h
  rcases List.append_eq_append_iff.1 htext with ⟨more, hmark, hrest⟩ | ⟨more, heq, hmore⟩
  · rcases hquote with rfl | rfl
    · -- Both texts go up to their first double quote.
      have hbegin : '\x22' ∉ name ++ ['='] := by simpa using hname
      have hsplit : value ++ '\x22' :: more = (name ++ ['=']) ++ '\x22' :: [] := by
        simpa using hmark.symm
      have hcut := cutAtChar?_append_cons hvalue more
      rw [hsplit, cutAtChar?_append_cons hbegin] at hcut
      cases hcut
      exact ⟨[], by simp, hrest.symm⟩
    · have hmem : '\x27' ∈ name ++ "=\"".toList := by
        rw [hmark]
        simp
      simp [hname] at hmem
  · exact ⟨more, by simpa using heq, hmore⟩

/-- The search goes past a value that suggests nothing. -/
theorem replaceFirst?_quoted {quote : Char} (hquote : IsQuote quote) (hname : quote ∉ name)
    {value rest : List Char} (hvalue : quote ∉ value)
    (h : ∀ s c t, isBlank c = true → value ++ [quote] = s ++ c :: (name ++ '=' :: '\x22' :: t) →
      '\x22' ∉ t ++ rest) :
    (existing name).replaceFirst? f (value ++ quote :: rest) =
      ((existing name).replaceFirst? f rest).map (value ++ quote :: ·) := by
  induction value with
  | nil => exact replaceFirst?_of_not_run (existing?_of_not_isBlank hquote.not_isBlank name rest)
  | cons c value ih =>
    rw [List.mem_cons, not_or] at hvalue
    have hrun : existing? name (c :: (value ++ quote :: rest)) = none := by
      rw [existing?]
      split
      · next hblank =>
        split
        · next t ht =>
          obtain ⟨more, heq, rfl⟩ := exists_of_after?_quoted hquote hname hvalue.2 ht
          rw [cutAtChar?_of_not_mem (h [] c more hblank (by rw [List.cons_append, heq]; rfl))]
          rfl
        · rfl
      · rfl
    rw [List.cons_append, replaceFirst?_of_not_run hrun, ih hvalue.2, Option.map_map]
    · rfl
    · intro s d t hblank heq
      exact h (c :: s) d t hblank (by rw [List.cons_append, heq, List.cons_append])

/-- The search goes past a value that does not end like the attribute, or that has no quote after
it. -/
theorem replaceFirst?_value_of_not_endsLike (hname : '\x22' ∉ name) {value rest : List Char}
    (hvalue : '\x22' ∉ value) (h : ¬ EndsLike name value ∨ '\x22' ∉ rest) :
    (existing name).replaceFirst? f (value ++ '\x22' :: rest) =
      ((existing name).replaceFirst? f rest).map (value ++ '\x22' :: ·) := by
  refine replaceFirst?_quoted (.inl rfl) hname hvalue fun s c t hblank heq => ?_
  have hconcat : (s ++ c :: (name ++ ['='])) ++ '\x22' :: t = value ++ ['\x22'] := by
    simp [heq]
  obtain ⟨r, hr, hbegin⟩ := exists_of_append_eq_concat hconcat (List.cons_ne_nil _ t)
  cases r with
  | nil =>
    obtain ⟨-, rfl⟩ := List.cons.inj hr
    rw [List.append_nil] at hbegin
    exact h.resolve_left fun hends => hends ⟨s, c, hblank, hbegin⟩
  | cons d r =>
    obtain ⟨rfl, -⟩ := List.cons.inj hr
    exact absurd (by simp [hbegin]) hvalue

/-- A key is found before its equals sign if it is the one that is looked for. -/
theorem after?_key {key : List Char} (hname : '=' ∉ name) (hkey : '=' ∉ key) (rest : List Char) :
    after? (name ++ "=\"".toList) (key ++ '=' :: '\x22' :: rest) =
      if key = name then some rest else none := by
  induction name generalizing key with
  | nil =>
    cases key with
    | nil => simp [after?]
    | cons k key =>
      rw [List.mem_cons, not_or] at hkey
      simp [after?, hkey.1]
  | cons a name ih =>
    rw [List.mem_cons, not_or] at hname
    cases key with
    | nil => simp [after?, Ne.symm hname.1]
    | cons k key =>
      rw [List.mem_cons, not_or] at hkey
      rw [List.cons_append, List.cons_append, after?, ih hname.2 hkey.2]
      by_cases hak : a = k
      · simp [hak]
      · simp [hak, Ne.symm hak]

namespace Entry.Delimited

variable {e : Entry}

/-- The attribute is found at its own place. -/
theorem existing? (h : e.Delimited) (hname : Solid name) (rest : List Char) :
    existing? name (e.write ++ rest) = if e.key = name then some ((), e.tail ++ rest) else none := by
  have hspace : isBlank ' ' = true := by decide
  have hcut := cutAtChar?_append_cons h.value (e.tail ++ rest)
  rw [write_append, StartTag.existing?, if_pos hspace,
    after?_key hname.isValue.not_mem.1 h.key.isValue.not_mem.1]
  by_cases hsame : e.key = name
  · rw [if_pos hsame, if_pos hsame]
    dsimp only
    rw [hcut]
    rfl
  · rw [if_neg hsame, if_neg hsame]

/-- The attribute of that name is replaced. -/
theorem replaceFirst?_of_eq (h : e.Delimited) (hname : Solid name) (hsame : e.key = name)
    (value rest : List Char) :
    (existing name).replaceFirst? (fun _ => written name value) (e.write ++ rest) =
      some ({ e with value := settable value }.write ++ rest) := by
  have hrun : (existing name).run (e.write ++ rest) = some ((), e.tail ++ rest) :=
    (h.existing? hname rest).trans (if_pos hsame)
  rw [write_append] at hrun ⊢
  rw [Recognizer.replaceFirst?, hrun]
  dsimp only
  rw [written_append, write_append, hsame]

/-- The search goes past an attribute of another name whose value does not mislead. -/
theorem replaceFirst?_of_ne (h : e.Delimited) (hname : Solid name) (hne : e.key ≠ name)
    {rest : List Char} (hvalue : ¬ EndsLike name e.value ∨ '\x22' ∉ rest) :
    (existing name).replaceFirst? f (e.write ++ rest) =
      ((existing name).replaceFirst? f rest).map (e.write ++ ·) := by
  have hrun := h.existing? hname rest
  rw [if_neg hne] at hrun
  have hsigns : ∀ c ∈ ['=', '\x22'], isBlank c = false := by decide
  have hstart : ∀ c ∈ e.key ++ ['=', '\x22'], isBlank c = false :=
    List.forall_mem_append.2 ⟨h.key.isBlank, hsigns⟩
  have htext : e.key ++ '=' :: '\x22' :: (e.value ++ '\x22' :: (e.tail ++ rest)) =
      (e.key ++ ['=', '\x22']) ++ (e.value ++ '\x22' :: (e.tail ++ rest)) := by simp
  have hquote : ¬ EndsLike name e.value ∨ '\x22' ∉ e.tail ++ rest :=
    hvalue.imp_right fun hrest hmem =>
      (List.mem_append.1 hmem).elim h.tail.isValue.not_mem.2 hrest
  rw [write_append] at hrun ⊢
  rw [replaceFirst?_of_not_run hrun, htext, replaceFirst?_append hstart,
    replaceFirst?_value_of_not_endsLike hname.isValue.not_mem.2 h.value hquote,
    replaceFirst?_append h.tail.isBlank, Option.map_map, Option.map_map, Option.map_map]
  congr 1
  funext s
  simp [write]

end Entry.Delimited

/-- The attribute that is replaced is the first one of that name. -/
theorem replaceFirst?_writeEntries (hname : Solid name) (value : List Char) {entries : List Entry}
    (h : ∀ e ∈ entries, e.Delimited) (hleads : ¬ Misleading name (pairs entries)) :
    (existing name).replaceFirst? (fun _ => written name value) (writeEntries entries ++ ['>']) =
      if name ∈ keys entries then some (writeEntries (assign name (settable value) entries) ++ ['>'])
      else none := by
  induction entries with
  | nil => exact replaceFirst?_of_not_run (existing?_of_not_isBlank (by decide) name [])
  | cons e entries ih =>
    obtain ⟨he, hentries⟩ := List.forall_mem_cons.1 h
    have hkeys : keys (e :: entries) = e.key :: keys entries := rfl
    rw [writeEntries_cons, List.append_assoc, hkeys, assign]
    by_cases hsame : e.key = name
    · rw [he.replaceFirst?_of_eq hname hsame, if_pos hsame, if_pos (hsame ▸ List.mem_cons_self),
        writeEntries_cons, List.append_assoc]
    · have hrest : ¬ Misleading name (pairs entries) := fun hmis => hleads ⟨hsame, .inr hmis⟩
      have hvalue : ¬ EndsLike name e.value ∨ '\x22' ∉ writeEntries entries ++ ['>'] := by
        cases entries with
        | nil => exact .inr (by decide)
        | cons next entries => exact .inl fun hends => hleads ⟨hsame, .inl ⟨hends, by simp⟩⟩
      have hmem : name ∈ e.key :: keys entries ↔ name ∈ keys entries := by
        simp [Ne.symm hsame]
      rw [he.replaceFirst?_of_ne hname hsame hvalue, ih hentries hrest, if_neg hsame]
      by_cases hin : name ∈ keys entries
      · rw [if_pos hin, if_pos (hmem.2 hin), writeEntries_cons, List.append_assoc]
        rfl
      · rw [if_neg hin, if_neg fun h => hin (hmem.1 h)]
        rfl

end Search

/-! ## Setting an attribute -/

namespace Spelling

variable {s : Spelling} {name value : List Char}

/-- Setting an attribute of a tag sets it among the attributes of the tag, unless an earlier value
misleads. -/
theorem Delimited.setAttribute_write (h : s.Delimited) (hname : Solid name)
    (hleads : ¬ Misleading name (pairs s.entries)) (value : List Char) :
    setAttribute name value s.write = (s.set name (settable value)).write := by
  have hstart : ∀ c ∈ '<' :: (s.name ++ s.after), isBlank c = false :=
    List.forall_mem_cons.2 ⟨by decide, List.forall_mem_append.2
      ⟨(solid_of_isTagNameChar h.name).isBlank, h.after.isBlank⟩⟩
  have htext : s.write =
      ('<' :: (s.name ++ s.after)) ++ (writeEntries s.entries ++ ['>']) := by simp [write]
  have hfirst : (existing name).replaceFirst? (fun _ => written name value) s.write =
      if name ∈ keys s.entries then
        some ({ s with entries := assign name (settable value) s.entries } : Spelling).write
      else none := by
    rw [htext, replaceFirst?_append hstart, replaceFirst?_writeEntries hname value h.entries hleads]
    by_cases hmem : name ∈ keys s.entries
    · rw [if_pos hmem, if_pos hmem, Option.map_some, write]
      simp
    · rw [if_neg hmem, if_neg hmem]
      rfl
  unfold setAttribute
  rw [hfirst]
  by_cases hmem : name ∈ keys s.entries
  · rw [if_pos hmem, set_of_mem hmem]
  · rw [if_neg hmem, set_of_not_mem hmem]
    dsimp only
    rw [h.insertAfterName_write, written_append]
    simp [write, Entry.write]

/-- No value of a regular tag misleads. -/
theorem Regular.not_misleading (h : s.Regular) (name : List Char) :
    ¬ Misleading name (pairs s.entries) := by
  refine not_misleading_of_not_endsLike fun a ha => ?_
  obtain ⟨e, he, rfl⟩ := List.mem_map.1 ha
  exact not_endsLike_of_getLast? fun hlast =>
    (h.entries e he).value.not_mem.1 (List.mem_of_getLast? hlast)

/-- Setting an attribute of a regular tag sets it among the attributes of the tag. -/
theorem Regular.setAttribute_write (h : s.Regular) (hname : Solid name) (hvalue : IsValue value) :
    setAttribute name value s.write = (s.set name value).write := by
  rw [h.delimited.setAttribute_write hname (h.not_misleading name),
    settable_of_not_mem hvalue.not_mem.2]

end Spelling

end Assessment.Markup.StartTag
