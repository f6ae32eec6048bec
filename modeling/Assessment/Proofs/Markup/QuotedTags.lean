import Assessment.Proofs.Markup.PlainTags

/-!
# Proofs: start tags with quotes of either kind

Start tags as they are written by hand: values in quotes of either kind, any white space between the
attributes and around the equals signs, and attributes without a value among them.

Reading such a tag finds all of its values. Setting an attribute knows one spelling of it only, which is
double quotes and nothing around the equals sign (`QuotedEntry.Plain`). An attribute that is written in
another way stays, a second one of its name is put in front of it, and the one that stays is read.

Main statements: `QuotedTag.Regular.attributes_write`, `QuotedTag.Regular.setAttribute_write`, and for what
is read afterwards `QuotedTag.Regular.get?_set` and `QuotedTag.Regular.get?_set_of_not_spells`.
-/

namespace Assessment.Markup.StartTag

open Assessment.Text

/-! ## The parts of a tag -/

instance : DecidablePred IsQuote := fun _ => inferInstanceAs (Decidable (_ ∨ _))

instance : DecidablePred IsValue := fun s =>
  inferInstanceAs (Decidable (∀ c ∈ s, (c ≠ '=' ∧ c ≠ '\x22') ∧ c ≠ '<' ∧ c ≠ '>'))

/-- An attribute in quotes of either kind. -/
structure QuotedEntry where
  /-- The white space in front of the name. -/
  gap : List Char
  /-- The name. -/
  key : List Char
  /-- The white space in front of the equals sign. -/
  before : List Char
  /-- The white space behind the equals sign. -/
  behind : List Char
  /-- The quote around the value. -/
  quote : Char
  /-- The value. -/
  value : List Char
  /-- What follows up to the next attribute with a value. -/
  tail : List Char

/-- A start tag with quotes of either kind. -/
structure QuotedTag where
  /-- The name of the tag, as far as a name of a tag goes. -/
  name : List Char
  /-- What follows up to the first attribute with a value. -/
  after : List Char
  /-- The attributes with a value. -/
  entries : List QuotedEntry

namespace QuotedEntry

/-- The attribute as it is written. -/
def write (e : QuotedEntry) : List Char :=
  e.gap ++ (e.key ++ (e.before ++ '=' :: (e.behind ++ e.quote :: (e.value ++ e.quote :: e.tail))))

theorem write_append (e : QuotedEntry) (rest : List Char) :
    e.write ++ rest = e.gap ++ (e.key ++ (e.before ++ '=' :: (e.behind ++ e.quote ::
      (e.value ++ e.quote :: (e.tail ++ rest))))) := by
  simp [write]

/-- The attribute has an ASCII name after white space, and its value ends at the closing quote. -/
@[mk_iff]
structure Regular (e : QuotedEntry) : Prop where
  gap_ne : e.gap ≠ []
  gap : ∀ c ∈ e.gap, isBlank c = true
  key : IsAttributeName e.key
  before : ∀ c ∈ e.before, isBlank c = true
  behind : ∀ c ∈ e.behind, isBlank c = true
  quote : IsQuote e.quote
  value : e.quote ∉ e.value
  tail : IsValue e.tail

instance : DecidablePred Regular := fun e => decidable_of_iff' _ (regular_iff e)

/-- The attribute is written in the form that is known when one is set. -/
def Plain (e : QuotedEntry) : Prop := e.before = [] ∧ e.behind = [] ∧ e.quote = '\x22'

instance : DecidablePred Plain := fun _ => inferInstanceAs (Decidable (_ ∧ _ ∧ _))

/-- The attribute with another value, as it is written when one is set. -/
def set (value : List Char) (e : QuotedEntry) : QuotedEntry :=
  { e with gap := e.gap.dropLast ++ [' '], value := value }

end QuotedEntry

/-- Attributes as they are written. -/
def writeQuoted (entries : List QuotedEntry) : List Char := entries.flatMap QuotedEntry.write

@[simp] theorem writeQuoted_cons (e : QuotedEntry) (entries : List QuotedEntry) :
    writeQuoted (e :: entries) = e.write ++ writeQuoted entries := List.flatMap_cons

/-- The names and values of some attributes. -/
def quotedPairs (entries : List QuotedEntry) : Attributes := entries.map fun e => (e.key, e.value)

/-- The first attribute of that name that is written in the plain form, with another value. -/
def setQuoted? (name value : List Char) : List QuotedEntry → Option (List QuotedEntry)
  | [] => none
  | e :: entries =>
    if e.key = name ∧ e.Plain then some (e.set value :: entries)
    else (setQuoted? name value entries).map (e :: ·)

namespace QuotedTag

/-- The tag as it is written. -/
def write (t : QuotedTag) : List Char :=
  '<' :: (t.name ++ (t.after ++ (writeQuoted t.entries ++ ['>'])))

/-- The tag has a name, and its attributes are regular. -/
structure Regular (t : QuotedTag) : Prop where
  name_ne : t.name ≠ []
  name : ∀ c ∈ t.name, isTagNameChar c = true
  name_end : ∀ c ∈ t.after.head?, isTagNameChar c = false
  after : IsValue t.after
  entries : ∀ e ∈ t.entries, e.Regular

/-- The tag with an attribute set: in place if it is written in the plain form, or else in front. -/
def set (name value : List Char) (t : QuotedTag) : QuotedTag :=
  match setQuoted? name value t.entries with
  | some entries => { t with entries := entries }
  | none => ⟨t.name, [], ⟨[' '], name, [], [], '\x22', value, t.after⟩ :: t.entries⟩

/-- If the tag has the attribute, it is written in the plain form. -/
def Spells (name : List Char) (t : QuotedTag) : Prop := ∀ e ∈ t.entries, e.key = name → e.Plain

end QuotedTag

/-! ## White space and names -/

theorem not_isBlank_of_isNamePart {c : Char} (h : isNamePart c = true) : isBlank c = false := by
  have hname : IsAttributeName ['_', c] := ⟨by decide, by simpa using h⟩
  exact hname.solid.isBlank c (by simp)

theorem not_isNamePart_of_isBlank {c : Char} (h : isBlank c = true) : isNamePart c = false := by
  rw [← Bool.not_eq_true]
  intro hname
  rw [not_isBlank_of_isNamePart hname] at h
  cases h

theorem not_isNameStart_of_isBlank {c : Char} (h : isBlank c = true) : isNameStart c = false := by
  rw [← Bool.not_eq_true]
  intro hname
  have hpart := not_isNamePart_of_isBlank h
  rw [isNamePart_of_isNameStart hname] at hpart
  cases hpart

theorem IsQuote.not_isNamePart {c : Char} (h : IsQuote c) : isNamePart c = false := by
  rcases h with rfl | rfl <;> decide

namespace QuotedEntry.Regular

variable {e : QuotedEntry}

/-- What follows a name begins with no part of a name. -/
theorem exists_sign (h : e.Regular) (rest : List Char) :
    ∃ d s, e.before ++ '=' :: rest = d :: s ∧ isNamePart d = false := by
  cases hbefore : e.before with
  | nil => exact ⟨'=', rest, rfl, by decide⟩
  | cons d s => exact ⟨d, s ++ '=' :: rest, rfl, not_isNamePart_of_isBlank (h.before d (by simp [hbefore]))⟩

theorem exists_gap (h : e.Regular) : ∃ d s, e.write = d :: s ∧ isBlank d = true := by
  obtain ⟨d, s, hgap⟩ := List.exists_cons_of_ne_nil h.gap_ne
  have hwrite : e.write = d :: (s ++ e.write.drop e.gap.length) := by
    simp [write, hgap]
  exact ⟨d, _, hwrite, h.gap d (hgap ▸ List.mem_cons_self)⟩

end QuotedEntry.Regular

/-- The attributes of a tag begin with white space, and the tag ends after them. -/
theorem exists_cons_writeQuoted {entries : List QuotedEntry} (h : ∀ e ∈ entries, e.Regular) :
    ∃ d s, writeQuoted entries ++ ['>'] = d :: s ∧ isNamePart d = false ∧ d ≠ '=' ∧ d ≠ '\x22' := by
  cases entries with
  | nil => exact ⟨'>', [], rfl, by decide⟩
  | cons e entries =>
    obtain ⟨d, s, heq, hd⟩ := (h e List.mem_cons_self).exists_gap
    refine ⟨d, s ++ (writeQuoted entries ++ ['>']), ?_, not_isNamePart_of_isBlank hd, ?_, ?_⟩
    · rw [writeQuoted_cons, heq, List.append_assoc, List.cons_append]
    all_goals
      rintro rfl
      exact absurd hd (by decide)

/-! ## Reading -/

theorem assigned?_blanks {u : List Char} (hu : ∀ c ∈ u, isBlank c = true) (rest : List Char) :
    assigned? (u ++ rest) = assigned? rest := by
  unfold assigned?
  rw [List.dropWhile_append_of_pos hu]

theorem findAll_blanks {u : List Char} (hu : ∀ c ∈ u, isBlank c = true) (rest : List Char) :
    quotedAttribute.findAll (u ++ rest) = quotedAttribute.findAll rest := by
  induction u with
  | nil => rfl
  | cons c u ih =>
    obtain ⟨hc, hu⟩ := List.forall_mem_cons.1 hu
    rw [List.cons_append, findAll_cons_of_not_isNameStart (not_isNameStart_of_isBlank hc), ih hu]

namespace QuotedEntry.Regular

variable {e : QuotedEntry}

/-- The value is read, whatever stands around the equals sign. -/
theorem assigned? (h : e.Regular) (rest : List Char) :
    assigned? (e.before ++ '=' :: (e.behind ++ e.quote :: (e.value ++ e.quote :: rest))) =
      some (e.value, rest) := by
  have hcut := cutAtChar?_append_cons h.value rest
  rw [assigned?_blanks h.before]
  unfold StartTag.assigned?
  rw [List.dropWhile_cons_of_neg (by decide)]
  show quotedValue? ((e.behind ++ e.quote :: (e.value ++ e.quote :: rest)).dropWhile isBlank) = _
  rw [(span_append_cons h.behind h.quote.not_isBlank _).2]
  rcases h.quote with hquote | hquote <;> rw [hquote] at hcut ⊢ <;> exact hcut

theorem attribute? (h : e.Regular) (rest : List Char) :
    attribute? (e.key ++ (e.before ++ '=' :: (e.behind ++ e.quote :: (e.value ++ e.quote :: rest)))) =
      some ((e.key, e.value), rest) := by
  obtain ⟨c, s, hkey, hstart, hparts⟩ := h.key.exists_cons
  have hassigned := h.assigned? rest
  obtain ⟨d, t, hsign, hd⟩ := h.exists_sign (e.behind ++ e.quote :: (e.value ++ e.quote :: rest))
  obtain ⟨htake, hdrop⟩ := span_append_cons hparts hd t
  rw [hsign] at hassigned ⊢
  rw [hkey, List.cons_append, StartTag.attribute?, if_pos hstart, htake, hdrop, hassigned]
  rfl

theorem stops_write (h : e.Regular) (rest : List Char) : Stops (e.write ++ rest) where
  name := by
    obtain ⟨d, s, heq, hd⟩ := h.exists_gap
    rw [heq, List.cons_append]
    exact List.dropWhile_cons_of_neg (ne_true_of_eq_false (not_isNamePart_of_isBlank hd))
  assigned := by
    obtain ⟨c, s, hkey, -⟩ := h.key.exists_cons
    have hc : c ∈ e.key := hkey ▸ List.mem_cons_self
    rw [write_append, assigned?_blanks h.gap, hkey]
    exact assigned?_cons (h.key.solid.isBlank c hc) (h.key.solid.isValue c hc).1.1 _

end QuotedEntry.Regular

theorem stops_writeQuoted {entries : List QuotedEntry} (h : ∀ e ∈ entries, e.Regular) :
    Stops (writeQuoted entries ++ ['>']) := by
  cases entries with
  | nil => exact stops_cons (by decide) (by decide) (by decide) []
  | cons e entries =>
    rw [writeQuoted_cons, List.append_assoc]
    exact (h e List.mem_cons_self).stops_write _

theorem findAll_writeQuoted {entries : List QuotedEntry} (h : ∀ e ∈ entries, e.Regular) :
    quotedAttribute.findAll (writeQuoted entries ++ ['>']) = quotedPairs entries := by
  induction entries with
  | nil =>
    rw [writeQuoted, List.flatMap_nil, List.nil_append, findAll_cons_of_not_isNameStart (by decide),
      quotedAttribute.findAll_nil]
    rfl
  | cons e entries ih =>
    obtain ⟨he, hentries⟩ := List.forall_mem_cons.1 h
    have hrun := he.attribute? (e.tail ++ (writeQuoted entries ++ ['>']))
    rw [writeQuoted_cons, List.append_assoc, QuotedEntry.write_append, findAll_blanks he.gap,
      quotedAttribute.findAll_of_run hrun,
      findAll_append_of_stops he.tail.not_mem.1 (stops_writeQuoted hentries), ih hentries]
    rfl

namespace QuotedTag.Regular

variable {t : QuotedTag}

theorem findAll_write (h : t.Regular) : quotedAttribute.findAll t.write = quotedPairs t.entries := by
  have hname := (solid_of_isTagNameChar h.name).isValue.not_mem.1
  have hafter := h.after.not_mem.1
  rw [QuotedTag.write, findAll_cons_of_not_isNameStart (by decide), ← List.append_assoc,
    findAll_append_of_stops (by simp [hname, hafter]) (stops_writeQuoted h.entries),
    findAll_writeQuoted h.entries]

/-- The attributes of a tag are read, however they are quoted and spaced. -/
theorem attributes_write (h : t.Regular) (hkeys : (t.entries.map QuotedEntry.key).Nodup) :
    attributes t.write = quotedPairs t.entries := by
  have hpairs : (quotedPairs t.entries).map (·.1) = t.entries.map QuotedEntry.key := by
    simp [quotedPairs]
  rw [attributes, h.findAll_write, Attributes.ofList_of_nodup (hpairs ▸ hkeys)]

end QuotedTag.Regular

/-! ## The place of an attribute -/

/-- What looks like the beginning of an attribute stands in the value and at its closing quote: white
space, the name, an equals sign and a double quote. Another double quote comes later. -/
def QuotedEntry.Suggests (name rest : List Char) (e : QuotedEntry) : Prop :=
  ∃ s c t, isBlank c = true ∧ e.value ++ [e.quote] = s ++ c :: (name ++ '=' :: '\x22' :: t) ∧
    '\x22' ∈ t ++ rest

/-- In front of the first attribute of that name in plain form, or among all attributes if there is none,
a value suggests another one. -/
def QuotedTag.Misleading (name : List Char) : List QuotedEntry → Prop
  | [] => False
  | e :: entries =>
    ¬ (e.key = name ∧ e.Plain) ∧
      (e.Suggests name (writeQuoted entries) ∨ QuotedTag.Misleading name entries)

theorem QuotedEntry.not_suggests_of_not_isBlank {e : QuotedEntry} (hquote : IsQuote e.quote)
    (h : ∀ c ∈ e.value, isBlank c = false) (name rest : List Char) : ¬ e.Suggests name rest := by
  rintro ⟨s, c, t, hblank, heq, -⟩
  have hmem : c ∈ e.value ++ [e.quote] := by simp [heq]
  have hnot : isBlank c = false := by
    rcases List.mem_append.1 hmem with hmem | hmem
    · exact h c hmem
    · rw [List.mem_singleton.1 hmem]
      exact hquote.not_isBlank
  rw [hnot] at hblank
  cases hblank

section Search

variable {name : List Char} {f : Unit → List Char}

theorem after?_of_not_isNamePart (hname : IsAttributeName name) {d : Char} (hd : isNamePart d = false)
    (mark rest : List Char) : after? (name ++ mark) (d :: rest) = none := by
  obtain ⟨c, s, rfl, hstart, -⟩ := hname.exists_cons
  have hne : c ≠ d := by
    rintro rfl
    rw [isNamePart_of_isNameStart hstart] at hd
    cases hd
  rw [List.cons_append, after?, if_neg hne]

theorem existing?_of_after? {c : Char} {s : List Char} (h : after? (name ++ "=\"".toList) s = none) :
    existing? name (c :: s) = none := by
  rw [existing?, h, ite_self]

/-- The search goes past white space that the attribute does not follow. -/
theorem replaceFirst?_blanks (hname : IsAttributeName name) {u rest : List Char}
    (hu : ∀ c ∈ u, isBlank c = true) (hrest : after? (name ++ "=\"".toList) rest = none) :
    (existing name).replaceFirst? f (u ++ rest) =
      ((existing name).replaceFirst? f rest).map (u ++ ·) := by
  induction u with
  | nil => simp
  | cons c u ih =>
    obtain ⟨-, hu⟩ := List.forall_mem_cons.1 hu
    have hafter : after? (name ++ "=\"".toList) (u ++ rest) = none := by
      cases u with
      | nil => exact hrest
      | cons d u =>
        exact after?_of_not_isNamePart hname (not_isNamePart_of_isBlank (hu d List.mem_cons_self)) _ _
    rw [List.cons_append, replaceFirst?_of_not_run (existing?_of_after? hafter), ih hu, Option.map_map]
    rfl

/-- The search goes past a text without an equals sign. -/
theorem replaceFirst?_unassigned (hname : IsAttributeName name) {u : List Char} (hu : '=' ∉ u)
    {d : Char} (hd : isNamePart d = false ∧ d ≠ '=' ∧ d ≠ '\x22') (rest : List Char) :
    (existing name).replaceFirst? f (u ++ d :: rest) =
      ((existing name).replaceFirst? f (d :: rest)).map (u ++ ·) := by
  have hmark : d ∉ name ++ "=\"".toList := by
    simpa using ⟨hname.not_mem hd.1, hd.2⟩
  induction u with
  | nil => simp
  | cons c u ih =>
    rw [List.mem_cons, not_or] at hu
    have hnone : after? (name ++ "=\"".toList) u = none := by
      cases hafter : after? (name ++ "=\"".toList) u with
      | none => rfl
      | some t =>
        refine absurd ?_ hu.2
        rw [after?_eq_some_iff.1 hafter]
        simp
    have hafter : after? (name ++ "=\"".toList) (u ++ d :: rest) = none := by
      rw [after?_append_cons hmark, hnone, Option.map_none]
    rw [List.cons_append, replaceFirst?_of_not_run (existing?_of_after? hafter), ih hu.2, Option.map_map]
    rfl

namespace QuotedEntry.Regular

variable {e : QuotedEntry}

/-- An attribute is not found where another one stands, or where it is not in the plain form. -/
theorem after?_write (h : e.Regular) (hname : IsAttributeName name) (hne : ¬ (e.key = name ∧ e.Plain))
    (rest : List Char) :
    after? (name ++ "=\"".toList)
      (e.key ++ (e.before ++ '=' :: (e.behind ++ e.quote :: rest))) = none := by
  cases hafter : after? (name ++ "=\"".toList)
      (e.key ++ (e.before ++ '=' :: (e.behind ++ e.quote :: rest))) with
  | none => rfl
  | some t =>
    refine absurd ?_ hne
    have htext : (e.key ++ e.before) ++ '=' :: (e.behind ++ e.quote :: rest) =
        name ++ '=' :: '\x22' :: t := by
      simpa using after?_eq_some_iff.1 hafter
    have hsign : '=' ∉ e.key ++ e.before := fun hmem => by
      rcases List.mem_append.1 hmem with hmem | hmem
      · exact h.key.solid.isValue.not_mem.1 hmem
      · exact absurd (h.before _ hmem) (by decide)
    -- What stands before the first equals sign is the name on the one side.
    have hcut := cutAtChar?_append_cons hsign (e.behind ++ e.quote :: rest)
    rw [htext, cutAtChar?_append_cons hname.solid.isValue.not_mem.1] at hcut
    obtain ⟨hkey, hvalue⟩ := Prod.mk.inj (Option.some.inj hcut)
    have hbefore : e.before = [] := by
      refine List.eq_nil_iff_forall_not_mem.2 fun c hc => ?_
      have hblank := hname.solid.isBlank c (hkey ▸ List.mem_append_right _ hc)
      rw [h.before c hc] at hblank
      cases hblank
    have hbehind : e.behind = [] := by
      cases hbehind : e.behind with
      | nil => rfl
      | cons c s =>
        rw [hbehind] at hvalue
        have hblank := h.behind c (hbehind ▸ List.mem_cons_self)
        rw [← (List.cons.inj hvalue).1] at hblank
        exact absurd hblank (by decide)
    rw [hbefore, List.append_nil] at hkey
    rw [hbehind] at hvalue
    exact ⟨hkey.symm, hbefore, hbehind, (List.cons.inj hvalue).1.symm⟩

/-- The search goes past an attribute that is not the one in plain form and suggests nothing. -/
theorem replaceFirst?_write (h : e.Regular) (hname : IsAttributeName name)
    (hne : ¬ (e.key = name ∧ e.Plain)) {entries : List QuotedEntry}
    (hentries : ∀ e ∈ entries, e.Regular) (hsuggests : ¬ e.Suggests name (writeQuoted entries)) :
    (existing name).replaceFirst? f (e.write ++ (writeQuoted entries ++ ['>'])) =
      ((existing name).replaceFirst? f (writeQuoted entries ++ ['>'])).map (e.write ++ ·) := by
  obtain ⟨d, s, hrest, hd⟩ := exists_cons_writeQuoted hentries
  have hvalue : ∀ s c t, isBlank c = true →
      e.value ++ [e.quote] = s ++ c :: (name ++ '=' :: '\x22' :: t) →
        '\x22' ∉ t ++ (e.tail ++ (writeQuoted entries ++ ['>'])) := by
    intro s c t hblank heq hmem
    refine hsuggests ⟨s, c, t, hblank, heq, ?_⟩
    have htail := h.tail.not_mem.2
    simpa [htail] using hmem
  have hsolid : ∀ c ∈ e.key, isBlank c = false := h.key.solid.isBlank
  rw [write_append, replaceFirst?_blanks hname h.gap (h.after?_write hname hne _),
    replaceFirst?_append hsolid,
    replaceFirst?_blanks hname h.before (after?_of_not_isNamePart hname (by decide) _ _),
    replaceFirst?_of_not_run (existing?_of_not_isBlank (by decide) _ _),
    replaceFirst?_blanks hname h.behind (after?_of_not_isNamePart hname h.quote.not_isNamePart _ _),
    replaceFirst?_of_not_run (existing?_of_not_isBlank h.quote.not_isBlank _ _),
    replaceFirst?_quoted h.quote (hname.not_mem h.quote.not_isNamePart) h.value hvalue, hrest,
    replaceFirst?_unassigned hname h.tail.not_mem.1 hd]
  simp only [Option.map_map]
  congr 1
  funext s
  simp [write]

/-- The attribute in plain form is replaced. -/
theorem replaceFirst?_write_of_eq (h : e.Regular) (hname : IsAttributeName name) (hkey : e.key = name)
    (hplain : e.Plain) (value rest : List Char) :
    (existing name).replaceFirst? (fun _ => written name value) (e.write ++ rest) =
      some ((e.set (settable value)).write ++ rest) := by
  obtain ⟨hbefore, hbehind, hquote⟩ := hplain
  have hvalue := h.value
  rw [hquote] at hvalue
  have hgap := List.dropLast_concat_getLast h.gap_ne
  have hinit : ∀ c ∈ e.gap.dropLast, isBlank c = true := fun c hc => h.gap c (List.dropLast_subset _ hc)
  have hlast := h.gap _ (List.getLast_mem h.gap_ne)
  generalize e.gap.getLast h.gap_ne = c at hgap hlast
  have htext : e.write ++ rest = e.gap.dropLast ++ c ::
      (name ++ '=' :: '\x22' :: (e.value ++ '\x22' :: (e.tail ++ rest))) := by
    rw [write_append, hbefore, hbehind, hquote, hkey]
    conv_lhs => rw [← hgap]
    simp
  have hexisting : existing? name
      (c :: (name ++ '=' :: '\x22' :: (e.value ++ '\x22' :: (e.tail ++ rest)))) =
        some ((), e.tail ++ rest) := by
    have hafter : after? (name ++ "=\"".toList)
        (name ++ '=' :: '\x22' :: (e.value ++ '\x22' :: (e.tail ++ rest))) =
          some (e.value ++ '\x22' :: (e.tail ++ rest)) := after?_eq_some_iff.2 (by simp)
    rw [existing?, if_pos hlast, hafter]
    dsimp only
    rw [cutAtChar?_append_cons hvalue]
    rfl
  have hrun : (existing name).run
      (c :: (name ++ '=' :: '\x22' :: (e.value ++ '\x22' :: (e.tail ++ rest)))) =
        some ((), e.tail ++ rest) := hexisting
  rw [htext, replaceFirst?_blanks hname hinit
    (after?_of_not_isNamePart hname (not_isNamePart_of_isBlank hlast) _ _),
    Recognizer.replaceFirst?, hrun]
  dsimp only
  rw [written_append, Option.map_some, write_append]
  simp [set, hbefore, hbehind, hquote, hkey]

end QuotedEntry.Regular

/-- The attribute that is replaced is the first one of that name in plain form. -/
theorem replaceFirst?_writeQuoted (hname : IsAttributeName name) (value : List Char)
    {entries : List QuotedEntry} (h : ∀ e ∈ entries, e.Regular)
    (hleads : ¬ QuotedTag.Misleading name entries) :
    (existing name).replaceFirst? (fun _ => written name value) (writeQuoted entries ++ ['>']) =
      (setQuoted? name (settable value) entries).map (writeQuoted · ++ ['>']) := by
  induction entries with
  | nil => exact replaceFirst?_of_not_run (existing?_of_not_isBlank (by decide) name [])
  | cons e entries ih =>
    obtain ⟨he, hentries⟩ := List.forall_mem_cons.1 h
    rw [writeQuoted_cons, List.append_assoc, setQuoted?]
    by_cases hsame : e.key = name ∧ e.Plain
    · rw [he.replaceFirst?_write_of_eq hname hsame.1 hsame.2, if_pos hsame, Option.map_some,
        writeQuoted_cons, List.append_assoc]
    · have hsuggests : ¬ e.Suggests name (writeQuoted entries) := fun hs => hleads ⟨hsame, .inl hs⟩
      have hrest : ¬ QuotedTag.Misleading name entries := fun hmis => hleads ⟨hsame, .inr hmis⟩
      rw [he.replaceFirst?_write hname hsame hentries hsuggests, ih hentries hrest, if_neg hsame,
        Option.map_map, Option.map_map]
      congr 1
      funext entries
      simp

end Search

/-! ## Setting an attribute -/

theorem isNamePart_of_isTagNameChar {c : Char} (h : isTagNameChar c = true) : isNamePart c = true := by
  simp only [isTagNameChar, isNamePart, isNameStart, Bool.or_eq_true] at h ⊢
  tauto

theorem QuotedEntry.Regular.set {e : QuotedEntry} (h : e.Regular) (hplain : e.Plain)
    {value : List Char} (hvalue : '\x22' ∉ value) : (e.set value).Regular where
  gap_ne := by simp [QuotedEntry.set]
  gap := List.forall_mem_append.2
    ⟨fun c hc => h.gap c (List.dropLast_subset _ hc), by decide⟩
  key := h.key
  before := h.before
  behind := h.behind
  quote := h.quote
  value := by
    show e.quote ∉ value
    rwa [hplain.2.2]
  tail := h.tail

/-- The attribute that is set is the first one of that name in plain form. -/
theorem setQuoted?_eq_some_iff {name value : List Char} {entries changed : List QuotedEntry} :
    setQuoted? name value entries = some changed ↔
      ∃ front e back, entries = front ++ e :: back ∧ changed = front ++ e.set value :: back ∧
        (∀ x ∈ front, ¬ (x.key = name ∧ x.Plain)) ∧ e.key = name ∧ e.Plain := by
  induction entries generalizing changed with
  | nil => simp [setQuoted?]
  | cons first entries ih =>
    rw [setQuoted?]
    by_cases hsame : first.key = name ∧ first.Plain
    · rw [if_pos hsame]
      constructor
      · intro h
        cases h
        exact ⟨[], first, entries, rfl, rfl, by simp, hsame⟩
      · rintro ⟨front, e, back, heq, rfl, hfront, -⟩
        cases front with
        | nil =>
          cases heq
          rfl
        | cons x front =>
          cases heq
          exact absurd hsame (hfront first List.mem_cons_self)
    · rw [if_neg hsame, Option.map_eq_some_iff]
      constructor
      · rintro ⟨rest, hrest, rfl⟩
        obtain ⟨front, e, back, rfl, rfl, hfront, he⟩ := ih.1 hrest
        exact ⟨first :: front, e, back, rfl, rfl, List.forall_mem_cons.2 ⟨hsame, hfront⟩, he⟩
      · rintro ⟨front, e, back, heq, rfl, hfront, he⟩
        cases front with
        | nil =>
          cases heq
          exact absurd he hsame
        | cons x front =>
          cases heq
          exact ⟨_, ih.2 ⟨front, e, back, rfl, rfl, (List.forall_mem_cons.1 hfront).2, he⟩, rfl⟩

/-- Nothing is set in place if no attribute of that name is in plain form. -/
theorem setQuoted?_eq_none_iff {name value : List Char} {entries : List QuotedEntry} :
    setQuoted? name value entries = none ↔ ∀ e ∈ entries, ¬ (e.key = name ∧ e.Plain) := by
  induction entries with
  | nil => simp [setQuoted?]
  | cons e entries ih =>
    rw [setQuoted?, List.forall_mem_cons]
    by_cases hsame : e.key = name ∧ e.Plain
    · simp [hsame]
    · rw [if_neg hsame, Option.map_eq_none_iff, ih]
      exact ⟨fun h => ⟨hsame, h⟩, fun h => h.2⟩

/-- In front of an attribute that is set in place only the values before it can mislead. -/
theorem misleading_append_cons {name : List Char} {e : QuotedEntry} (hkey : e.key = name)
    (hplain : e.Plain) {front : List QuotedEntry} (hfront : ∀ x ∈ front, ¬ (x.key = name ∧ x.Plain))
    (back : List QuotedEntry) :
    QuotedTag.Misleading name (front ++ e :: back) ↔
      ∃ x ∈ front, ∃ s c t, isBlank c = true ∧
        x.value ++ [x.quote] = s ++ c :: (name ++ '=' :: '\x22' :: t) := by
  have hquote : '\x22' ∈ e.write := by
    rw [QuotedEntry.write, hplain.2.2]
    simp
  induction front with
  | nil =>
    have hnot : ¬ QuotedTag.Misleading name (e :: back) := fun h => h.1 ⟨hkey, hplain⟩
    simpa using hnot
  | cons x front ih =>
    obtain ⟨hx, hfront⟩ := List.forall_mem_cons.1 hfront
    have hlater : ∀ t, '\x22' ∈ t ++ writeQuoted (front ++ e :: back) := fun t =>
      List.mem_append_right t (List.mem_flatMap.2 ⟨e, by simp, hquote⟩)
    rw [List.exists_mem_cons_iff]
    refine ⟨fun h => h.2.imp ?_ (ih hfront).1, fun h => ⟨hx, h.imp ?_ (ih hfront).2⟩⟩
    · rintro ⟨s, c, t, hblank, heq, -⟩
      exact ⟨s, c, t, hblank, heq⟩
    · rintro ⟨s, c, t, hblank, heq⟩
      exact ⟨s, c, t, hblank, heq, hlater t⟩

namespace QuotedTag

variable {t : QuotedTag} {name value : List Char}

theorem set_of_some {changed : List QuotedEntry} (h : setQuoted? name value t.entries = some changed) :
    t.set name value = { t with entries := changed } := by
  rw [set, h]

theorem set_of_none (h : setQuoted? name value t.entries = none) :
    t.set name value =
      ⟨t.name, [], ⟨[' '], name, [], [], '\x22', value, t.after⟩ :: t.entries⟩ := by
  rw [set, h]

theorem plain_inserted (name value after : List Char) :
    QuotedEntry.Plain ⟨[' '], name, [], [], '\x22', value, after⟩ := ⟨rfl, rfl, rfl⟩

theorem Regular.set (h : t.Regular) (hname : IsAttributeName name) (hvalue : '\x22' ∉ value) :
    (t.set name value).Regular := by
  cases hset : setQuoted? name value t.entries with
  | some changed =>
    rw [set_of_some hset]
    obtain ⟨front, e, back, heq, rfl, -, -, hplain⟩ := setQuoted?_eq_some_iff.1 hset
    have hentries := h.entries
    rw [heq, List.forall_mem_append, List.forall_mem_cons] at hentries
    exact ⟨h.name_ne, h.name, h.name_end, h.after, List.forall_mem_append.2
      ⟨hentries.1, List.forall_mem_cons.2 ⟨hentries.2.1.set hplain hvalue, hentries.2.2⟩⟩⟩
  | none =>
    rw [set_of_none hset]
    have hspace : ∀ c ∈ [' '], isBlank c = true := by decide
    have hinserted : QuotedEntry.Regular ⟨[' '], name, [], [], '\x22', value, t.after⟩ :=
      ⟨by simp, hspace, hname, by simp, by simp, .inl rfl, hvalue, h.after⟩
    exact ⟨h.name_ne, h.name, by simp, solid_nil.isValue,
      List.forall_mem_cons.2 ⟨hinserted, h.entries⟩⟩

/-- Of two values set under one name the second remains. -/
theorem set_set (value' : List Char) : (t.set name value).set name value' = t.set name value' := by
  cases hset : setQuoted? name value t.entries with
  | some changed =>
    obtain ⟨front, e, back, heq, rfl, hfront, hkey, hplain⟩ := setQuoted?_eq_some_iff.1 hset
    have hsecond : setQuoted? name value' (front ++ e.set value :: back) =
        some (front ++ e.set value' :: back) :=
      setQuoted?_eq_some_iff.2 ⟨front, e.set value, back, rfl, by simp [QuotedEntry.set], hfront,
        hkey, hplain⟩
    have hfirst : setQuoted? name value' t.entries = some (front ++ e.set value' :: back) :=
      setQuoted?_eq_some_iff.2 ⟨front, e, back, heq, rfl, hfront, hkey, hplain⟩
    rw [set_of_some hset, set_of_some hfirst]
    exact set_of_some hsecond
  | none =>
    have hfirst : setQuoted? name value' t.entries = none :=
      setQuoted?_eq_none_iff.2 (setQuoted?_eq_none_iff.1 hset)
    rw [set_of_none hset, set_of_none hfirst]
    exact set_of_some (setQuoted?_eq_some_iff.2 ⟨[], _, t.entries, rfl, rfl, by simp, rfl,
      plain_inserted ..⟩)

/-- Setting an attribute makes no value misleading. -/
theorem not_misleading_set (hleads : ¬ Misleading name t.entries) :
    ¬ Misleading name (t.set name value).entries := by
  cases hset : setQuoted? name value t.entries with
  | some changed =>
    obtain ⟨front, e, back, heq, rfl, hfront, hkey, hplain⟩ := setQuoted?_eq_some_iff.1 hset
    rw [heq, misleading_append_cons hkey hplain hfront] at hleads
    rw [set_of_some hset]
    dsimp only
    rwa [misleading_append_cons (e := e.set value) hkey hplain hfront]
  | none =>
    rw [set_of_none hset]
    exact fun h => h.1 ⟨rfl, plain_inserted ..⟩

/-- Setting an attribute of the tag sets it among its parts, unless a value misleads. -/
theorem Regular.setAttribute_write (h : t.Regular) (hname : IsAttributeName name)
    (hleads : ¬ Misleading name t.entries) (value : List Char) :
    setAttribute name value t.write = (t.set name (settable value)).write := by
  have hstart : ∀ c ∈ '<' :: t.name, isBlank c = false :=
    List.forall_mem_cons.2 ⟨by decide, (solid_of_isTagNameChar h.name).isBlank⟩
  obtain ⟨d, s, hrest, hd⟩ := exists_cons_writeQuoted h.entries
  have htext : t.write = ('<' :: t.name) ++ (t.after ++ (writeQuoted t.entries ++ ['>'])) := by
    simp [write]
  have hfirst : (existing name).replaceFirst? (fun _ => written name value) t.write =
      (setQuoted? name (settable value) t.entries).map fun entries =>
        ({ t with entries := entries } : QuotedTag).write := by
    rw [htext, replaceFirst?_append hstart, hrest, replaceFirst?_unassigned hname h.after.not_mem.1 hd,
      ← hrest, replaceFirst?_writeQuoted hname value h.entries hleads, Option.map_map, Option.map_map]
    rfl
  unfold setAttribute
  rw [hfirst]
  cases hset : setQuoted? name (settable value) t.entries with
  | some entries => rw [set_of_some hset, Option.map_some]
  | none =>
    have hend : ∀ c ∈ (t.after ++ (writeQuoted t.entries ++ ['>'])).head?, isTagNameChar c = false := by
      intro c hc
      cases hafter : t.after with
      | nil =>
        rw [hafter, List.nil_append, hrest] at hc
        cases hc
        rw [← Bool.not_eq_true]
        intro hc
        rw [isNamePart_of_isTagNameChar hc] at hd
        cases hd.1
      | cons first after =>
        rw [hafter] at hc
        cases hc
        exact h.name_end c (by rw [hafter]; rfl)
    rw [set_of_none hset, Option.map_none]
    dsimp only
    rw [write, insertAfterName_append h.name_ne h.name hend, written_append]
    simp [write, QuotedEntry.write]

end QuotedTag

/-! ## Reading what was set -/

/-- The names of some attributes. -/
def quotedKeys (entries : List QuotedEntry) : List (List Char) := entries.map QuotedEntry.key

theorem map_fst_quotedPairs (entries : List QuotedEntry) :
    (quotedPairs entries).map (·.1) = quotedKeys entries := by
  simp [quotedPairs, quotedKeys]

theorem get?_quotedPairs {entries : List QuotedEntry} (h : (quotedKeys entries).Nodup) {e : QuotedEntry}
    (he : e ∈ entries) : (quotedPairs entries).get? e.key = some e.value :=
  (Attributes.get?_eq_some_iff (map_fst_quotedPairs entries ▸ h)).2
    (List.mem_map.2 ⟨e, he, rfl⟩)

namespace QuotedTag.Regular

variable {t : QuotedTag} {name value : List Char}

/-- What was set is read if the attribute was new or in the plain form. -/
theorem get?_set (h : t.Regular) (hkeys : (quotedKeys t.entries).Nodup) (hname : IsAttributeName name)
    (hvalue : '\x22' ∉ value) (hspells : t.Spells name) :
    (attributes (t.set name value).write).get? name = some value := by
  have hregular := h.set hname hvalue
  cases hset : setQuoted? name value t.entries with
  | some changed =>
    rw [set_of_some hset] at hregular ⊢
    obtain ⟨front, e, back, heq, rfl, -, rfl, -⟩ := setQuoted?_eq_some_iff.1 hset
    have hsame : quotedKeys (front ++ e.set value :: back) = quotedKeys t.entries := by
      simp [heq, quotedKeys, QuotedEntry.set]
    have hdistinct : (quotedKeys (front ++ e.set value :: back)).Nodup := hsame ▸ hkeys
    rw [hregular.attributes_write hdistinct]
    exact get?_quotedPairs (e := e.set value) hdistinct (by simp)
  | none =>
    rw [set_of_none hset] at hregular ⊢
    have hnew : name ∉ quotedKeys t.entries := fun hmem => by
      obtain ⟨e, he, hkey⟩ := List.mem_map.1 hmem
      exact setQuoted?_eq_none_iff.1 hset e he ⟨hkey, hspells e he hkey⟩
    rw [hregular.attributes_write (List.nodup_cons.2 ⟨hnew, hkeys⟩)]
    exact if_pos rfl

/-- What was set is not read if the attribute was there in another form: the old value is. -/
theorem get?_set_of_not_spells (h : t.Regular) (hkeys : (quotedKeys t.entries).Nodup)
    (hname : IsAttributeName name) (hvalue : '\x22' ∉ value) (hspells : ¬ t.Spells name) :
    (attributes (t.set name value).write).get? name = (attributes t.write).get? name := by
  have hregular := h.set hname hvalue
  simp only [Spells, not_forall] at hspells
  obtain ⟨e, he, rfl, hplain⟩ := hspells
  have hset : setQuoted? e.key value t.entries = none := by
    refine setQuoted?_eq_none_iff.2 fun x hx hsame => hplain ?_
    have heq : x = e := List.inj_on_of_nodup_map hkeys hx he hsame.1
    exact heq ▸ hsame.2
  rw [set_of_none hset] at hregular ⊢
  have hfind := hregular.findAll_write
  have hpairs := get?_quotedPairs hkeys he
  rw [attributes, hfind]
  have hcons := @Attributes.get?_ofList_cons e.key value _ (map_fst_quotedPairs t.entries ▸ hkeys) e.key
  rw [h.attributes_write hkeys, hpairs]
  exact hcons.trans (by rw [hpairs, Option.some_or])

end QuotedTag.Regular

end Assessment.Markup.StartTag
