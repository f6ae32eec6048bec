import Mathlib.Data.List.TakeWhile
import Assessment.Proofs.Html.Lexing

/-!
# Proofs: reading written tags

A start tag is read up to its end if its name and those of its attributes hold nothing that ends a name,
whether values are in double quotes, in single quotes or absent (`readAs_startTag`), and so is an end tag
(`readAs_endTag`). Names come out in lower case, so tags with plain names are read as they are written
(`lexes_startTag`, `lexes_endTag`).
-/

namespace Assessment.Html

open Assessment.Markup Assessment.Text

/-! ## Plain names -/

theorem lower_of_forall {s : List Char} (h : ∀ c ∈ s, c ∈ plainChars) : lower s = s := by
  have hchar : ∀ c ∈ plainChars, c.toNat ≠ 0x3A3 ∧ c.toNat ≠ 0x130 ∧
      Char.ofNat (lowerCode c.toNat) = c := by decide
  suffices ∀ before, lowerAfter before s = s from this []
  induction s with
  | nil => exact fun _ => rfl
  | cons c s ih =>
    intro before
    obtain ⟨hsigma, hdot, hcode⟩ := hchar c (h c (by simp))
    simp only [lowerAfter, hsigma, hdot, if_false, hcode, ih fun d hd => h d (by simp [hd])]
    rfl

/-- A text without white space is not trimmed. -/
theorem trim_of_forall {s : List Char} (h : ∀ c ∈ s, isBlank c = false) : trim s = s := by
  have hstart : s.dropWhile isBlank = s := (span_of_head? fun c hc => h c (List.mem_of_mem_head? hc)).2
  have hend : s.reverse.dropWhile isBlank = s.reverse :=
    (span_of_head? fun c hc => h c (List.mem_reverse.1 (List.mem_of_mem_head? hc))).2
  rw [trim, trimStart, hstart, trimEnd, hend, List.reverse_reverse]

/-- Plain names are in lower case. -/
theorem lower_of_isPlainName {name : List Char} (h : isPlainName name) : lower name = name :=
  lower_of_forall (mem_plainChars_of_isPlainName h)

/-- A plain name starts with a small letter. -/
theorem exists_cons_of_isPlainName {name : List Char} (h : isPlainName name) :
    ∃ c s, name = c :: s ∧ c ∈ smallLetters ∧ ∀ d ∈ s, d ∈ plainChars := by
  cases name with
  | nil => cases h
  | cons c s =>
    simp only [isPlainName, Bool.and_eq_true, List.contains_iff_mem, List.all_eq_true] at h
    exact ⟨c, s, rfl, h.1, h.2⟩

/-! ## The ends of names -/

/-- A character that ends the name of a tag and of an attribute. -/
def nameEnds : List Char := " />".toList

namespace StartTag

theorem skipSeparators_cons {c : Char} (h : isAttributeStart c = true) (s : List Char) :
    skipSeparators (c :: s) = c :: s := by
  simp only [isAttributeStart, Bool.not_eq_true', Bool.or_eq_false_iff, beq_eq_false_iff_ne] at h
  simp [skipSeparators, h.1.1, h.1.2]

/-! ## Names -/

/-- The text goes on as the name of a tag and as that of an attribute: it holds nothing that ends one. -/
def Unbroken (s : List Char) : Prop := ∀ c ∈ s, isTagNameChar c = true ∧ isAttributePart c = true

theorem unbroken_of_isPlainName {name : List Char} (h : isPlainName name) : Unbroken name := fun c hc =>
  (by decide : ∀ d ∈ plainChars, isTagNameChar d = true ∧ isAttributePart d = true) c
    (mem_plainChars_of_isPlainName h c hc)

theorem ne_nil_of_isPlainName {name : List Char} (h : isPlainName name) : name ≠ [] := by
  rintro rfl
  cases h

section Starts

variable {c : Char} {name : List Char} (h : Unbroken (c :: name))

include h

theorem Unbroken.isAttributeStart : isAttributeStart c = true := by
  have hpart := (h c List.mem_cons_self).2
  rw [isAttributePart, Bool.and_eq_true] at hpart
  exact hpart.1

theorem Unbroken.isBlank : isBlank c = false := by
  have hstart := h.isAttributeStart
  simp only [StartTag.isAttributeStart, Bool.not_eq_true', Bool.or_eq_false_iff] at hstart
  exact hstart.1.1

theorem Unbroken.ne_sign : c ≠ '=' := by
  have hpart := (h c List.mem_cons_self).2
  rw [isAttributePart, Bool.and_eq_true] at hpart
  exact bne_iff_ne.1 hpart.2

theorem Unbroken.isAttributePart : ∀ d ∈ name, isAttributePart d = true := fun d hd =>
  (h d (List.mem_cons_of_mem c hd)).2

end Starts

/-- White space before a name is skipped. -/
theorem skipSeparators_name {c : Char} {name : List Char} (h : Unbroken (c :: name)) (s : List Char) :
    skipSeparators (' ' :: c :: s) = c :: s := by
  have hspace : isBlank ' ' = true := by decide
  rw [skipSeparators, hspace, Bool.true_or, if_pos rfl]
  exact skipSeparators_cons h.isAttributeStart s

/-! ## Attributes -/

/-- A text that is read as attributes: each after a space, with its value in quotes of either kind or
without one. Right after the quotes a name may follow that has no value. -/
inductive Reads : List Char → List (List Char × List Char) → Prop where
  /-- Nothing. -/
  | nil : Reads [] []
  /-- An attribute with a value, and more. -/
  | quoted {name value rest : List Char} {quote : Char} {found : List (List Char × List Char)}
      (hne : name ≠ []) (hname : Unbroken name) (hquote : isQuote quote) (hvalue : quote ∉ value)
      (h : Reads rest found) :
      Reads (' ' :: (name ++ '=' :: quote :: (value ++ quote :: rest)))
        ((lower name, Entity.decode value) :: found)
  /-- An attribute with a value, a name right after it, and more. -/
  | tailed {name value tail rest : List Char} {quote : Char} {found : List (List Char × List Char)}
      (hne : name ≠ []) (hname : Unbroken name) (hquote : isQuote quote) (hvalue : quote ∉ value)
      (htailNe : tail ≠ []) (htail : Unbroken tail) (h : Reads rest found) :
      Reads (' ' :: (name ++ '=' :: quote :: (value ++ quote :: (tail ++ rest))))
        ((lower name, Entity.decode value) :: (lower tail, []) :: found)
  /-- An attribute without a value, and more. -/
  | bare {name rest : List Char} {found : List (List Char × List Char)} (hne : name ≠ [])
      (hname : Unbroken name) (h : Reads rest found) :
      Reads (' ' :: (name ++ rest)) ((lower name, []) :: found)

/-- The end of a start tag, and whether it closes the element. -/
inductive Ends : List Char → Bool → Prop where
  /-- A bracket. -/
  | bracket : Ends ['>'] false
  /-- A slash before the bracket. -/
  | slash : Ends ['/', '>'] true
  /-- A slash before the bracket, after a space. -/
  | spaced : Ends [' ', '/', '>'] true

/-- The end of a start tag without the space before it. -/
def closing (closed : Bool) : List Char := if closed then ['/', '>'] else ['>']

theorem attributes_closing (boundary closed : Bool) (rest : List Char) :
    attributes boundary (closing closed ++ rest) = ([], closing closed ++ rest) := by
  cases closed with
  | true =>
    have hstart : isAttributeStart '/' = false := by decide
    simp [closing, attributes, hstart]
  | false =>
    have hstart : isAttributeStart '>' = false := by decide
    simp [closing, attributes, hstart]

theorem skipSeparators_closing (closed : Bool) (rest : List Char) :
    skipSeparators (closing closed ++ rest) = closing closed ++ rest := by
  cases closed with
  | true => simp [closing, skipSeparators, (by decide : isBlank '/' = false)]
  | false => simp [closing, skipSeparators, (by decide : isBlank '>' = false)]

/-- After a space there is no value unless an equals sign follows. -/
theorem value?_space {c : Char} {s : List Char} (h : isBlank c = false) (hsign : c ≠ '=') :
    value? (' ' :: c :: s) = none := by
  have hdrop : (' ' :: c :: s).dropWhile isBlank = c :: s := by
    rw [List.dropWhile_cons_of_pos (by decide), List.dropWhile_cons_of_neg (by simp [h])]
  unfold value?
  split
  · next heq =>
    rw [hdrop] at heq
    exact absurd (List.cons.inj heq).1 hsign
  · rfl

/-- What follows a name that has no value, up to the end of the tag: a character that ends the name, and
no equals sign. If it has no space, it is the end of the tag. -/
structure FollowsName (closed : Bool) (rest : List Char) (c : Char) (t : List Char) : Prop where
  /-- The name ends. -/
  ends : c ∈ nameEnds
  /-- There is no value. -/
  value : value? (c :: t) = none
  /-- There is a space, or it is the end of the tag. -/
  next : (skipSeparators (c :: t)).length < (c :: t).length ∨ c :: t = closing closed ++ rest

/-- Another name after a space follows a name. -/
theorem exists_followsName_name {name : List Char} (hne : name ≠ []) (hname : Unbroken name)
    (closed : Bool) (rest s more : List Char) :
    ∃ c t, ' ' :: (name ++ s) ++ more = c :: t ∧ FollowsName closed rest c t := by
  cases name with
  | nil => exact absurd rfl hne
  | cons c name =>
    refine ⟨' ', _, rfl, by decide, value?_space hname.isBlank hname.ne_sign, .inl ?_⟩
    have hskip := skipSeparators_name hname (name ++ s ++ more)
    exact Nat.lt_of_le_of_lt (Nat.le_of_eq (congrArg List.length hskip)) (Nat.lt_succ_self _)

/-- A value in quotes is what stands between them. -/
theorem value?_quoted {quote : Char} {value : List Char} (hquote : isQuote quote)
    (hvalue : quote ∉ value) (rest : List Char) :
    value? ('=' :: quote :: (value ++ quote :: rest)) = some (value, rest) := by
  have hkind : quote = '\x22' ∨ quote = '\x27' := by simpa [isQuote] using hquote
  have hblank : isBlank quote = false := by rcases hkind with rfl | rfl <;> decide
  have hsign : (quote == '=') = false := by rcases hkind with rfl | rfl <;> decide
  have hdrop : ('=' :: quote :: (value ++ quote :: rest)).dropWhile isBlank =
      '=' :: quote :: (value ++ quote :: rest) := List.dropWhile_cons_of_neg (by decide)
  have hsigns : (quote :: (value ++ quote :: rest)).dropWhile (· == '=') =
      quote :: (value ++ quote :: rest) := List.dropWhile_cons_of_neg (by simp [hsign])
  have hstart : (quote :: (value ++ quote :: rest)).dropWhile isBlank =
      quote :: (value ++ quote :: rest) := List.dropWhile_cons_of_neg (by simp [hblank])
  simp only [value?, hdrop, hsigns, valueAfterSigns?, hstart, hquote, if_true,
    cutAtChar?_append_cons hvalue]

/-- A value without quotes goes up to white space or to the end of the tag. -/
theorem value?_unquoted {c d : Char} {value : List Char} (hquote : isQuote c = false) (hsign : c ≠ '=')
    (hvalue : ∀ e ∈ c :: value, isBare e = true) (hd : isBare d = false) (rest : List Char) :
    value? ('=' :: (c :: value ++ d :: rest)) = some (c :: value, d :: rest) := by
  have hblank : isBlank c = false := by
    have hbare := hvalue c List.mem_cons_self
    simp only [isBare, Bool.not_eq_true', Bool.or_eq_false_iff] at hbare
    exact hbare.1
  have hdrop : ('=' :: (c :: value ++ d :: rest)).dropWhile isBlank = '=' :: (c :: value ++ d :: rest) :=
    List.dropWhile_cons_of_neg (by decide)
  have hsigns : (c :: value ++ d :: rest).dropWhile (· == '=') = c :: value ++ d :: rest :=
    List.dropWhile_cons_of_neg (by simp [hsign])
  have hstart : (c :: value ++ d :: rest).dropWhile isBlank = c :: value ++ d :: rest :=
    List.dropWhile_cons_of_neg (by simp [hblank])
  obtain ⟨htake, hrest⟩ := span_append_cons hvalue hd rest
  simp only [value?, hdrop, hsigns, valueAfterSigns?, hstart]
  simp only [List.cons_append] at htake hrest ⊢
  simp only [hquote, Bool.false_eq_true, if_false, bareValue, htake, hrest]

theorem isAttributePart_of_mem_nameEnds {c : Char} (h : c ∈ nameEnds) : isAttributePart c = false :=
  (by decide : ∀ d ∈ nameEnds, isAttributePart d = false) c h

/-- An attribute with a value is read before what follows it. -/
theorem readAttribute_of_value {c : Char} {name value more rest : List Char}
    (hname : ∀ d ∈ name, isAttributePart d = true) (hvalue : value? ('=' :: more) = some (value, rest)) :
    readAttribute c (name ++ '=' :: more) =
      ⟨lower (c :: name), Entity.decode value, skipSeparators rest, true⟩ := by
  obtain ⟨htake, hdrop⟩ := span_append_cons hname (by decide : isAttributePart '=' = false) more
  simp only [readAttribute, htake, hdrop, hvalue]

/-- An attribute without a value is read before what follows it, and then more attributes. -/
theorem attributes_bare {c : Char} {name more rest : List Char} {closed : Bool} {d : Char}
    {t : List Char} {found : List (List Char × List Char)} (hname : Unbroken (c :: name))
    (hmore : more = d :: t) (hd : FollowsName closed rest d t)
    (h : attributes true (skipSeparators more) = (found, closing closed ++ rest)) :
    attributes true (c :: name ++ more) = ((lower (c :: name), []) :: found, closing closed ++ rest) := by
  subst hmore
  obtain ⟨htake, hdrop⟩ := span_append_cons hname.isAttributePart
    (isAttributePart_of_mem_nameEnds hd.ends) t
  have hread : ∃ boundary, readAttribute c (name ++ d :: t) =
      ⟨lower (c :: name), [], skipSeparators (d :: t), boundary⟩ ∧
        ((skipSeparators (d :: t)).length < (d :: t).length → boundary = true) := by
    simp only [readAttribute, htake, hdrop, hd.value]
    refine ⟨_, rfl, fun hlength => ?_⟩
    rw [decide_eq_true hlength, Bool.true_or]
  obtain ⟨boundary, hread, hboundary⟩ := hread
  have hrest : attributes boundary (skipSeparators (d :: t)) = (found, closing closed ++ rest) := by
    rcases hd.next with hlength | hclosing
    · rw [hboundary hlength, h]
    · rw [hclosing, skipSeparators_closing, attributes_closing] at h ⊢
      exact h
  rw [List.cons_append, attributes]
  simp only [hname.isAttributeStart, Bool.and_self, if_true, hread, hrest]

/-- An attribute with a value is read, and then more attributes. -/
theorem attributes_of_value {c : Char} {name value more rest : List Char}
    {found : List (List Char × List Char)} {ending : List Char} (hc : isAttributeStart c = true)
    (hname : ∀ d ∈ name, isAttributePart d = true)
    (hvalue : value? ('=' :: more) = some (value, rest))
    (h : attributes true (skipSeparators rest) = (found, ending)) :
    attributes true (c :: name ++ '=' :: more) =
      ((lower (c :: name), Entity.decode value) :: found, ending) := by
  rw [List.cons_append, attributes]
  simp only [hc, Bool.and_self, if_true, readAttribute_of_value hname hvalue, h]

/-- The text, up to the end of a tag, is read as attributes, whatever follows. -/
def ReadsAll (s : List Char) (found : List (List Char × List Char)) (closed : Bool) : Prop :=
  ∀ rest, ∃ c t, s ++ rest = c :: t ∧ FollowsName closed rest c t ∧
    attributes true (skipSeparators (c :: t)) = (found, closing closed ++ rest)

namespace ReadsAll

variable {name s : List Char} {found : List (List Char × List Char)} {closed : Bool}

/-- The end of a tag holds no attribute. -/
theorem of_ends {ending : List Char} (h : Ends ending closed) : ReadsAll ending [] closed := by
  intro rest
  have hclosing := skipSeparators_closing closed rest
  have hnone := attributes_closing true closed rest
  cases h with
  | bracket => exact ⟨'>', rest, rfl, ⟨by decide, rfl, .inr rfl⟩, hclosing ▸ hnone⟩
  | slash => exact ⟨'/', '>' :: rest, rfl, ⟨by decide, rfl, .inr rfl⟩, hclosing ▸ hnone⟩
  | spaced =>
    have hskip : skipSeparators (' ' :: '/' :: '>' :: rest) = '/' :: '>' :: rest := by
      simp [skipSeparators, (by decide : isBlank ' ' = true), (by decide : isBlank '/' = false)]
    refine ⟨' ', '/' :: '>' :: rest, rfl,
      ⟨by decide, value?_space (by decide) (by decide), .inl ?_⟩, hskip ▸ hnone⟩
    simp [hskip]

/-- What is read as attributes from a name on is read so after a space. -/
theorem of_name {more : List Char} (hne : name ≠ []) (hname : Unbroken name)
    (h : ∀ rest, attributes true (name ++ (more ++ rest)) = (found, closing closed ++ rest)) :
    ReadsAll (' ' :: (name ++ more)) found closed := by
  intro rest
  obtain ⟨e, u, hu, hfollows⟩ := exists_followsName_name hne hname closed rest more rest
  refine ⟨e, u, hu, hfollows, ?_⟩
  cases name with
  | nil => exact absurd rfl hne
  | cons c name =>
    rw [← hu]
    simpa only [List.cons_append, List.append_assoc, skipSeparators_name hname] using h rest

/-- An attribute with a value comes before others. -/
theorem value {text value : List Char} (hne : name ≠ []) (hname : Unbroken name)
    (hvalue : ∀ rest, value? ('=' :: (text ++ (s ++ rest))) = some (value, s ++ rest))
    (h : ReadsAll s found closed) :
    ReadsAll (' ' :: (name ++ '=' :: (text ++ s))) ((lower name, Entity.decode value) :: found) closed := by
  refine of_name hne hname fun rest => ?_
  obtain ⟨d, t, ht, -, hmore⟩ := h rest
  rw [← ht] at hmore
  cases name with
  | nil => exact absurd rfl hne
  | cons c name =>
    have hread := attributes_of_value hname.isAttributeStart hname.isAttributePart
      (hvalue rest) hmore
    simpa only [List.cons_append, List.append_assoc] using hread

/-- An attribute without a value comes before others. -/
theorem bare (hne : name ≠ []) (hname : Unbroken name) (h : ReadsAll s found closed) :
    ReadsAll (' ' :: (name ++ s)) ((lower name, []) :: found) closed := by
  refine of_name hne hname fun rest => ?_
  obtain ⟨d, t, ht, hd, hmore⟩ := h rest
  cases name with
  | nil => exact absurd rfl hne
  | cons c name => exact attributes_bare hname ht hd (ht ▸ hmore)

/-- An attribute with its value in quotes comes before a name without a value and others. -/
theorem tailed {value tail : List Char} {quote : Char} (hne : name ≠ []) (hname : Unbroken name)
    (hquote : isQuote quote) (hvalue : quote ∉ value) (htailNe : tail ≠ []) (htail : Unbroken tail)
    (h : ReadsAll s found closed) :
    ReadsAll (' ' :: (name ++ '=' :: quote :: (value ++ quote :: (tail ++ s))))
      ((lower name, Entity.decode value) :: (lower tail, []) :: found) closed := by
  refine of_name hne hname fun rest => ?_
  obtain ⟨d, t, ht, hd, hmore⟩ := h rest
  cases name with
  | nil => exact absurd rfl hne
  | cons c name =>
    cases tail with
    | nil => exact absurd rfl htailNe
    | cons f tail =>
      have hbare := attributes_bare htail ht hd (ht ▸ hmore)
      rw [List.cons_append, ← skipSeparators_cons htail.isAttributeStart] at hbare
      have hread := attributes_of_value hname.isAttributeStart hname.isAttributePart
        (value?_quoted hquote hvalue (f :: tail ++ (s ++ rest))) hbare
      simpa only [List.cons_append, List.append_assoc] using hread

/-- An attribute with its value in quotes comes before others. -/
theorem quoted {value : List Char} {quote : Char} (hne : name ≠ []) (hname : Unbroken name)
    (hquote : isQuote quote) (hvalue : quote ∉ value) (h : ReadsAll s found closed) :
    ReadsAll (' ' :: (name ++ '=' :: quote :: (value ++ quote :: s)))
      ((lower name, Entity.decode value) :: found) closed := by
  have hread := @ReadsAll.value name s found closed (quote :: (value ++ [quote])) value hne hname
    (fun rest => by simpa using value?_quoted hquote hvalue (s ++ rest)) h
  simpa using hread

/-- An attribute with its value without quotes comes before others, or before the bracket. -/
theorem unquoted {c : Char} {value : List Char} (hne : name ≠ []) (hname : Unbroken name)
    (hquote : isQuote c = false) (hsign : c ≠ '=') (hvalue : ∀ e ∈ c :: value, isBare e = true)
    (hs : s.head? ≠ some '/') (h : ReadsAll s found closed) :
    ReadsAll (' ' :: (name ++ '=' :: (c :: value ++ s)))
      ((lower name, Entity.decode (c :: value)) :: found) closed := by
  refine ReadsAll.value hne hname (fun rest => ?_) h
  obtain ⟨d, t, ht, hfollows, -⟩ := h rest
  cases s with
  | nil =>
    obtain ⟨e, u, hu, -⟩ := h []
    cases hu
  | cons e u =>
    obtain rfl := (List.cons.inj ht).1
    have hd : isBare e = false := by
      have hall : ∀ e ∈ nameEnds, e ≠ '/' → isBare e = false := by decide
      exact hall e hfollows.ends fun hslash => hs (congrArg some hslash)
    exact value?_unquoted hquote hsign hvalue hd (u ++ rest)

/-- Attributes are read up to the end of the tag. -/
theorem of_reads {ending : List Char} (hs : Reads s found) (he : Ends ending closed) :
    ReadsAll (s ++ ending) found closed := by
  induction hs with
  | nil => exact of_ends he
  | quoted hne hname hquote hvalue _ ih => simpa using ih.quoted hne hname hquote hvalue
  | tailed hne hname hquote hvalue htailNe htail _ ih =>
    simpa using ih.tailed hne hname hquote hvalue htailNe htail
  | bare hne hname _ ih => simpa using ih.bare hne hname

end ReadsAll

/-- A start tag is read where its attributes are, up to its end. -/
theorem read_of_attributes {name t rest : List Char} {c : Char} {found : List (List Char × List Char)}
    {closed : Bool} (hname : ∀ d ∈ name, isTagNameChar d = true) (hend : isTagNameChar c = false)
    (hnext : (skipSeparators (c :: t)).length < (c :: t).length ∨ c :: t = closing closed ++ rest)
    (h : attributes true (skipSeparators (c :: t)) = (found, closing closed ++ rest)) :
    read (name ++ c :: t) = .found (.startTag (lower name) (Attributes.ofList found) closed) rest := by
  obtain ⟨htake, hdrop⟩ := span_append_cons hname hend t
  have hfound : attributes (decide ((skipSeparators (c :: t)).length < (c :: t).length) ||
      (name.getLast?.map isQuote).getD false) (skipSeparators (c :: t)) =
        (found, closing closed ++ rest) := by
    rcases hnext with hlength | hclosing
    · simpa only [hlength, decide_true, Bool.true_or] using h
    · rw [hclosing, skipSeparators_closing, attributes_closing] at h ⊢
      exact h
  simp only [read, htake, hdrop, hfound]
  cases closed with
  | true => rfl
  | false => rfl

/-- A start tag is read up to its end. The name comes out in lower case. -/
theorem read_of_readsAll {name s : List Char} {found : List (List Char × List Char)} {closed : Bool}
    (hname : Unbroken name) (h : ReadsAll s found closed) (rest : List Char) :
    read (name ++ (s ++ rest)) =
      .found (.startTag (lower name) (Attributes.ofList found) closed) rest := by
  obtain ⟨c, t, ht, hfollows, hattributes⟩ := h rest
  have hend : isTagNameChar c = false :=
    (by decide : ∀ e ∈ nameEnds, isTagNameChar e = false) c hfollows.ends
  rw [ht]
  exact read_of_attributes (fun d hd => (hname d hd).1) hend hfollows.next hattributes

/-- A text that spells attributes: each after a space, with its value in quotes of either kind or
without one. -/
inductive Spells : List Char → List (List Char × List Char) → Prop where
  /-- Nothing. -/
  | nil : Spells [] []
  /-- An attribute with a value, and more. -/
  | quoted {name value rest : List Char} {quote : Char} {found : List (List Char × List Char)}
      (hname : isPlainName name) (hquote : isQuote quote) (hvalue : quote ∉ value)
      (h : Spells rest found) :
      Spells (' ' :: (name ++ '=' :: quote :: (value ++ quote :: rest)))
        ((name, Entity.decode value) :: found)
  /-- An attribute without a value, and more. -/
  | bare {name rest : List Char} {found : List (List Char × List Char)} (hname : isPlainName name)
      (h : Spells rest found) : Spells (' ' :: (name ++ rest)) ((name, []) :: found)

/-- Attributes with plain names are read as they are spelled. -/
theorem Spells.reads {s : List Char} {found : List (List Char × List Char)} (h : Spells s found) :
    Reads s found := by
  induction h with
  | nil => exact .nil
  | quoted hname hquote hvalue _ ih =>
    have hreads := Reads.quoted (ne_nil_of_isPlainName hname) (unbroken_of_isPlainName hname) hquote
      hvalue ih
    rwa [lower_of_isPlainName hname] at hreads
  | bare hname _ ih =>
    have hreads := Reads.bare (ne_nil_of_isPlainName hname) (unbroken_of_isPlainName hname) ih
    rwa [lower_of_isPlainName hname] at hreads

end StartTag

open StartTag

/-- The text is read as one token, whatever follows. -/
def ReadAs (s : List Char) (token : Token) : Prop :=
  ∀ rest, Step.inMarkup false (s ++ rest) = .read token rest

theorem ReadAs.lexes {s : List Char} {token : Token} (h : ReadAs s token)
    (hraw : token.rawAfter none = none) : Lexes s [token] :=
  fun _ rest => readInto_of_read (h rest) hraw

theorem ReadAs.inj {s : List Char} {token other : Token} (h : ReadAs s token) (h' : ReadAs s other) :
    token = other := by
  have hsame := (h []).symm.trans (h' [])
  cases hsame
  rfl

/-- Markup that begins with a letter is read as a start tag. -/
theorem read_of_isAlpha {c : Char} (hc : c.isAlpha = true) (s : List Char) :
    Markup.read (c :: s) = StartTag.read (c :: s) := by
  unfold Markup.read
  split
  · next h => cases h
  · next h => exact absurd (List.cons.inj h).1 fun h => absurd (h ▸ hc) (by decide)
  · next h => exact absurd (List.cons.inj h).1 fun h => absurd (h ▸ hc) (by decide)
  · next h => exact absurd (List.cons.inj h).1 fun h => absurd (h ▸ hc) (by decide)
  · next h =>
    rw [← (List.cons.inj h).1, if_pos hc]

/-- Markup is read as a token where what follows its opening bracket is. -/
theorem readAs_of_read {c : Char} {s : List Char} {token : Token}
    (h : ∀ rest, Markup.read (c :: (s ++ rest)) = .found token rest) : ReadAs ('<' :: c :: s) token := by
  intro rest
  show Step.atMarkup false (c :: (s ++ rest)) = _
  simp only [Step.atMarkup, List.isEmpty_cons, h]
  rfl

/-- A start tag that begins with a letter is read as one. -/
theorem readAs_startTag {c : Char} {name s : List Char} {found : List (List Char × List Char)}
    {closed : Bool} (hc : c.isAlpha = true) (hname : Unbroken (c :: name))
    (hs : ReadsAll s found closed) :
    ReadAs ('<' :: (c :: name ++ s))
      (.startTag (lower (c :: name)) (Attributes.ofList found) closed) := by
  refine @readAs_of_read c (name ++ s) _ fun rest => ?_
  have hread := read_of_readsAll hname hs rest
  rw [read_of_isAlpha hc, List.append_assoc]
  exact hread

/-- An end tag that begins with a letter is one, whatever else its name holds. -/
theorem endTagOf_eq {c : Char} {name : List Char} (hc : c.isAlpha = true)
    (hname : Unbroken (c :: name)) : Markup.endTagOf (c :: name) = .endTag (lower (c :: name)) := by
  have hblank : ∀ d ∈ c :: name, isBlank d = false := by
    intro d hd
    have hone : Unbroken [d] := fun e he => hname e (List.mem_singleton.1 he ▸ hd)
    exact hone.isBlank
  have htake := List.takeWhile_eq_self_iff.2 fun d hd => (hname d hd).1
  simp only [Markup.endTagOf, trim_of_forall hblank, hc, if_true, htake, ite_self]

/-- What is written as an end tag is read as one token. -/
theorem readAs_ending {inside : List Char} (h : '>' ∉ inside) :
    ReadAs ("</".toList ++ inside ++ ['>']) (Markup.endTagOf inside) := by
  refine @readAs_of_read '/' (inside ++ ['>']) _ fun rest => ?_
  show Markup.readEndTag (inside ++ ['>'] ++ rest) = _
  rw [List.append_assoc, List.singleton_append, Markup.readEndTag, cutAtChar?_append_cons h]

/-- An end tag that begins with a letter is read as one. -/
theorem readAs_endTag {c : Char} {name : List Char} (hc : c.isAlpha = true)
    (hname : Unbroken (c :: name)) :
    ReadAs ("</".toList ++ (c :: name) ++ ['>']) (.endTag (lower (c :: name))) := by
  have hbracket : '>' ∉ c :: name := fun hmem => absurd (hname _ hmem).1 (by decide)
  rw [← endTagOf_eq hc hname]
  exact readAs_ending hbracket

/-- A plain name begins with a letter. -/
theorem exists_letter_of_isPlainName {name : List Char} (h : isPlainName name) :
    ∃ c s, name = c :: s ∧ c.isAlpha = true ∧ Unbroken (c :: s) := by
  obtain ⟨c, s, rfl, hc, -⟩ := exists_cons_of_isPlainName h
  exact ⟨c, s, rfl, (by decide : ∀ d ∈ smallLetters, d.isAlpha = true) c hc, unbroken_of_isPlainName h⟩

/-- A start tag is read as it is written. -/
theorem lexes_startTag {name s ending : List Char} {found : List (List Char × List Char)}
    {closed : Bool} (hname : isPlainName name) (hraw : isRaw name = false) (hs : Spells s found)
    (he : Ends ending closed) :
    Lexes ('<' :: (name ++ (s ++ ending)))
      [.startTag name (Attributes.ofList found) closed] := by
  have hlower := lower_of_isPlainName hname
  obtain ⟨c, t, rfl, hc, hunbroken⟩ := exists_letter_of_isPlainName hname
  have hread := readAs_startTag hc hunbroken (.of_reads hs.reads he)
  rw [hlower] at hread
  refine hread.lexes ?_
  cases closed with
  | true => rfl
  | false => simp [Token.rawAfter, hraw]

/-- An end tag is read as it is written. -/
theorem lexes_endTag {name : List Char} (hname : isPlainName name) :
    Lexes ("</".toList ++ name ++ ['>']) [.endTag name] := by
  have hlower := lower_of_isPlainName hname
  obtain ⟨c, t, rfl, hc, hunbroken⟩ := exists_letter_of_isPlainName hname
  have hread := readAs_endTag hc hunbroken
  rw [hlower] at hread
  exact hread.lexes rfl

end Assessment.Html
