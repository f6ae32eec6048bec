import Assessment.Proofs.Html.Shuffled
import Assessment.Proofs.Text.Lower

/-!
# Proofs: tags that last

A tag *lasts* if what is printed of it is read as the same tag, with its attributes in the order in which
they are printed (`LastingTag.readAs`). Every start tag that is read, from whatever text, lasts
(`lastingTag_of_read`): names come out in lower case, and lower case adds nothing that ends a name.
-/

namespace Assessment.Html

open Assessment.Markup Assessment.Text

/-! ## Names -/

/-- The name of a tag lasts: it starts with a letter, nothing in it ends it, and it is in lower case. -/
structure LastingName (name : List Char) : Prop where
  /-- It starts with a letter. -/
  letter : ∃ c s, name = c :: s ∧ c.isAlpha = true
  /-- Nothing in it ends it. -/
  unbroken : ∀ c ∈ name, StartTag.isTagNameChar c = true
  /-- It is in lower case. -/
  lower : lower name = name

/-- The name of an attribute lasts: nothing in it ends it, and it is in lower case. An equals sign can be
its first character and no other. -/
structure LastingKey (key : List Char) : Prop where
  /-- It starts as such a name and goes on as one. -/
  unbroken : ∃ c s, key = c :: s ∧ StartTag.isAttributeStart c = true ∧
    ∀ d ∈ s, StartTag.isAttributePart d = true
  /-- It is in lower case. -/
  lower : lower key = key

/-- The tag lasts. -/
structure LastingTag (name : List Char) (attributes : Attributes) : Prop where
  /-- Its name lasts. -/
  name : LastingName name
  /-- The names of its attributes last. -/
  keys : ∀ key ∈ attributes.map (·.1), LastingKey key
  /-- No attribute is there twice. -/
  distinct : (attributes.map (·.1)).Nodup

/-- The characters that end the name of a tag. -/
def tagNameEnds : List Char := ['\t', '\n', '\r', '\x0c', ' ', '/', '>', '\x00']

theorem mem_tagNameEnds {c : Char} (h : StartTag.isTagNameChar c = false) : c ∈ tagNameEnds := by
  rw [StartTag.isTagNameChar, Bool.not_eq_false'] at h
  simpa [tagNameEnds, or_assoc] using h

theorem isTagNameChar_of_isLate {c : Char} (h : IsLate c) : StartTag.isTagNameChar c = true := by
  have hearly : ∀ d ∈ tagNameEnds, d.toNat < 0x61 := by decide
  by_contra hend
  have hmem := mem_tagNameEnds (eq_false_of_ne_true hend)
  exact absurd h.1 (Nat.not_le_of_lt (hearly c hmem))

theorem isAttributePart_of_isLate {c : Char} (h : IsLate c) : StartTag.isAttributePart c = true := by
  have hearly : ∀ d ∈ ['/', '>', '='], d.toNat < 0x61 := by decide
  by_contra hend
  have hmem : c ∈ ['/', '>', '='] := by
    simpa [StartTag.isAttributePart, StartTag.isAttributeStart, h.2, or_assoc, imp_iff_not_or] using hend
  exact absurd h.1 (Nat.not_le_of_lt (hearly c hmem))

theorem forall_ascii {p : Char → Prop} (h : ∀ n < 0x80, p (Char.ofNat n)) {c : Char}
    (hc : c.toNat < 0x80) : p c :=
  Char.ofNat_toNat c ▸ h c.toNat hc

theorem toLower_of_not_ascii {c : Char} (h : ¬ c.toNat < 0x80) : c.toLower = c := by
  refine dif_neg fun hcapital => h ?_
  exact Nat.lt_of_le_of_lt (m := 0x5A) hcapital.2 (by decide)

/-- A letter is a letter in lower case. -/
theorem lowerAfter_letter {c : Char} (h : c.isAlpha = true) (before s : List Char) :
    ∃ d, d.isAlpha = true ∧ lowerAfter before (c :: s) = d :: lowerAfter (c :: before) s := by
  have hrange := toNat_of_isAlpha h
  have hletters : ∀ n < 0x80, (0x41 ≤ n ∧ n ≤ 0x5A) ∨ (0x61 ≤ n ∧ n ≤ 0x7A) →
      (Char.ofNat (lowerCode n)).isAlpha = true := by decide
  refine ⟨Char.ofNat (lowerCode c.toNat), hletters _ (by omega) hrange, ?_⟩
  rw [lowerAfter, if_neg (by omega), if_neg (by omega)]
  rfl

/-- A name that is read lasts in lower case. -/
theorem lastingName_lower {c : Char} {s : List Char} (hc : c.isAlpha = true)
    (h : ∀ d ∈ c :: s, StartTag.isTagNameChar d = true) : LastingName (lower (c :: s)) where
  letter := by
    obtain ⟨d, hd, heq⟩ := lowerAfter_letter hc [] s
    exact ⟨d, _, heq, hd⟩
  unbroken := forall_lower (fun _ => isTagNameChar_of_isLate) h
  lower := lower_lower _

/-- The name of an attribute that is read lasts in lower case. -/
theorem lastingKey_lower {c : Char} {s : List Char} (hc : StartTag.isAttributeStart c = true)
    (hs : ∀ d ∈ s, StartTag.isAttributePart d = true) : LastingKey (lower (c :: s)) where
  unbroken := by
    have hrest : ∀ d ∈ lowerAfter [c] s, StartTag.isAttributePart d = true := by
      intro d hd
      obtain ⟨e, he, hlowers⟩ := exists_lowers_of_mem hd
      rcases hlowers.kept with rfl | hlate
      · exact hs _ he
      · exact isAttributePart_of_isLate hlate
    by_cases hsign : c = '='
    · subst hsign
      exact ⟨'=', _, rfl, hc, hrest⟩
    · have hpart : StartTag.isAttributePart c = true := by
        rw [StartTag.isAttributePart, hc, Bool.true_and, bne_iff_ne]
        exact hsign
      obtain ⟨here, hne, hhere, heq⟩ := exists_lowerAfter_cons [] c s
      have hparts : ∀ d ∈ here, StartTag.isAttributePart d = true := by
        intro d hd
        rcases (hhere d hd).kept with rfl | hlate
        · exact hpart
        · exact isAttributePart_of_isLate hlate
      obtain ⟨d, more, rfl⟩ := List.exists_cons_of_ne_nil hne
      obtain ⟨hd, hmore⟩ := List.forall_mem_cons.1 hparts
      refine ⟨d, more ++ lowerAfter [c] s, heq, ?_, List.forall_mem_append.2 ⟨hmore, hrest⟩⟩
      rw [StartTag.isAttributePart, Bool.and_eq_true] at hd
      exact hd.1
  lower := lower_lower _

theorem lastingKey_of_isPlainName {key : List Char} (h : isPlainName key) : LastingKey key where
  unbroken := by
    obtain ⟨c, s, rfl, -, hunbroken⟩ := exists_letter_of_isPlainName h
    exact ⟨c, s, rfl, hunbroken.isAttributeStart, hunbroken.isAttributePart⟩
  lower := lower_of_isPlainName h

/-! ## Tags that are read -/

namespace StartTag

theorem lastingKey_readAttribute {c : Char} (hc : isAttributeStart c = true) (s : List Char) :
    LastingKey (readAttribute c s).name := by
  have hname : (readAttribute c s).name = lower (c :: s.takeWhile isAttributePart) := by
    unfold readAttribute
    dsimp only
    split
    · rfl
    · rfl
  rw [hname]
  exact lastingKey_lower hc fun d hd => List.mem_takeWhile_imp hd

/-- The names of attributes that are read last. -/
theorem lastingKey_attributes (boundary : Bool) (s : List Char) :
    ∀ key ∈ (attributes boundary s).1.map (·.1), LastingKey key := by
  fun_induction attributes boundary s with
  | case1 => exact fun key h => absurd h List.not_mem_nil
  | case2 boundary c s hstart first more ih =>
    have hc : isAttributeStart c = true := (Bool.and_eq_true_iff.1 hstart).2
    exact List.forall_mem_cons.2 ⟨lastingKey_readAttribute hc s, ih⟩
  | case3 => exact fun key h => absurd h List.not_mem_nil

/-- What starts with a letter is read as a tag that lasts, or as text. -/
theorem lastingTag_of_read {c : Char} {s rest : List Char} {token : Token} (hc : c.isAlpha = true)
    (h : read (c :: s) = .found token rest) :
    (∃ text, token = .text text) ∨
      ∃ name attributes closed, token = .startTag name attributes closed ∧
        LastingTag name attributes := by
  have hfirst : isTagNameChar c = true := by
    have hrange := toNat_of_isAlpha hc
    have hends : ∀ d ∈ tagNameEnds, ¬ ((0x41 ≤ d.toNat ∧ d.toNat ≤ 0x5A) ∨
        (0x61 ≤ d.toNat ∧ d.toNat ≤ 0x7A)) := by decide
    by_contra hend
    exact hends c (mem_tagNameEnds (eq_false_of_ne_true hend)) hrange
  have hname : LastingName (lower ((c :: s).takeWhile isTagNameChar)) := by
    have hall : ∀ d ∈ (c :: s).takeWhile isTagNameChar, isTagNameChar d = true := fun d hd =>
      List.mem_takeWhile_imp hd
    rw [List.takeWhile_cons_of_pos hfirst] at hall ⊢
    exact lastingName_lower hc hall
  have htag (boundary : Bool) (start : List Char) :
      LastingTag (lower ((c :: s).takeWhile isTagNameChar))
        (Attributes.ofList (attributes boundary start).1) := by
    refine ⟨hname, fun key hkey => ?_, Attributes.nodup_ofList _⟩
    obtain ⟨a, ha, rfl⟩ := List.mem_map.1 hkey
    exact lastingKey_attributes boundary start _ (List.mem_map_of_mem (Attributes.mem_ofList ha))
  unfold read at h
  dsimp only at h
  split at h
  · cases h
    exact .inr ⟨_, _, _, rfl, htag _ _⟩
  · cases h
    exact .inr ⟨_, _, _, rfl, htag _ _⟩
  · cases h
  · split at h
    · cases h
    · cases h
      exact .inl ⟨_, rfl⟩

end StartTag

/-! ## Tags of elements -/

theorem keys_metaAttributes (attributes : Attributes) :
    (metaAttributes attributes).map (·.1) = attributes.map (·.1) := by
  unfold metaAttributes
  split
  · next h => exact Attributes.keys_put_of_mem (Attributes.isSome_get?_iff.1 (h ▸ rfl)) _
  · split
    · next h _ =>
      split
      · exact Attributes.keys_put_of_mem (Attributes.isSome_get?_iff.1 (h ▸ rfl)) _
      · rfl
    · rfl

/-- An element has attributes of the names that its start tag has. -/
theorem keys_elementAttributes (name : List Char) (attributes : Attributes) :
    (elementAttributes name attributes).map (·.1) = attributes.map (·.1) := by
  rw [elementAttributes, spaceWords, List.map_map]
  split
  · exact keys_metaAttributes attributes
  · rfl

/-- A tag lasts whatever the values of its attributes. -/
theorem LastingTag.of_keys {name : List Char} {attributes others : Attributes}
    (h : LastingTag name attributes) (hkeys : others.map (·.1) = attributes.map (·.1)) :
    LastingTag name others where
  name := h.name
  keys := hkeys ▸ h.keys
  distinct := hkeys ▸ h.distinct

theorem LastingTag.put {name key : List Char} {attributes : Attributes} (h : LastingTag name attributes)
    (hkey : LastingKey key) (value : List Char) : LastingTag name (attributes.put key value) where
  name := h.name
  keys := by
    intro other hother
    obtain ⟨a, ha, rfl⟩ := List.mem_map.1 hother
    rcases Attributes.mem_put ha with rfl | ha
    · exact hkey
    · exact h.keys _ (List.mem_map_of_mem ha)
  distinct := Attributes.nodup_put value h.distinct

/-! ## Reading printed tags -/

namespace StartTag

/-- Printed attributes are read, up to the end of the tag. -/
theorem attributes_flatMap {entries : Attributes} (hkeys : ∀ key ∈ entries.map (·.1), LastingKey key)
    (closed : Bool) (rest : List Char) :
    ∃ c t, entries.flatMap (fun a => writeAttribute a.1 a.2) ++ (closing closed ++ rest) = c :: t ∧
      isTagNameChar c = false ∧
      ((skipSeparators (c :: t)).length < (c :: t).length ∨ c :: t = closing closed ++ rest) ∧
      attributes true (skipSeparators (c :: t)) = (entries, closing closed ++ rest) := by
  induction entries with
  | nil =>
    have hends := attributes_closing true closed rest
    rw [← skipSeparators_closing] at hends
    cases closed with
    | true => exact ⟨'/', _, rfl, by decide, .inr rfl, hends⟩
    | false => exact ⟨'>', _, rfl, by decide, .inr rfl, hends⟩
  | cons entry entries ih =>
    obtain ⟨key, value⟩ := entry
    obtain ⟨⟨⟨d, s, rfl, hd, hs⟩, hlower⟩, hmore⟩ := List.forall_mem_cons.1 hkeys
    obtain ⟨c, t, hct, -, -, hread⟩ := ih hmore
    obtain ⟨quote, inside, hquoted, hquote, hinside, hdecode⟩ := exists_quotedValue value
    have hspace : isBlank ' ' = true := by decide
    have htext : ((d :: s, value) :: entries).flatMap (fun a => writeAttribute a.1 a.2) ++
        (closing closed ++ rest) = ' ' :: (d :: s ++ '=' :: quote :: (inside ++ quote :: (c :: t))) := by
      simp [writeAttribute, hquoted, ← hct]
    have hskip : skipSeparators (' ' :: (d :: s ++ '=' :: quote :: (inside ++ quote :: (c :: t)))) =
        d :: s ++ '=' :: quote :: (inside ++ quote :: (c :: t)) := by
      rw [skipSeparators, hspace, Bool.true_or, if_pos rfl]
      exact skipSeparators_cons hd _
    have hvalue := value?_quoted hquote hinside (c :: t)
    have hall := attributes_of_value hd hs hvalue hread
    rw [hlower, hdecode] at hall
    refine ⟨' ', _, htext, by decide, .inl ?_, (congrArg (attributes true) hskip).trans hall⟩
    rw [hskip]
    exact Nat.lt_succ_self _

end StartTag

/-- A printed start tag is read as the same tag with sorted attributes. -/
theorem LastingTag.readAs {name : List Char} {attributes : Attributes} (h : LastingTag name attributes)
    (closed : Bool) :
    ReadAs ('<' :: (name ++ (writeAttributes attributes ++ StartTag.closing closed)))
      (.startTag name (sortAttributes attributes) closed) := by
  have hperm := perm_sortAttributes attributes
  have hkeys : ∀ key ∈ (sortAttributes attributes).map (·.1), LastingKey key := fun key hkey =>
    h.keys key ((hperm.map _).mem_iff.1 hkey)
  have hdistinct : ((sortAttributes attributes).map (·.1)).Nodup := (hperm.map _).nodup_iff.2 h.distinct
  obtain ⟨⟨c, s, hname, hc⟩, hunbroken, hlower⟩ := h.name
  have hread (rest : List Char) : StartTag.read (name ++ (writeAttributes attributes ++
      (StartTag.closing closed ++ rest))) = .found (.startTag name (sortAttributes attributes) closed)
        rest := by
    obtain ⟨d, t, htext, hend, hnext, hattributes⟩ := StartTag.attributes_flatMap hkeys closed rest
    have hfound := StartTag.read_of_attributes hunbroken hend hnext hattributes
    rw [hlower, Attributes.ofList_of_nodup hdistinct, ← htext] at hfound
    exact hfound
  subst hname
  refine @readAs_of_read c (s ++ (writeAttributes attributes ++ StartTag.closing closed)) _ fun rest => ?_
  rw [read_of_isAlpha hc, List.append_assoc, List.append_assoc]
  exact hread rest

/-- A printed end tag is read as an end tag, if not always as one of the same name. -/
theorem LastingName.readAs {name : List Char} (h : LastingName name) :
    ∃ other, ReadAs ("</".toList ++ name ++ ['>']) (.endTag other) := by
  obtain ⟨⟨c, s, rfl, hc⟩, hunbroken, -⟩ := h
  have hread := readAs_ending fun hmem => absurd (hunbroken '>' hmem) (by decide)
  have htoken : ∃ other, Markup.endTagOf (c :: s) = .endTag other := by
    unfold Markup.endTagOf
    dsimp only
    split
    · exact ⟨_, rfl⟩
    · exact ⟨_, rfl⟩
  obtain ⟨other, heq⟩ := htoken
  exact ⟨other, heq ▸ hread⟩

end Assessment.Html
