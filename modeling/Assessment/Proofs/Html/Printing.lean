import Assessment.Html.Document
import Assessment.Proofs.Html.Building
import Assessment.Proofs.Markup.Displayed
import Assessment.Proofs.Text.Split

/-!
# Proofs: printing and reading again

Whatever quotes a value is printed in, it is read again (`exists_quotedValue`). Printed nodes are read
as the same nodes, with their attributes in the order in which they are printed
(`parse_serialize`).
-/

namespace Assessment.Html

open Assessment.Markup Assessment.Text

/-! ## Printed text -/

/-- Decoding undoes what was written character by character. -/
theorem decode_flatMap {f : Char → List Char}
    (hf : ∀ c s, Entity.decode (f c ++ s) = c :: Entity.decode s) (s : List Char) :
    Entity.decode (s.flatMap f) = s := by
  induction s with
  | nil => exact Entity.decode_nil
  | cons c s ih => rw [List.flatMap_cons, hf, ih]

theorem decode_escapeTextChar_append (c : Char) (s : List Char) :
    Entity.decode (escapeTextChar c ++ s) = c :: Entity.decode s := by
  by_cases hquote : c = '\x22' ∨ c = '\x27'
  · rcases hquote with rfl | rfl
    · exact Entity.decode_cons (by decide) s
    · exact Entity.decode_cons (by decide) s
  · have heq : escapeTextChar c = escapeChar c := by
      rw [not_or] at hquote
      rw [escapeTextChar, escapeChar, if_neg hquote.1, if_neg hquote.2]
    rw [heq, Entity.decode_escapeChar_append]

theorem decode_escapeText (s : List Char) : Entity.decode (escapeText s) = s :=
  decode_flatMap decode_escapeTextChar_append s

theorem unbracketed_escapeText (s : List Char) : Unbracketed (escapeText s) := by
  intro c hc
  obtain ⟨d, -, hcd⟩ := List.mem_flatMap.1 hc
  unfold escapeTextChar at hcd
  split at hcd
  · exact (by decide : Unbracketed "&amp;".toList) c hcd
  split at hcd
  · exact (by decide : Unbracketed "&lt;".toList) c hcd
  split at hcd
  · exact (by decide : Unbracketed "&gt;".toList) c hcd
  · next hlt hgt =>
    rw [List.mem_singleton.1 hcd]
    exact ⟨hlt, hgt⟩

/-- A character is written as escaping or as printing writes it. -/
def Written (c : Char) (written : List Char) : Prop := Escaped c written ∨ written = escapeTextChar c

theorem writing_written : Writing Written where
  unbracketed := by
    rintro c written (h | rfl)
    · exact writing_escaped.unbracketed h
    · simpa [escapeText] using unbracketed_escapeText [c]
  decode_append := by
    rintro c written (h | rfl)
    · exact writing_escaped.decode_append h
    · exact decode_escapeTextChar_append c

/-! ## Values in quotes -/

/-- A character of a value with its double quotes escaped. -/
def escapeQuotedChar (c : Char) : List Char := replaceChar '\x22' "&quot;".toList (escapeTextChar c)

theorem replaceChar_escapeText (s : List Char) :
    replaceChar '\x22' "&quot;".toList (escapeText s) = s.flatMap escapeQuotedChar := by
  rw [replaceChar, escapeText, List.flatMap_assoc]
  rfl

theorem decode_escapeQuotedChar_append (c : Char) (s : List Char) :
    Entity.decode (escapeQuotedChar c ++ s) = c :: Entity.decode s := by
  by_cases hquote : c = '\x27'
  · subst hquote
    exact Entity.decode_cons (by decide) s
  · have heq : escapeQuotedChar c = escapeChar c := by
      unfold escapeQuotedChar escapeTextChar escapeChar
      split
      · decide
      split
      · decide
      split
      · decide
      split
      · next h => subst h; decide
      · next h =>
        rw [replaceChar, List.flatMap_singleton, if_neg h]
    rw [heq, Entity.decode_escapeChar_append]

/-- A value is printed in quotes that it does not hold then, and is read again. -/
theorem exists_quotedValue (value : List Char) :
    ∃ quote inside, quotedValue (escapeText value) = quote :: (inside ++ [quote]) ∧
      StartTag.isQuote quote ∧ quote ∉ inside ∧ Entity.decode inside = value := by
  unfold quotedValue
  split
  · split
    · refine ⟨'\x22', _, rfl, rfl, not_mem_replaceChar (by decide) _, ?_⟩
      rw [replaceChar_escapeText]
      exact decode_flatMap decode_escapeQuotedChar_append value
    · next h => exact ⟨'\x27', _, rfl, rfl, by simpa using h, decode_escapeText value⟩
  · next h => exact ⟨'\x22', _, rfl, rfl, by simpa using h, decode_escapeText value⟩

/-- Printed attributes spell what they are. -/
theorem spells_flatMap {attributes : Attributes} (h : ∀ a ∈ attributes, isPlainName a.1) :
    StartTag.Spells (attributes.flatMap fun a => writeAttribute a.1 a.2) attributes := by
  induction attributes with
  | nil => exact .nil
  | cons a attributes ih =>
    obtain ⟨name, value⟩ := a
    obtain ⟨quote, inside, hvalue, hquote, hinside, hdecode⟩ := exists_quotedValue value
    have hspells := StartTag.Spells.quoted (h (name, value) (by simp)) hquote hinside
      (ih fun b hb => h b (by simp [hb]))
    rw [hdecode] at hspells
    simpa [writeAttribute, hvalue] using hspells

/-! ## Sorted attributes -/

/-- The nodes with their attributes in the order in which they are printed. -/
def sorted (nodes : List Node) : List Node :=
  (Node.updateAll (fun _ _ attributes => (sortAttributes attributes, ())) () nodes).1

theorem perm_sortAttributes (attributes : Attributes) :
    (sortAttributes attributes).Perm attributes :=
  List.mergeSort_perm _ _

/-- Tags are regular whatever the order of their attributes. -/
theorem RegularTag.of_perm {name : List Char} {attributes others : Attributes}
    (h : RegularTag name attributes) (hperm : attributes.Perm others) : RegularTag name others where
  name_plain := h.name_plain
  not_raw := h.not_raw
  not_body := h.not_body
  not_meta := h.not_meta
  distinct := (hperm.map _).nodup_iff.1 h.distinct
  plain a ha := h.plain a (hperm.mem_iff.2 ha)
  words_spaced a ha := h.words_spaced a (hperm.mem_iff.2 ha)

theorem RegularTag.sortAttributes {name : List Char} {attributes : Attributes}
    (h : RegularTag name attributes) : RegularTag name (sortAttributes attributes) :=
  h.of_perm (perm_sortAttributes attributes).symm

/-! ## Printed nodes -/

open Node

mutual

theorem lexes_write : ∀ {node : Node}, Regular node →
    Lexes (write false node)
      (tokens (update (fun (_ : Unit) _ attributes => (sortAttributes attributes, ())) () node).1)
  | .text s, _ => by
    rw [write, update, tokens]
    exact lexes_escapeText s
  | .element name attributes children, h => by
    obtain ⟨htag, hvoid, hchildren⟩ := h
    have hsorted := htag.sortAttributes
    have hspells : StartTag.Spells (writeAttributes attributes) (sortAttributes attributes) :=
      spells_flatMap hsorted.plain
    have hstart := fun {ending closed} => @lexes_startTag name _ ending _ closed
      htag.name_plain htag.not_raw hspells
    rw [Attributes.ofList_of_nodup hsorted.distinct] at hstart
    rw [write, update, tokens]
    split
    · next hv =>
      rw [if_pos (by simp at hv; exact hv.1)]
      simpa using hstart .slash
    · next hv =>
      have hnot : ¬ isVoid name = true := fun hname => hv (by simp [hname, hvoid hname])
      have hinside := lexes_writeAll hchildren
      have hend := lexes_endTag htag.name_plain
      rw [if_neg hnot, htag.not_raw]
      simpa [sorted] using ((hstart .bracket).append hinside).append hend

/-- Printed nodes have the tokens of the nodes with sorted attributes. -/
theorem lexes_writeAll : ∀ {nodes : List Node}, RegularAll nodes →
    Lexes (writeAll false nodes) (tokensOf (sorted nodes))
  | [], _ => .nil
  | node :: nodes, h => by
    have hnode := lexes_write h.1
    have hnodes := lexes_writeAll h.2
    rw [writeAll]
    exact hnode.append hnodes

end

mutual

theorem firstNamed?_body : ∀ {node : Node}, Regular node → firstNamed? "body".toList node = none
  | .text _, _ => by
    rw [firstNamed?]
    simp
  | .element name attributes children, h => by
    rw [firstNamed?, if_neg h.1.not_body, firstNamedOf?_body h.2.2]

/-- Regular nodes have no body. -/
theorem firstNamedOf?_body : ∀ {nodes : List Node}, RegularAll nodes →
    firstNamedOf? "body".toList nodes = none
  | [], _ => by rw [firstNamedOf?]
  | node :: nodes, h => by
    rw [firstNamedOf?, firstNamed?_body h.1, firstNamedOf?_body h.2]
    rfl

end

section Updating

variable {σ : Type} {f : σ → List Char → Attributes → Attributes × σ}

mutual

theorem regular_update
    (hf : ∀ known name attributes, RegularTag name attributes →
      RegularTag name (f known name attributes).1) (known : σ) :
    ∀ {node : Node}, Regular node → Regular (update f known node).1
  | .text _, _ => by
    rw [update]
    trivial
  | .element name attributes children, h => by
    rw [update]
    refine ⟨hf known name attributes h.1, fun hv => ?_, regularAll_updateAll hf _ h.2.2⟩
    rw [h.2.1 hv, updateAll]

/-- Changing attributes keeps nodes regular if it keeps tags regular. -/
theorem regularAll_updateAll
    (hf : ∀ known name attributes, RegularTag name attributes →
      RegularTag name (f known name attributes).1) (known : σ) :
    ∀ {nodes : List Node}, RegularAll nodes → RegularAll (updateAll f known nodes).1
  | [], _ => by
    rw [updateAll]
    trivial
  | node :: nodes, h => by
    rw [updateAll]
    exact ⟨regular_update hf known h.1, regularAll_updateAll hf _ h.2⟩

end

/-- Changing attributes leaves nothing to join where nothing was. -/
theorem tight_updateAll {keep afterText : Bool} (known : σ) : ∀ {nodes : List Node},
    Tight keep afterText nodes → Tight keep afterText (updateAll f known nodes).1
  | [], _ => by
    rw [updateAll, Tight]
    trivial
  | .text s :: nodes, h => by
    rw [Tight] at h
    rw [updateAll, update, Tight]
    exact ⟨h.1, h.2.1, h.2.2.1, tight_updateAll _ h.2.2.2⟩
  | .special kind s :: nodes, h => by
    rw [Tight] at h
    rw [updateAll, update, Tight]
    exact ⟨h.1, tight_updateAll _ h.2⟩
  | .element name attributes children :: nodes, h => by
    rw [Tight] at h
    rw [updateAll, update, Tight]
    exact ⟨tight_updateAll _ h.1, tight_updateAll _ h.2⟩

end Updating

theorem regularAll_sorted {nodes : List Node} (h : RegularAll nodes) : RegularAll (sorted nodes) :=
  regularAll_updateAll (fun _ _ _ htag => htag.sortAttributes) () h

/-- Printed nodes in which nothing is left to join are read as the same nodes with sorted
attributes. -/
theorem parse_serialize {nodes : List Node} (h : RegularAll nodes) (htight : Tight false false nodes) :
    parse (serialize nodes) = some (sorted nodes) := by
  have hjoined : joined false [] (sorted nodes) = sorted nodes :=
    joined_nil_of_tight (tight_updateAll () htight)
  rw [serialize, firstNamedOf?_body h, parse_of_lexes (lexes_writeAll h),
    ofTokens_tokensOf (regularAll_sorted h), hjoined]

/-- Every known way to read HTML reads what can be parsed. -/
theorem read_of_parse {builder html : List Char} {nodes : List Node} (hbuilder : builder ∈ builderNames)
    (h : parse html = some nodes) : read builder html = .ok nodes := by
  rw [read, if_pos (List.contains_iff_mem.2 hbuilder), h]

end Assessment.Html
