import Assessment.Markup.Entity
import Assessment.Markup.Escape
import Assessment.Proofs.Text.Scan

/-!
# Proofs: escaping

Escaped text holds no bracket and no quote. Its references are those of the escaped characters
(`pieces_escape_append`), so decoding gives back what was escaped, whatever follows
(`escaped_texts_are_decoded`).
-/

namespace Assessment.Markup

open Assessment.Text

/-! ## The characters of escaped text -/

/-- The characters of the five references. -/
def referenceChars : List Char := "&;#27abdegijlmnopqrstuvwxyz".toList

/-- A character of an escaped character belongs to a reference, or it is that character, which then
means nothing in markup. -/
theorem mem_escapeChar {c d : Char} (h : c ∈ escapeChar d) : c ∈ referenceChars ∨
    c = d ∧ d ≠ '&' ∧ d ≠ '<' ∧ d ≠ '>' ∧ d ≠ '\x22' ∧ d ≠ '\x27' := by
  unfold escapeChar at h
  split at h
  · exact .inl ((by decide : ∀ c ∈ "&amp;".toList, c ∈ referenceChars) c h)
  split at h
  · exact .inl ((by decide : ∀ c ∈ "&lt;".toList, c ∈ referenceChars) c h)
  split at h
  · exact .inl ((by decide : ∀ c ∈ "&gt;".toList, c ∈ referenceChars) c h)
  split at h
  · exact .inl ((by decide : ∀ c ∈ "&quot;".toList, c ∈ referenceChars) c h)
  split at h
  · exact .inl ((by decide : ∀ c ∈ "&#x27;".toList, c ∈ referenceChars) c h)
  · next h1 h2 h3 h4 h5 => exact .inr ⟨List.mem_singleton.1 h, h1, h2, h3, h4, h5⟩

/-- Escaped text holds no bracket and no quote. -/
theorem ne_of_mem_escape {c : Char} {s : List Char} (h : c ∈ escape s) :
    c ≠ '<' ∧ c ≠ '>' ∧ c ≠ '\x22' ∧ c ≠ '\x27' := by
  obtain ⟨d, -, hcd⟩ := List.mem_flatMap.1 h
  rcases mem_escapeChar hcd with hr | ⟨rfl, -, h1, h2, h3, h4⟩
  · refine ⟨?_, ?_, ?_, ?_⟩ <;> rintro rfl <;> exact absurd hr (by decide)
  · exact ⟨h1, h2, h3, h4⟩

theorem quote_not_mem_escape (s : List Char) : '\x22' ∉ escape s := fun h =>
  (ne_of_mem_escape h).2.2.1 rfl

/-! ## Decoding -/

namespace Entity

/-- A name is looked up among the names with its first letter. -/
theorem ofName?_toList {s : String} {c : Char} {t : List Char} (h : s.toList = c :: t) :
    ofName? s.toList = ((namesFrom c).find? fun entry => entry.name == s).map Entry.text := by
  have hname : (fun entry : Entry => entry.name.toList == s.toList) =
      fun entry => entry.name == s := by
    funext entry
    rw [Bool.eq_iff_iff, beq_iff_eq, beq_iff_eq, String.toList_inj]
  rw [← hname, h]
  rfl

theorem ofName?_amp : ofName? "amp".toList = some ['&'] :=
  (ofName?_toList rfl).trans (by decide +kernel)

theorem ofName?_lt : ofName? "lt".toList = some ['<'] :=
  (ofName?_toList rfl).trans (by decide +kernel)

theorem ofName?_gt : ofName? "gt".toList = some ['>'] :=
  (ofName?_toList rfl).trans (by decide +kernel)

theorem ofName?_quot : ofName? "quot".toList = some ['\x22'] :=
  (ofName?_toList rfl).trans (by decide +kernel)

theorem text_name {name text : List Char} (h : ofName? name = some text) :
    (Reference.name name true).text = text := by
  simp only [Reference.text, h]

/-- No reference starts at a character other than an ampersand. -/
theorem reference?_cons {c : Char} (h : c ≠ '&') (s : List Char) : reference? (c :: s) = none := by
  unfold reference?
  split <;> first | rfl | (next heq => simp only [List.cons.injEq] at heq; exact absurd heq.1 h)

/-- A character other than an ampersand stands for itself. -/
theorem decode_cons {c : Char} (h : c ≠ '&') (s : List Char) : decode (c :: s) = c :: decode s := by
  have hrun : reference.run (c :: s) = none := reference?_cons h s
  simp [decode, Recognizer.replace, reference.pieces_of_not_run hrun]

@[simp] theorem decode_nil : decode [] = [] := by
  simp [decode, Recognizer.replace]

/-! ## The references of escaped text -/

/-- The reference that a character is escaped as, if it is not left as it is. -/
def escapeReference? (c : Char) : Option Reference :=
  if c = '&' then some (.name "amp".toList true)
  else if c = '<' then some (.name "lt".toList true)
  else if c = '>' then some (.name "gt".toList true)
  else if c = '\x22' then some (.name "quot".toList true)
  else if c = '\x27' then some (.number 0x27)
  else none

/-- The piece of a text that a character is escaped as. -/
def escapedPiece (c : Char) : Piece Reference :=
  match escapeReference? c with
  | some found => .found found
  | none => .char c

theorem found?_escapedPiece (c : Char) : (escapedPiece c).found? = escapeReference? c := by
  unfold escapedPiece
  cases escapeReference? c <;> rfl

/-- A character is escaped as a reference that stands for it, and whose semicolon ends it whatever
follows, or it is left as it is and begins no reference. -/
theorem escapeChar_cases (c : Char) :
    (∃ found, escapeReference? c = some found ∧ found.text = [c] ∧
        ∀ s, reference? (escapeChar c ++ s) = some (found, s)) ∨
      escapeReference? c = none ∧ escapeChar c = [c] ∧ c ≠ '&' := by
  by_cases hamp : c = '&'
  · subst hamp
    exact .inl ⟨_, rfl, text_name ofName?_amp, fun _ => rfl⟩
  by_cases hlt : c = '<'
  · subst hlt
    exact .inl ⟨_, rfl, text_name ofName?_lt, fun _ => rfl⟩
  by_cases hgt : c = '>'
  · subst hgt
    exact .inl ⟨_, rfl, text_name ofName?_gt, fun _ => rfl⟩
  by_cases hquote : c = '\x22'
  · subst hquote
    exact .inl ⟨_, rfl, text_name ofName?_quot, fun _ => rfl⟩
  by_cases happ : c = '\x27'
  · subst happ
    exact .inl ⟨_, rfl, rfl, fun _ => rfl⟩
  · refine .inr ⟨?_, ?_, hamp⟩
    · rw [escapeReference?, if_neg hamp, if_neg hlt, if_neg hgt, if_neg hquote, if_neg happ]
    · rw [escapeChar, if_neg hamp, if_neg hlt, if_neg hgt, if_neg hquote, if_neg happ]

/-- An escaped character is one piece of a text, whatever follows. -/
theorem pieces_escapeChar_append (c : Char) (s : List Char) :
    reference.pieces (escapeChar c ++ s) = escapedPiece c :: reference.pieces s := by
  rcases escapeChar_cases c with ⟨found, hfound, -, hread⟩ | ⟨hnone, hplain, hamp⟩
  · rw [reference.pieces_of_run (hread s), escapedPiece, hfound]
  · rw [hplain, escapedPiece, hnone]
    exact reference.pieces_of_not_run (reference?_cons hamp s)

/-- The references in escaped text are those of its characters: none of them goes on in what follows,
and none begins anywhere else. -/
theorem pieces_escape_append (s t : List Char) :
    reference.pieces (escape s ++ t) = s.map escapedPiece ++ reference.pieces t := by
  induction s with
  | nil => rfl
  | cons c s ih =>
    rw [escape_cons, List.append_assoc, pieces_escapeChar_append, ih, List.map_cons, List.cons_append]

/-- An escaped character is decoded to itself, whatever follows. -/
theorem decode_escapeChar_append (c : Char) (s : List Char) :
    decode (escapeChar c ++ s) = c :: decode s := by
  unfold decode Recognizer.replace
  rw [pieces_escapeChar_append, List.flatMap_cons, escapedPiece]
  rcases escapeChar_cases c with ⟨found, hfound, htext, -⟩ | ⟨hnone, -, -⟩
  · rw [hfound]
    exact congrArg (· ++ _) htext
  · rw [hnone]
    rfl

/-- Decoding undoes escaping, whatever follows. -/
theorem decode_escape_append (s t : List Char) : decode (escape s ++ t) = s ++ decode t := by
  induction s with
  | nil => rfl
  | cons c s ih => rw [escape_cons, List.append_assoc, decode_escapeChar_append, ih, List.cons_append]

theorem decode_escape (s : List Char) : decode (escape s) = s := by
  simpa using decode_escape_append s []

/-- Decoding undoes escaping, of a text and of texts that were escaped one by one and joined: in what is
decoded there are the references of the five characters that mean something, in their places, and no
others. What the texts say does not matter, be it a reference itself or the half of one that goes on in
the next text. -/
theorem escaped_texts_are_decoded (s t : List Char) :
    decode (escape s) = s ∧ decode (escape s ++ escape t) = s ++ t ∧
      reference.findAll (escape s ++ escape t) = (s ++ t).filterMap escapeReference? := by
  have hpieces : reference.pieces (escape s ++ escape t) = (s ++ t).map escapedPiece := by
    have hlast : reference.pieces (escape t) = t.map escapedPiece := by
      simpa using pieces_escape_append t []
    rw [pieces_escape_append, hlast, List.map_append]
  refine ⟨decode_escape s, ?_, ?_⟩
  · rw [decode_escape_append, decode_escape]
  · rw [Recognizer.findAll_eq, hpieces, List.filterMap_map]
    exact congrArg (List.filterMap · (s ++ t)) (funext found?_escapedPiece)

end Entity

end Assessment.Markup
