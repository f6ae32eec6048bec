import Assessment.Proofs.Markup.Shown
import Assessment.Proofs.Markup.Tree
import Assessment.Proofs.Text.Blank
import Assessment.Text.Inline

/-!
# Proofs: well-nested markup

`WellNested` is the grammar of markup in which every tag is one of a vocabulary and start tags and end
tags match, with escaped text between them. Trimming the white space at an edge stays in the grammar
(`WellNested.dropBlanks`, `WellNested.trimEnd`): tags begin and end with brackets, and the references
in escaped text hold no white space.
-/

namespace Assessment.Markup

open Assessment.Text

/-! ## Escaped text -/

/-- The references that stand for the five characters that mean something in markup. -/
def references : List (List Char) :=
  ["&amp;".toList, "&lt;".toList, "&gt;".toList, "&quot;".toList, "&#x27;".toList]

/-- Text in which nothing is markup: it holds no bracket and no quote, and each ampersand begins a
reference. -/
structure EscapedText (s : List Char) : Prop where
  /-- There are no brackets and no quotes. -/
  unmarked : ∀ c ∈ s, c ≠ '<' ∧ c ≠ '>' ∧ c ≠ '\x22' ∧ c ≠ '\x27'
  /-- Where there is an ampersand, there is a reference. -/
  refers : ∀ before after, s = before ++ '&' :: after →
    ∃ reference ∈ references, reference <+: '&' :: after

namespace EscapedText

theorem nil : EscapedText [] where
  unmarked := by
    intro c hc
    cases hc
  refers := by
    intro before after h
    cases before <;> cases h

/-- A reference is escaped text. -/
theorem of_mem_references {reference : List Char} (h : reference ∈ references) :
    EscapedText reference where
  unmarked := (by decide : ∀ reference ∈ references, ∀ c ∈ reference,
    c ≠ '<' ∧ c ≠ '>' ∧ c ≠ '\x22' ∧ c ≠ '\x27') reference h
  refers := by
    intro before after heq
    -- The only ampersand of a reference is its first character.
    have htail : ∀ reference ∈ references, '&' ∉ reference.tail := by decide
    cases before with
    | nil => exact ⟨reference, h, heq ▸ List.prefix_refl _⟩
    | cons c before =>
      refine absurd ?_ (htail reference h)
      rw [heq]
      simp

theorem append {s t : List Char} (hs : EscapedText s) (ht : EscapedText t) :
    EscapedText (s ++ t) where
  unmarked := fun c hc => (List.mem_append.1 hc).elim (hs.unmarked c) (ht.unmarked c)
  refers := by
    intro before after heq
    rcases List.append_eq_append_iff.1 heq with ⟨middle, rfl, hmiddle⟩ | ⟨middle, hmiddle, hrest⟩
    · exact ht.refers middle after hmiddle
    · cases middle with
      | nil => exact ht.refers [] after hrest.symm
      | cons c middle =>
        obtain ⟨rfl, rfl⟩ := List.cons.inj hrest
        obtain ⟨reference, hreference, hprefix⟩ := hs.refers before middle hmiddle
        exact ⟨reference, hreference, hprefix.trans (List.prefix_append _ t)⟩

theorem singleton {c : Char} (hand : c ≠ '&') (hc : c ≠ '<' ∧ c ≠ '>' ∧ c ≠ '\x22' ∧ c ≠ '\x27') :
    EscapedText [c] where
  unmarked := by
    intro d hd
    rw [List.mem_singleton.1 hd]
    exact hc
  refers := by
    intro before after heq
    have hmem : '&' ∈ [c] := by
      rw [heq]
      simp
    exact absurd (List.mem_singleton.1 hmem).symm hand

theorem of_escapeChar (c : Char) : EscapedText (escapeChar c) := by
  unfold escapeChar
  split
  · exact of_mem_references (by decide)
  split
  · exact of_mem_references (by decide)
  split
  · exact of_mem_references (by decide)
  split
  · exact of_mem_references (by decide)
  split
  · exact of_mem_references (by decide)
  · next h1 h2 h3 h4 h5 => exact singleton h1 ⟨h2, h3, h4, h5⟩

/-- Escaping makes escaped text. -/
theorem of_escape (s : List Char) : EscapedText (escape s) := by
  induction s with
  | nil => exact nil
  | cons c s ih =>
    rw [escape_cons]
    exact (of_escapeChar c).append ih

/-- The end of escaped text that begins after white space is escaped text. -/
theorem dropBlanks {s : List Char} (h : EscapedText s) : EscapedText (s.dropWhile isBlank) where
  unmarked := fun c hc => h.unmarked c ((List.dropWhile_sublist _).subset hc)
  refers := by
    intro before after heq
    refine h.refers (s.takeWhile isBlank ++ before) after ?_
    rw [List.append_assoc, ← heq, List.takeWhile_append_dropWhile]

/-- The beginning of escaped text that white space follows is escaped text. -/
theorem trimEnd {s : List Char} (h : EscapedText s) : EscapedText (trimEnd s) where
  unmarked := by
    intro c hc
    obtain ⟨blanks, hs, -⟩ := exists_trimEnd s
    refine h.unmarked c ?_
    rw [hs]
    exact List.mem_append_left _ hc
  refers := by
    intro before after heq
    obtain ⟨blanks, hs, hblanks⟩ := exists_trimEnd s
    rw [heq, List.append_assoc] at hs
    obtain ⟨reference, hreference, hprefix⟩ := h.refers before (after ++ blanks) hs
    refine ⟨reference, hreference, ?_⟩
    have hsolid : ∀ reference ∈ references, ∀ c ∈ reference, isBlank c = false := by decide
    rw [← List.cons_append] at hprefix
    rcases List.prefix_or_prefix_of_prefix hprefix (List.prefix_append _ blanks) with hinside | hover
    · exact hinside
    · -- What reaches into the white space is white space, and there is none in a reference.
      obtain ⟨tail, rfl⟩ := hover
      have htail : tail <+: blanks := (List.prefix_append_right_inj _).1 hprefix
      cases tail with
      | nil => simp
      | cons c tail =>
        have hblank : isBlank c := List.all_eq_true.1 hblanks c (htail.subset (by simp))
        rw [hsolid _ hreference c (by simp)] at hblank
        cases hblank

end EscapedText

/-! ## Attributes -/

/-- The attributes of a tag as they are written. The tag has some of the given ones, in their order,
and no value holds an angle bracket or a double quote. -/
inductive AttributeText : List (List Char) → List Char → Prop where
  | nil : AttributeText [] []
  | absent {name : List Char} {names : List (List Char)} {s : List Char}
      (h : AttributeText names s) : AttributeText (name :: names) s
  | present {name value : List Char} {names : List (List Char)} {s : List Char}
      (hvalue : ∀ c ∈ value, c ≠ '<' ∧ c ≠ '>' ∧ c ≠ '\x22') (h : AttributeText names s) :
      AttributeText (name :: names) (' ' :: name ++ "=\"".toList ++ value ++ '\x22' :: s)

namespace AttributeText

/-- A tag can do without its attributes. -/
theorem none (names : List (List Char)) : AttributeText names [] := by
  induction names with
  | nil => exact .nil
  | cons name names ih => exact .absent ih

theorem unbracketed {names : List (List Char)} {s : List Char} (h : AttributeText names s)
    (hnames : ∀ name ∈ names, Unbracketed name) : Unbracketed s := by
  induction h with
  | nil =>
    intro c hc
    cases hc
  | absent _ ih => exact ih (List.forall_mem_cons.1 hnames).2
  | @present name value names s hvalue _ ih =>
    obtain ⟨hname, hothers⟩ := List.forall_mem_cons.1 hnames
    have hplain : Unbracketed value := fun c hc => ⟨(hvalue c hc).1, (hvalue c hc).2.1⟩
    have hopened := (Unbracketed.cons (by decide) (by decide) hname : Unbracketed (' ' :: name)).append
      (by decide : Unbracketed "=\"".toList)
    exact (hopened.append hplain).append (.cons (by decide) (by decide) (ih hothers))

end AttributeText

/-! ## The grammar -/

/-- The tags that markup is made of. -/
structure Vocabulary where
  /-- The names of the elements, each with the names of its attributes. -/
  elements : List (List Char × List (List Char))
  /-- What stands by itself, without an end tag. -/
  IsVoid : List Char → Prop
  /-- Each of these is one tag. -/
  isTag_of_isVoid : ∀ {tag : List Char}, IsVoid tag → IsTag tag

/-- Markup made of escaped text, void tags and elements, with each start tag matched by an end tag. -/
inductive WellNested (V : Vocabulary) : List Char → Prop where
  | nil : WellNested V []
  | text {s html : List Char} (hs : EscapedText s) (h : WellNested V html) : WellNested V (s ++ html)
  | void {tag html : List Char} (htag : V.IsVoid tag) (h : WellNested V html) :
      WellNested V (tag ++ html)
  | element {name attributes inside html : List Char} {names : List (List Char)}
      (hname : (name, names) ∈ V.elements) (hattributes : AttributeText names attributes)
      (hinside : WellNested V inside) (h : WellNested V html) :
      WellNested V ('<' :: name ++ attributes ++ '>' :: inside ++ "</".toList ++ name ++ ['>'] ++ html)

namespace WellNested

variable {V : Vocabulary}

theorem append {html more : List Char} (h : WellNested V html) (hmore : WellNested V more) :
    WellNested V (html ++ more) := by
  induction h with
  | nil => exact hmore
  | text hs _ ih =>
    rw [List.append_assoc]
    exact .text hs ih
  | void htag _ ih =>
    rw [List.append_assoc]
    exact .void htag ih
  | element hname hattributes hinside _ _ ih =>
    rw [List.append_assoc]
    exact .element hname hattributes hinside ih

theorem of_text {s : List Char} (h : EscapedText s) : WellNested V s := by
  simpa using WellNested.text h .nil

theorem of_isVoid {tag : List Char} (h : V.IsVoid tag) : WellNested V tag := by
  simpa using WellNested.void h .nil

theorem of_element {name attributes inside : List Char} {names : List (List Char)}
    (hname : (name, names) ∈ V.elements) (hattributes : AttributeText names attributes)
    (hinside : WellNested V inside) :
    WellNested V ('<' :: name ++ attributes ++ '>' :: inside ++ "</".toList ++ name ++ ['>']) := by
  simpa using WellNested.element hname hattributes hinside .nil

/-! ## Trimming -/

/-- Well-nested markup is well nested without the white space it starts with. -/
theorem dropBlanks {html : List Char} (h : WellNested V html) :
    WellNested V (html.dropWhile isBlank) := by
  induction h with
  | nil => exact .nil
  | @text s html hs h ih =>
    rw [List.dropWhile_append]
    split
    · exact ih
    · exact .text hs.dropBlanks h
  | @void tag html htag h ih =>
    obtain ⟨tail, htail, -⟩ := (V.isTag_of_isVoid htag).exists_tail
    have hstays : (tag ++ html).dropWhile isBlank = tag ++ html := by
      rw [htail]
      exact List.dropWhile_cons_of_neg (by decide)
    rw [hstays]
    exact .void htag h
  | element hname hattributes hinside h _ ih => exact .element hname hattributes hinside h

/-- White space is never trimmed from a text that ends in a bracket. -/
theorem trimEnd_append_bracket (s html : List Char) :
    Text.trimEnd (s ++ ['>'] ++ html) = s ++ ['>'] ++ Text.trimEnd html := by
  by_cases hblank : isBlankText html
  · have hnone : Text.trimEnd html = [] := trimEnd_append_of_isBlankText hblank []
    rw [trimEnd_append_of_isBlankText hblank, trimEnd_append (by decide), hnone, List.append_nil]
    rfl
  · exact trimEnd_append hblank _

/-- Well-nested markup is well nested without the white space it ends with. -/
theorem trimEnd {html : List Char} (h : WellNested V html) : WellNested V (Text.trimEnd html) := by
  induction h with
  | nil => exact .nil
  | @text s html hs _ ih =>
    by_cases hblank : isBlankText html
    · rw [trimEnd_append_of_isBlankText hblank]
      exact of_text hs.trimEnd
    · rw [trimEnd_append hblank]
      exact .text hs ih
  | @void tag html htag _ ih =>
    obtain ⟨inside, rfl, -⟩ := (V.isTag_of_isVoid htag).cutAtChar? []
    rw [trimEnd_append_bracket]
    exact .void htag ih
  | element hname hattributes hinside _ _ ih =>
    rw [trimEnd_append_bracket]
    exact .element hname hattributes hinside ih

/-- Trimming on a line at either end keeps markup well nested. -/
theorem trimInlineStart {html : List Char} (h : WellNested V html) :
    WellNested V (Text.trimInlineStart html) := by
  unfold Text.trimInlineStart
  split
  · exact h
  · exact h.dropBlanks

theorem trimInlineEnd {html : List Char} (h : WellNested V html) :
    WellNested V (Text.trimInlineEnd html) := by
  unfold Text.trimInlineEnd Text.trimInlineStart
  split
  · rw [List.reverse_reverse]
    exact h
  · exact h.trimEnd

end WellNested

/-! ## Writing attributes -/

/-- Attributes that have a value are written as the attributes of a tag that can have them. -/
theorem AttributeText.of_attributed {names : List (List Char)} {attributes : Attributed}
    (hnames : (attributes.map (·.1)).Sublist names)
    (hvalues : ∀ a ∈ attributes, a.2 ≠ Option.none) :
    AttributeText names (writeAttributes attributes) := by
  generalize hpresent : attributes.map (·.1) = present at hnames
  induction hnames generalizing attributes with
  | slnil =>
    rw [List.map_eq_nil_iff.1 hpresent]
    exact .nil
  | cons name _ ih => exact .absent (ih hvalues hpresent)
  | cons_cons _ _ ih =>
    obtain ⟨⟨name, value⟩, rest, rfl, rfl, hrest⟩ := List.map_eq_cons_iff.1 hpresent
    obtain ⟨hfirst, hothers⟩ := List.forall_mem_cons.1 hvalues
    cases value with
    | none => exact absurd rfl hfirst
    | some value =>
      have hvalue : ∀ c ∈ escape value, c ≠ '<' ∧ c ≠ '>' ∧ c ≠ '\x22' := fun c hc =>
        ⟨(ne_of_mem_escape hc).1, (ne_of_mem_escape hc).2.1, (ne_of_mem_escape hc).2.2.1⟩
      have hwritten := @AttributeText.present name _ _ _ hvalue (ih hothers hrest)
      simpa [writeAttributes, writeAttribute] using hwritten

end Assessment.Markup
