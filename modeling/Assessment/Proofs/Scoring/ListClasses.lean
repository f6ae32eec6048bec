import Assessment.Proofs.Html.Twins
import Assessment.Proofs.Scoring.Prompt

/-!
# Proofs: classes of the scoring view

The classes of lists of choices and of preformatted blocks are written between double quotes as they are
given. Without a double quote in them, they stay there: views that differ in nothing else are written from
the same pieces apart from start tags (`twinned_writeAll`), and so have the same outline
(`exists_outline_of_classes`).
-/

namespace Assessment.Scoring

open Assessment.Html Assessment.Item Assessment.Markup Assessment.Text Layout

/-! ## Texts that differ in tags -/

/-- The text neither begins nor ends with white space. -/
def Solid (s : List Char) : Prop := ∀ backward, ∃ c t, along backward s = c :: t ∧ isBlank c = false

theorem solid_bracketed (s : List Char) : Solid ('<' :: s ++ ['>']) := by
  intro backward
  cases backward with
  | false => exact ⟨'<', s ++ ['>'], rfl, by decide⟩
  | true => exact ⟨'>', ('<' :: s).reverse, by simp [along], by decide⟩

/-- What stands in the same place of two texts: markup that is read as tokens that look alike. -/
structure TwinMarkup (s t : List Char) : Prop where
  /-- It is read so. -/
  lexAlike : LexAlike s t
  /-- White space at the edge of one text is none of it. -/
  first : Solid s
  /-- Nor at the edge of the other. -/
  second : Solid t

/-- The texts are written from the same pieces apart from markup that is read alike. -/
def Twinned (s t : List Char) : Prop :=
  ∃ twins, (∀ tags ∈ twinTags twins, TwinMarkup tags.1 tags.2) ∧ writeTwins Prod.fst twins = s ∧
    writeTwins Prod.snd twins = t

namespace Twinned

variable {s t u v : List Char}

theorem nil : Twinned [] [] := ⟨[], fun _ h => absurd h List.not_mem_nil, rfl, rfl⟩

theorem append (h : Twinned s t) (hmore : Twinned u v) : Twinned (s ++ u) (t ++ v) := by
  obtain ⟨twins, htwins, rfl, rfl⟩ := h
  obtain ⟨more, hothers, rfl, rfl⟩ := hmore
  refine ⟨twins ++ more, fun tags htags => ?_, writeTwins_append _ _ _, writeTwins_append _ _ _⟩
  rw [twinTags, List.filterMap_append] at htags
  exact (List.mem_append.1 htags).elim (htwins tags) (hothers tags)

theorem of_markup (h : TwinMarkup s t) : Twinned s t :=
  ⟨[.found (s, t)], List.forall_mem_singleton.2 h, List.append_nil s, List.append_nil t⟩

theorem escape (s : List Char) : Twinned (escape s) (escape s) := by
  induction s with
  | nil => exact .nil
  | cons c s ih =>
    have hchar : Twinned (escapeChar c) (escapeChar c) :=
      ⟨[.char c], fun _ h => absurd h List.not_mem_nil, List.append_nil _, List.append_nil _⟩
    exact hchar.append ih

theorem exists_outline (h : Twinned s t) :
    ∃ shape, outline? s = some shape ∧ outline? t = some shape := by
  obtain ⟨twins, htwins, rfl, rfl⟩ := h
  exact (lexAlike_writeTwins fun tags htags => (htwins tags htags).lexAlike).exists_outline

end Twinned

/-! ## Trimming -/

/-- The pieces as they are written in one of the texts, read along it. -/
def writeAlong (backward : Bool) (side : List Char × List Char → List Char) (twins : List Twin) :
    List Char := twins.flatMap fun twin => along backward (writeTwin side twin)

theorem reverse_writeTwins (side : List Char × List Char → List Char) (twins : List Twin) :
    (writeTwins side twins).reverse = writeAlong true side twins.reverse := by
  rw [writeTwins, List.reverse_flatMap, writeAlong]
  rfl

/-- The tags of one of the texts neither begin nor end with white space. -/
def SolidSide (side : List Char × List Char → List Char) (twins : List Twin) : Prop :=
  ∀ tags ∈ twinTags twins, Solid (side tags)

theorem takeWhile_dropWhile_of_cons {c : Char} {s t : List Char} (h : s = c :: t)
    (hc : isBlank c = false) (rest : List Char) :
    (s ++ rest).takeWhile isBlank = [] ∧ (s ++ rest).dropWhile isBlank = s ++ rest := by
  rw [h]
  exact span_of_head? fun _ hd => Option.some.inj hd ▸ hc

/-- White space at the edge is the same in both texts: it is what some of the first pieces are written
as. -/
theorem exists_span_writeAlong (backward : Bool) (twins : List Twin) :
    ∃ blanks rest, rest <:+ twins ∧ ∀ side, SolidSide side twins →
      (writeAlong backward side twins).takeWhile isBlank = blanks ∧
        (writeAlong backward side twins).dropWhile isBlank = writeAlong backward side rest := by
  induction twins with
  | nil => exact ⟨[], [], List.suffix_refl _, fun side _ => ⟨rfl, rfl⟩⟩
  | cons twin twins ih =>
    cases twin with
    | found tags =>
      refine ⟨[], _, List.suffix_refl _, fun side hsolid => ?_⟩
      obtain ⟨c, t, ht, hc⟩ := hsolid tags List.mem_cons_self backward
      exact takeWhile_dropWhile_of_cons ht hc (writeAlong backward side twins)
    | char c =>
      by_cases hc : isBlank c = true
      · obtain ⟨blanks, rest, hsuffix, hspan⟩ := ih
        refine ⟨c :: blanks, rest, hsuffix.trans (List.suffix_cons _ _), fun side hsolid => ?_⟩
        obtain ⟨htake, hdrop⟩ := hspan side hsolid
        have hwrite : writeAlong backward side (.char c :: twins) = c :: writeAlong backward side twins := by
          have hone : along backward (escapeChar c) = [c] := by
            rw [escapeChar_of_isBlank hc]
            cases backward <;> rfl
          exact congrArg (· ++ writeAlong backward side twins) hone
        rw [hwrite, List.takeWhile_cons_of_pos hc, List.dropWhile_cons_of_pos hc, htake, hdrop]
        exact ⟨rfl, rfl⟩
      · refine ⟨[], _, List.suffix_refl _, fun side _ => ?_⟩
        obtain ⟨d, t, ht, hd⟩ := exists_along_escapeChar backward (eq_false_of_ne_true hc)
        exact takeWhile_dropWhile_of_cons ht hd (writeAlong backward side twins)

/-- The same pieces are trimmed in both texts. -/
theorem exists_trim_writeAlong (backward : Bool) (twins : List Twin) :
    ∃ rest, rest <:+ twins ∧ ∀ side, SolidSide side twins →
      trimInlineStart (writeAlong backward side twins) = writeAlong backward side rest := by
  obtain ⟨blanks, rest, hsuffix, hspan⟩ := exists_span_writeAlong backward twins
  by_cases hbreak : blanks.any isLineBreak = true
  · refine ⟨twins, List.suffix_refl _, fun side hsolid => ?_⟩
    rw [trimInlineStart, (hspan side hsolid).1, if_pos hbreak]
  · refine ⟨rest, hsuffix, fun side hsolid => ?_⟩
    rw [trimInlineStart, (hspan side hsolid).1, if_neg hbreak, (hspan side hsolid).2]

namespace Twinned

variable {s t : List Char}

theorem trimStart (h : Twinned s t) : Twinned (trimInlineStart s) (trimInlineStart t) := by
  obtain ⟨twins, htwins, rfl, rfl⟩ := h
  obtain ⟨rest, hsuffix, htrim⟩ := exists_trim_writeAlong false twins
  have hfirst := htrim Prod.fst fun tags htags => (htwins tags htags).first
  have hsecond := htrim Prod.snd fun tags htags => (htwins tags htags).second
  exact ⟨rest, fun tags htags => htwins tags ((hsuffix.sublist.filterMap _).subset htags),
    hfirst.symm, hsecond.symm⟩

theorem trimEnd (h : Twinned s t) : Twinned (trimInlineEnd s) (trimInlineEnd t) := by
  obtain ⟨twins, htwins, rfl, rfl⟩ := h
  obtain ⟨rest, hsuffix, htrim⟩ := exists_trim_writeAlong true twins.reverse
  have hmem {tags : List Char × List Char} (htags : tags ∈ twinTags twins.reverse) :
      tags ∈ twinTags twins := by
    rw [twinTags, List.filterMap_reverse] at htags
    exact List.mem_reverse.1 htags
  have hside {side : List Char × List Char → List Char} (hsolid : SolidSide side twins.reverse) :
      writeTwins side rest.reverse = trimInlineEnd (writeTwins side twins) := by
    rw [trimInlineEnd, reverse_writeTwins, htrim side hsolid, ← List.reverse_reverse (writeTwins _ _),
      reverse_writeTwins, List.reverse_reverse]
  refine ⟨rest.reverse, fun tags htags => htwins tags (hmem ?_),
    hside fun tags htags => (htwins tags (hmem htags)).first,
    hside fun tags htags => (htwins tags (hmem htags)).second⟩
  rw [twinTags, List.filterMap_reverse] at htags
  exact (hsuffix.sublist.filterMap _).subset (List.mem_reverse.1 htags)

theorem trimBeside (afterBlank beforeBlank : Bool) (h : Twinned s t) :
    Twinned (trimBesideBlanks afterBlank beforeBlank s) (trimBesideBlanks afterBlank beforeBlank t) := by
  cases afterBlank with
  | false =>
    cases beforeBlank with
    | false => exact h
    | true => exact h.trimEnd
  | true =>
    cases beforeBlank with
    | false => exact h.trimStart
    | true => exact h.trimStart.trimEnd

end Twinned

/-! ## Classes between quotes -/

/-- Options that differ from the default ones in their classes. -/
def classed (choiceList preWithBlanks : List Char) : Options :=
  { choiceListClass := choiceList, preWithBlanksClass := preWithBlanks }

/-- The classes end where their quotes do. -/
structure QuoteFree (choiceList preWithBlanks : List Char) : Prop where
  /-- That of lists of choices. -/
  choiceList : '\x22' ∉ choiceList
  /-- That of preformatted blocks. -/
  preWithBlanks : '\x22' ∉ preWithBlanks

/-- The default classes end where their quotes do. -/
theorem quoteFree_default :
    QuoteFree ({} : Options).choiceListClass ({} : Options).preWithBlanksClass := ⟨by decide, by decide⟩

section Classes

variable {choiceList preWithBlanks otherList otherPre : List Char}

theorem spells_class {name : List Char} (h : '\x22' ∉ name) :
    StartTag.Spells (" class=\"".toList ++ name ++ ['\x22']) [("class".toList, Entity.decode name)] := by
  have hspells := StartTag.Spells.quoted (by decide : isPlainName "class".toList)
    (by decide : StartTag.isQuote '\x22') h .nil
  have hkey : " class=\"".toList = ' ' :: ("class".toList ++ ['=', '\x22']) := by decide
  have htext : " class=\"".toList ++ name ++ ['\x22'] =
      ' ' :: ("class".toList ++ '=' :: '\x22' :: (name ++ ['\x22'])) := by
    rw [hkey, List.cons_append, List.cons_append, List.append_assoc, List.append_assoc]
    rfl
  rw [htext]
  exact hspells

theorem append_class {start tag key : List Char} (h : start = tag ++ key) (name : List Char) :
    start ++ name ++ ['\x22'] = tag ++ (key ++ name ++ ['\x22']) := by
  rw [h]
  simp

/-- The start tag is its name and attributes. -/
theorem exists_spells_start (h : QuoteFree choiceList preWithBlanks) {around : Box}
    (htag : around.tag ∈ boxTags) :
    ∃ s found, around.start (classed choiceList preWithBlanks) = '<' :: around.tag ++ s ∧
      StartTag.Spells s found := by
  have hdefault : around.start (classed choiceList preWithBlanks) = around.start {} →
      ∃ s found, around.start (classed choiceList preWithBlanks) = '<' :: around.tag ++ s ∧
        StartTag.Spells s found := fun hsame =>
    ⟨_, _, hsame.trans (start_default around), spells_writeAttributes (plain_attributed around)⟩
  cases around with
  | plain tag => exact hdefault rfl
  | link attributes => exact hdefault rfl
  | orderedList attributes => exact hdefault rfl
  | choice attributes => exact hdefault rfl
  | choices =>
    have hsplit : "<ol class=\"".toList = ('<' :: "ol".toList) ++ " class=\"".toList := by decide
    refine ⟨_, _, ?_, spells_class h.choiceList⟩
    exact append_class hsplit choiceList
  | pre withBlanks =>
    cases withBlanks with
    | false => exact hdefault rfl
    | true =>
      have hsplit : "<pre class=\"".toList = ('<' :: "pre".toList) ++ " class=\"".toList := by decide
      refine ⟨_, _, ?_, spells_class h.preWithBlanks⟩
      exact append_class hsplit preWithBlanks

/-- The start tags of views with different classes differ in attributes. -/
theorem twinMarkup_start (h : QuoteFree choiceList preWithBlanks) (hother : QuoteFree otherList otherPre)
    {around : Box} (htag : around.tag ∈ boxTags) :
    TwinMarkup (around.start (classed choiceList preWithBlanks) ++ ['>'])
      (around.start (classed otherList otherPre) ++ ['>']) := by
  obtain ⟨s, found, hs, hspells⟩ := exists_spells_start h htag
  obtain ⟨t, others, ht, hspellsOther⟩ := exists_spells_start hother htag
  have hname := isPlainName_of_mem_boxTags htag
  have hraw := (boxTags_spec htag).1
  have hfirst := lexes_startTag hname hraw hspells .bracket
  have hsecond := lexes_startTag hname hraw hspellsOther .bracket
  rw [hs, ht]
  refine ⟨⟨_, _, ?_, ?_, .cons (.startTag around.tag (Attributes.ofList found)
    (Attributes.ofList others) false) .nil⟩, solid_bracketed _, solid_bracketed _⟩
  · simpa using hfirst
  · simpa using hsecond

theorem twinMarkup_end {tag : List Char} (h : isPlainName tag) :
    TwinMarkup ("</".toList ++ tag ++ ['>']) ("</".toList ++ tag ++ ['>']) :=
  ⟨.refl (lexes_endTag h), solid_bracketed ('/' :: tag), solid_bracketed ('/' :: tag)⟩

/-- Markup that does not depend on the classes. -/
theorem twinned_tree {tree : Tree} (h : tree.Regular) (htag : ∀ s, tree ≠ .text s) :
    Twinned tree.write tree.write :=
  .of_markup ⟨.refl (lexes_tree h), Tree.head_write htag, Tree.head_write htag⟩

theorem twinned_within {start other tag s t : List Char} (hstart : TwinMarkup start other)
    (htag : isPlainName tag) (h : Twinned s t) :
    Twinned (start ++ (s ++ ("</".toList ++ tag ++ ['>'])))
      (other ++ (t ++ ("</".toList ++ tag ++ ['>']))) :=
  (Twinned.of_markup hstart).append (h.append (.of_markup (twinMarkup_end htag)))

theorem codeHtml_eq (inside : List Char) : codeHtml inside =
    '<' :: ("code".toList ++ ([] ++ ['>'])) ++ (inside ++ ("</".toList ++ "code".toList ++ ['>'])) := by
  have hstart : "<code>".toList = '<' :: ("code".toList ++ ([] ++ ['>'])) := by decide
  have hend : "</code>".toList = "</".toList ++ "code".toList ++ ['>'] := by decide
  exact (List.append_assoc _ _ _).trans (congrArg₂ (· ++ ·) hstart (congrArg (inside ++ ·) hend))

mutual

theorem twinned_write (h : QuoteFree choiceList preWithBlanks) (hother : QuoteFree otherList otherPre) :
    ∀ {layout : Layout Nat}, layout.Tagged →
      Twinned (layout.write (classed choiceList preWithBlanks)) (layout.write (classed otherList otherPre))
  | .text s, _ => .escape s
  | .blank index, htagged => by
    have htree := twinned_tree (regular_treeOf htagged) nofun
    rwa [← write_default (.blank index)] at htree
  | .answer, htagged => by
    have htree := twinned_tree (regular_treeOf htagged) nofun
    rwa [← write_default .answer] at htree
  | .image attributes, htagged => by
    have htree := twinned_tree (regular_treeOf htagged) nofun
    rwa [← write_default (.image attributes)] at htree
  | .line, htagged => by
    have htree := twinned_tree (regular_treeOf htagged) nofun
    rwa [← write_default .line] at htree
  | .box around inside, htagged => by
    have hinside := twinned_writeAll h hother htagged.2
    have hwithin := twinned_within (twinMarkup_start h hother htagged.1)
      (isPlainName_of_mem_boxTags htagged.1) hinside
    simpa [Layout.write] using hwithin
  | .code afterBlank beforeBlank inside, htagged => by
    have hinside := (twinned_writeAll h hother (show TaggedAll inside from htagged)).trimBeside
      afterBlank beforeBlank
    have hname : isPlainName "code".toList := by decide
    have hstart := lexes_startTag hname (by decide) .nil .bracket
    rw [Layout.write, Layout.write, codeHtml_eq, codeHtml_eq]
    exact twinned_within
      ⟨.refl hstart, solid_bracketed "code".toList, solid_bracketed "code".toList⟩ hname hinside

/-- Views that differ in classes are written from the same pieces apart from start tags. -/
theorem twinned_writeAll (h : QuoteFree choiceList preWithBlanks)
    (hother : QuoteFree otherList otherPre) : ∀ {layouts : List (Layout Nat)}, TaggedAll layouts →
      Twinned (Layout.writeAll (classed choiceList preWithBlanks) layouts)
        (Layout.writeAll (classed otherList otherPre) layouts)
  | [], _ => .nil
  | _ :: _, htagged => by
    rw [Layout.writeAll, Layout.writeAll]
    exact (twinned_write h hother htagged.1).append (twinned_writeAll h hother htagged.2)

end

/-- Views that differ in classes without double quotes have the same outline. -/
theorem exists_outline_of_classes (h : QuoteFree choiceList preWithBlanks)
    (hother : QuoteFree otherList otherPre) (blanks : Nat) (nodes : List Xml.Node) :
    ∃ shape,
      outline? (renderNodes (classed choiceList preWithBlanks) Spacing.root blanks nodes).html = some shape ∧
      outline? (renderNodes (classed otherList otherPre) Spacing.root blanks nodes).html = some shape := by
  rw [renderNodes_eq_shown _ Spacing.root blanks [] 0 nodes, renderNodes_eq_shown _ Spacing.root blanks [] 0]
  exact (twinned_writeAll h hother
    (taggedAll_numberAll blanks (taggedAll_layoutNodes Spacing.root [] 0 nodes))).exists_outline

end Classes

end Assessment.Scoring
