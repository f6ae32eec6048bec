import Assessment.Proofs.Html.Reading
import Assessment.Proofs.Report.Idempotence
import Assessment.Proofs.Report.Joining
import Assessment.Proofs.Report.KeptCode

/-!
# Proofs: reports are HTML that can be read

The tags that a report is made of can be read as tags of HTML (`Html.Legible`), as long as the elements of
the item have names that begin with a letter and none is named like the body of a document. The passes
edit start tags and move tags of code, but the tags stay legible, and each element whose text is no markup
is still ended (`exists_legible_question`).
-/

namespace Assessment.Report

open Assessment.Html (Legible RawEnded beginsRaw)
open Assessment.Html.StartTag (Unbroken ReadsAll Ends)
open Assessment.Item Assessment.Text Assessment.Markup Assessment.Markup.StartTag
open Assessment.Xml hiding Token

/-! ## Names -/

/-- The characters of a name end no name of HTML. -/
theorem unbroken_of_nameLike {s : List Char} (h : NameLike s) : Unbroken s := by
  intro c hc
  have hne : ∀ d ∈ "\t\n\r\x0c /=\x00".toList, c ≠ d := by
    rintro d hd rfl
    have hnot : ∀ d ∈ "\t\n\r\x0c /=\x00".toList, isNameChar d = false ∧ d ≠ ':' := by decide +kernel
    rcases h c hc with hname | hcolon
    · exact absurd hname (ne_true_of_eq_false (hnot c hd).1)
    · exact (hnot c hd).2 hcolon
  have hblank := h.isBlank c hc
  have hbracket := (h.unbracketed c hc).2
  simp only [String.reduceToList, List.forall_mem_cons, List.not_mem_nil, false_implies, implies_true,
    and_true] at hne
  simp [Html.StartTag.isTagNameChar, Html.StartTag.isAttributePart, Html.StartTag.isAttributeStart, hne,
    hblank, hbracket]

/-- The name begins with a letter of ASCII, and is not that of the body of a document. -/
def ReadableName (name : List Char) : Prop :=
  name.head?.any Char.isAlpha = true ∧ lower name ≠ "body".toList

instance (name : List Char) : Decidable (ReadableName name) := inferInstanceAs (Decidable (_ ∧ _))

theorem exists_cons_of_letter {name : List Char} (h : name.head?.any Char.isAlpha = true) :
    ∃ c rest, name = c :: rest ∧ c.isAlpha = true := by
  cases name with
  | nil => cases h
  | cons c rest => exact ⟨c, rest, rfl, h⟩

/-! ## Attributes -/

/-- The attribute can be read: its key is a name, and so is what follows it, if anything does. -/
structure ReadableEntry (e : Entry) : Prop where
  /-- The key is a name. -/
  key : IsName e.key
  /-- The value ends at the closing quote. -/
  value : '\x22' ∉ e.value
  /-- What follows is made of the characters of names. -/
  tail : NameLike e.tail

/-- The text can be read as what stands between the name of a tag and its end. -/
def ReadablePart (part : List Char) : Prop :=
  ∀ (ending : List Char) (closed : Bool), Ends ending closed →
    ∃ found, ReadsAll (part ++ ending) found closed ∧ ∀ a ∈ found, Unbracketed a.1

theorem readablePart_writeEntries {entries : List Entry} (h : ∀ e ∈ entries, ReadableEntry e) :
    ReadablePart (writeEntries entries) := by
  intro ending closed he
  induction entries with
  | nil => exact ⟨[], .of_ends he, fun a ha => absurd ha List.not_mem_nil⟩
  | cons e entries ih =>
    obtain ⟨⟨⟨hlike, hne⟩, hvalue, htail⟩, hentries⟩ := List.forall_mem_cons.1 h
    obtain ⟨found, hreads, hkeys⟩ := ih hentries
    have hkey := unbroken_of_nameLike hlike
    rw [writeEntries_cons, List.append_assoc, Entry.write_append]
    cases hcase : e.tail with
    | nil =>
      exact ⟨_, hreads.quoted hne hkey (by decide) hvalue,
        List.forall_mem_cons.2 ⟨unbracketed_lower hlike.unbracketed, hkeys⟩⟩
    | cons d rest =>
      rw [hcase] at htail
      exact ⟨_, hreads.tailed hne hkey (by decide) hvalue (List.cons_ne_nil d rest)
          (unbroken_of_nameLike htail),
        List.forall_mem_cons.2 ⟨unbracketed_lower hlike.unbracketed,
          List.forall_mem_cons.2 ⟨unbracketed_lower htail.unbracketed, hkeys⟩⟩⟩

theorem readableEntry_of_mem_entriesOf {attributes : Attributes}
    (h : ∀ a ∈ attributes, IsName (attributeName a.1)) :
    ∀ e ∈ entriesOf attributes, ReadableEntry e := by
  intro e he
  obtain ⟨a, ha, rfl⟩ := exists_of_mem_entriesOf he
  exact ⟨h a ha, fun hquote => (ne_of_mem_escape hquote).2.2.1 rfl,
    fun c hc => absurd hc List.not_mem_nil⟩

theorem readablePart_writeAttributes {attributes : Attributes}
    (h : ∀ a ∈ attributes, IsName (attributeName a.1)) :
    ReadablePart (Xml.writeAttributes attributes) := by
  rw [writeAttributes_eq]
  exact readablePart_writeEntries (readableEntry_of_mem_entriesOf h)

theorem isName_classKey : IsName classKey := by
  refine ⟨?_, by decide⟩
  unfold NameLike
  decide +kernel

/-- A class alone can be read. -/
theorem readablePart_class (name : List Char) :
    ReadablePart (" class=\"".toList ++ escape name ++ ['\x22']) := by
  have hentry : ReadableEntry ⟨classKey, escape name, []⟩ :=
    ⟨isName_classKey, fun hquote => (ne_of_mem_escape hquote).2.2.1 rfl,
      fun c hc => absurd hc List.not_mem_nil⟩
  have hpart := readablePart_writeEntries (List.forall_mem_singleton.2 hentry)
  have htext : writeEntries [⟨classKey, escape name, []⟩] =
      " class=\"".toList ++ escape name ++ ['\x22'] := by
    simp [writeEntries, Entry.write, classKey]
  rwa [htext] at hpart

/-! ## Tags -/

theorem legible_openTag {name part : List Char} (hname : ReadableName name) (hlike : NameLike name)
    (hpart : ReadablePart part) : Legible (openTag name part) := by
  obtain ⟨found, hreads, hkeys⟩ := hpart _ _ .bracket
  obtain ⟨c, rest, rfl, hc⟩ := exists_cons_of_letter hname.1
  have htag := Legible.opening hc (unbroken_of_nameLike hlike) hreads hkeys hname.2
  simpa [openTag] using htag

theorem legible_closeTag {name : List Char} (hname : ReadableName name) (hlike : NameLike name) :
    Legible (closeTag name) := by
  obtain ⟨c, rest, rfl, hc⟩ := exists_cons_of_letter hname.1
  exact .ending hc (unbroken_of_nameLike hlike)

theorem legible_image {attributes : List Char} (hpart : ReadablePart attributes) :
    Legible ("<img".toList ++ attributes ++ " />".toList) := by
  obtain ⟨found, hreads, hkeys⟩ := hpart _ _ .spaced
  have hname : Unbroken "img".toList := unbroken_of_nameLike (by unfold NameLike; decide +kernel)
  have htag := @Legible.opening 'i' "mg".toList _ found true (by decide) hname hreads hkeys (by decide)
  simpa using htag

theorem legible_line : Legible "<hr />".toList := by
  have hname : Unbroken "hr".toList := unbroken_of_nameLike (by unfold NameLike; decide +kernel)
  exact @Legible.opening 'h' "r".toList " />".toList [] true (by decide) hname (.of_ends .spaced)
    (fun a ha => absurd ha List.not_mem_nil) (by decide)

/-- The tag of a blank can be read, though its values are not in quotes. -/
theorem legible_cloze : Legible ({} : Options).cloze := by
  have hlike : ∀ name ∈ ["input".toList, "class".toList, "type".toList, "readonly".toList,
      "aria-label".toList], Unbroken name := by
    unfold Unbroken
    decide +kernel
  have hend : ReadsAll ['>'] [] false := .of_ends .bracket
  have hlabel := @ReadsAll.unquoted "aria-label".toList _ _ _ 'b' "lank".toList (by decide)
    (hlike _ (by decide)) (by decide) (by decide) (by decide) (by decide) hend
  have hreadonly := hlabel.bare (by decide) (hlike "readonly".toList (by decide))
  have htype := @ReadsAll.unquoted "type".toList _ _ _ 't' "ext".toList (by decide)
    (hlike _ (by decide)) (by decide) (by decide) (by decide) (by decide) hreadonly
  have hclass := @ReadsAll.unquoted "class".toList _ _ _ 'c' "loze-input".toList (by decide)
    (hlike _ (by decide)) (by decide) (by decide) (by decide) (by decide) htype
  exact @Legible.opening 'i' "nput".toList _ _ false (by decide) (hlike _ (by decide)) hclass
    (by decide +kernel) (by decide)

/-! ## Start tags that are edited -/

/-- The parts of a start tag of a preformatted block or of code can be read. -/
structure ReadableSpelling (s : Spelling) : Prop where
  /-- It begins like one of the two names. -/
  first : ∃ c rest, s.name = c :: rest ∧ c ∈ ['p', 'c']
  /-- The whole name is made of the characters of names. -/
  name : NameLike (s.name ++ s.after)
  /-- The attributes can be read. -/
  entries : ∀ e ∈ s.entries, ReadableEntry e

theorem head?_lower_of_mem {c : Char} (h : c ∈ ['p', 'c']) (s : List Char) :
    (lower (c :: s)).head? = some c := by
  rcases List.mem_cons.1 h with rfl | h
  · rfl
  · rw [List.mem_singleton.1 h]
    rfl

namespace ReadableSpelling

variable {s : Spelling} {classes language : List Char}

theorem legible_write (h : ReadableSpelling s) : Legible s.write := by
  obtain ⟨⟨c, rest, hname, hc⟩, hlike, hentries⟩ := h
  obtain ⟨found, hreads, hkeys⟩ := readablePart_writeEntries hentries _ _ .bracket
  rw [hname] at hlike
  have hbody : lower (c :: (rest ++ s.after)) ≠ "body".toList := by
    intro heq
    have hhead := congrArg List.head? heq
    rw [head?_lower_of_mem hc] at hhead
    rw [Option.some.inj hhead] at hc
    exact absurd hc (by decide)
  have hletter : c.isAlpha = true := (by decide : ∀ d ∈ ['p', 'c'], d.isAlpha = true) c hc
  have htag := Legible.opening hletter (unbroken_of_nameLike hlike) hreads hkeys hbody
  rw [Spelling.write, hname]
  simpa using htag

theorem set (h : ReadableSpelling s) {key value : List Char} (hkey : IsName key)
    (hvalue : '\x22' ∉ value) : ReadableSpelling (s.set key value) := by
  by_cases hmem : key ∈ keys s.entries
  · rw [Spelling.set_of_mem hmem]
    refine ⟨h.first, h.name, ?_⟩
    have hentries := h.entries
    clear hmem h
    generalize s.entries = entries at hentries
    induction entries with
    | nil => exact hentries
    | cons e entries ih =>
      obtain ⟨he, hothers⟩ := List.forall_mem_cons.1 hentries
      rw [assign]
      split
      · exact List.forall_mem_cons.2 ⟨⟨he.key, hvalue, he.tail⟩, hothers⟩
      · exact List.forall_mem_cons.2 ⟨he, ih hothers⟩
  · rw [Spelling.set_of_not_mem hmem]
    refine ⟨h.first, ?_, List.forall_mem_cons.2 ⟨⟨hkey, hvalue, ?_⟩, h.entries⟩⟩
    · rw [List.append_nil]
      exact h.name.of_subset (List.subset_append_left _ _)
    · exact h.name.of_subset (List.subset_append_right _ _)

theorem isName_languageKey : IsName Spelling.languageKey := by
  refine ⟨?_, by decide⟩
  unfold NameLike
  decide +kernel

theorem add (h : ReadableSpelling s) (hs : s.Regular) {added : List (List Char)}
    (hadded : ∀ w ∈ added, IsValue w) : ReadableSpelling (s.add added) :=
  h.set isName_classKey (hs.isValue_classes hadded).not_mem.2

theorem marked (h : ReadableSpelling s) (hs : s.Regular) {added : List (List Char)}
    (hadded : ∀ w ∈ added, IsValue w) (hlanguage : IsValue language) :
    ReadableSpelling (s.marked added language) :=
  (h.add hs hadded).set isName_languageKey hlanguage.not_mem.2

theorem inlined (h : ReadableSpelling s) (hs : s.Regular) : ReadableSpelling s.inlined := by
  unfold Spelling.inlined
  split
  · exact h
  · unfold Spelling.asInline
    split
    · next language hlanguage =>
      exact h.marked hs Spelling.isValue_inlineWords (hs.isLanguage_language? hlanguage).value
    · exact h.add hs Spelling.isValue_inlineWords

end ReadableSpelling

/-- The tag is written by regular parts that can be read. -/
def SpelledReadably (tag : List Char) : Prop :=
  ∃ s : Spelling, s.Regular ∧ ReadableSpelling s ∧ s.write = tag

namespace SpelledReadably

variable {tag classes language : List Char}

theorem spelled (h : SpelledReadably tag) : Spelled tag := by
  obtain ⟨s, hs, -, rfl⟩ := h
  exact ⟨s, hs, rfl⟩

theorem legible (h : SpelledReadably tag) : Legible tag := by
  obtain ⟨s, -, hreadable, rfl⟩ := h
  exact hreadable.legible_write

theorem taggedStart (h : SpelledReadably tag) (hclasses : ∀ w ∈ words classes, IsValue w)
    (hlanguage : IsLanguage language) : SpelledReadably (taggedStart {} classes language tag) := by
  obtain ⟨s, hs, hreadable, rfl⟩ := h
  exact ⟨_, hs.marked hclasses hlanguage.value, hreadable.marked hs hclasses hlanguage.value,
    (hs.taggedStart_write hclasses hlanguage.value).symm⟩

theorem inlineStart (h : SpelledReadably tag) : SpelledReadably (inlineStart {} tag) := by
  obtain ⟨s, hs, hreadable, rfl⟩ := h
  exact ⟨_, hs.inlined, hreadable.inlined hs, hs.inlineStart_write.symm⟩

end SpelledReadably

theorem spelledReadably_startOf {e : Element} (h : e.toNode.Named)
    (hvalues : NamedLikeCode (htmlName e.name) → ∀ a ∈ e.attributes, '=' ∉ a.2) :
    IfSearched SpelledReadably (startOf e) := by
  intro hstart
  have hregular := regular_startSpelling h hvalues hstart
  obtain ⟨-, c, rest, hname, hc⟩ := exists_of_isStart_startOf h hstart
  obtain ⟨htag, hattributes, -⟩ := h
  refine ⟨startSpelling e, hregular, ⟨?_, ?_, readableEntry_of_mem_entriesOf hattributes⟩,
    write_startSpelling e⟩
  · have hletter : isTagNameChar c = true := (by decide : ∀ d ∈ ['p', 'c'], isTagNameChar d = true) c hc
    refine ⟨c, rest.takeWhile isTagNameChar, ?_, hc⟩
    rw [startSpelling, hname, List.takeWhile_cons_of_pos hletter]
  · rw [startSpelling, List.takeWhile_append_dropWhile]
    exact htag.of_subset (htmlName_subset _)

/-! ## Rendered nodes -/

/-- The token is no tag, or a tag with the property that has regular parts if the passes search for it. -/
def ReportToken (P : List Char → Prop) : Token → Prop
  | .char _ => True
  | .found tag => IfSearched SpelledReadably tag ∧ P tag

/-- The tags among some tokens. -/
def tagsOf (tokens : List Token) : List (List Char) := tokens.filterMap Piece.found?

theorem tagsOf_append (tokens more : List Token) : tagsOf (tokens ++ more) = tagsOf tokens ++ tagsOf more :=
  List.filterMap_append

theorem of_mem_tagsOf {P : List Char → Prop} {tokens : List Token} (h : ∀ t ∈ tokens, ReportToken P t) :
    ∀ tag ∈ tagsOf tokens, P tag := fun _ htag => (h _ (Piece.found_mem htag)).2

/-- The HTML is written from tokens with the property, and each element whose text is no markup is
ended. -/
def MadeEnded (P : List Char → Prop) (html : List Char) : Prop :=
  ∃ tokens, Tokens tokens ∧ (∀ t ∈ tokens, ReportToken P t) ∧ RawEnded (tagsOf tokens) ∧
    writeTokens tokens = html

/-- An end tag opens nothing. -/
theorem not_opensRaw_closeTag {name raw : List Char} (hname : '>' ∉ name) :
    ¬ Html.OpensRaw raw (closeTag name) := by
  rintro ⟨-, attributes, hread⟩
  have htoken := (Html.readAs_ending hname).inj hread
  unfold Html.Markup.endTagOf at htoken
  dsimp only at htoken
  split at htoken
  · cases htoken
  · split at htoken
    · cases htoken
    · split at htoken <;> cases htoken

/-- The start tag of an element whose text is no markup is matched by its end tag. -/
theorem endsRaw_closeTag {name part raw : List Char} (hname : name.head?.any Char.isAlpha = true)
    (hlike : NameLike name) (hpart : ReadablePart part) (h : Html.OpensRaw raw (openTag name part)) :
    Html.EndsRaw raw (closeTag name) := by
  obtain ⟨hraw, attributes, hread⟩ := h
  obtain ⟨found, hreads, -⟩ := hpart _ _ .bracket
  obtain ⟨c, rest, rfl, hc⟩ := exists_cons_of_letter hname
  have hstart := Html.readAs_startTag hc (unbroken_of_nameLike hlike) hreads
  have hopen : '<' :: (c :: rest ++ (part ++ ['>'])) = openTag (c :: rest) part := by simp [openTag]
  rw [hopen] at hstart
  cases hread.inj hstart
  exact ⟨hraw, c :: rest, rfl, rfl⟩

namespace MadeEnded

variable {P : List Char → Prop}

theorem append {html more : List Char} (h : MadeEnded P html) (hmore : MadeEnded P more) :
    MadeEnded P (html ++ more) := by
  obtain ⟨tokens, htokens, hreport, hended, rfl⟩ := h
  obtain ⟨others, hothers, hreportOthers, hendedOthers, rfl⟩ := hmore
  refine ⟨tokens ++ others, htokens.append hothers, List.forall_mem_append.2 ⟨hreport, hreportOthers⟩,
    ?_, writeTokens_append tokens others⟩
  rw [tagsOf_append]
  exact hended.append hendedOthers

theorem of_unbracketed {s : List Char} (h : Unbracketed s) : MadeEnded P s := by
  induction s with
  | nil => exact ⟨[], fun t ht => absurd ht List.not_mem_nil, fun t ht => absurd ht List.not_mem_nil,
      trivial, rfl⟩
  | cons c s ih =>
    obtain ⟨hc, hs⟩ := List.forall_mem_cons.1 h
    obtain ⟨tokens, htokens, hreport, hended, rfl⟩ := ih hs
    exact ⟨.char c :: tokens, List.forall_mem_cons.2 ⟨hc, htokens⟩,
      List.forall_mem_cons.2 ⟨trivial, hreport⟩, hended, rfl⟩

theorem nil : MadeEnded P [] := of_unbracketed fun _ hc => absurd hc List.not_mem_nil

/-- A tag that stands by itself. -/
theorem of_tag {tag : List Char} (htag : IsTag tag) (hsearched : IfSearched SpelledReadably tag)
    (hreport : P tag) (hnot : ∀ name, ¬ Html.OpensRaw name tag) : MadeEnded P tag :=
  ⟨[.found tag], List.forall_mem_singleton.2 htag, List.forall_mem_singleton.2 ⟨hsearched, hreport⟩,
    ⟨fun name hopens => absurd hopens (hnot name), trivial⟩, by simp⟩

/-- The tags of an element around HTML. -/
theorem within {name part html : List Char} (hname : Unbracketed name) (hpart : Unbracketed part)
    (hsearched : IfSearched SpelledReadably (openTag name part))
    (htags : P (openTag name part) ∧ P (closeTag name))
    (hended : ∀ raw, Html.OpensRaw raw (openTag name part) → Html.EndsRaw raw (closeTag name))
    (h : MadeEnded P html) : MadeEnded P (within name part html) := by
  obtain ⟨tokens, htokens, hreport, hinside, rfl⟩ := h
  have hopen : IsToken (.found (openTag name part)) := isTag_openTag hname hpart
  have hclose : IsToken (.found (closeTag name)) := isTag_closeTag hname
  have hcloseSearched : IfSearched SpelledReadably (closeTag name) :=
    holdsElsewhere_ifSearched SpelledReadably (isStart_pre_closeTag hname) (isStart_code_closeTag hname)
  have hrest : Tokens (tokens ++ [.found (closeTag name)]) :=
    htokens.append (List.forall_mem_singleton.2 hclose)
  refine ⟨_, List.forall_mem_cons.2 ⟨hopen, hrest⟩, ?_, ⟨fun raw hopens => ?_, ?_⟩, by simp [within_eq]⟩
  · exact List.forall_mem_cons.2 ⟨⟨hsearched, htags.1⟩, List.forall_mem_append.2 ⟨hreport,
      List.forall_mem_singleton.2 ⟨hcloseSearched, htags.2⟩⟩⟩
  · refine ⟨closeTag name, ?_, hended raw hopens⟩
    exact List.mem_filterMap.2 ⟨.found (closeTag name), by simp, rfl⟩
  · have hnot : '>' ∉ name := fun hmem => (hname _ hmem).2 rfl
    have hlast : RawEnded (tagsOf [.found (closeTag name)]) :=
      ⟨fun raw hopens => absurd hopens (not_opensRaw_closeTag hnot), trivial⟩
    have hboth := hinside.append hlast
    rwa [← tagsOf_append] at hboth

end MadeEnded

/-- What is said of the tags of a report: tags that can be read have it, and the tags of an element have it
of which `Q` is known. -/
structure TagRule (P : List Char → Prop) (Q : Element → Prop) : Prop where
  /-- Tags that can be read have it. -/
  legible : ∀ {tag : List Char}, Legible tag → P tag
  /-- A tag of an element whose text is no markup begins like one. -/
  beginsRaw : ∀ {tag name : List Char}, P tag → Html.OpensRaw name tag → beginsRaw tag = true
  /-- The start tag of an element has regular parts if the passes search for it. -/
  searched : ∀ {e : Element}, Q e → IfSearched SpelledReadably (startOf e)
  /-- The tags of an element have it. -/
  tags : ∀ {e : Element}, e.toNode.Named → Q e → P (startOf e) ∧ P (closeTag (htmlName e.name))
  /-- An element whose text is no markup is ended by its end tag. -/
  ended : ∀ {e : Element} {raw : List Char}, e.toNode.Named → Q e → Html.OpensRaw raw (startOf e) →
    Html.EndsRaw raw (closeTag (htmlName e.name))

theorem nameLike_div : NameLike "div".toList := by
  unfold NameLike
  decide +kernel

theorem readablePart_nil : ReadablePart [] :=
  @readablePart_writeEntries [] fun _ he => absurd he List.not_mem_nil

/-- The attribute of a wrapper can be read. -/
theorem readablePart_choiceWrapper (options : Options) :
    ReadablePart (choiceWrapperAttribute options) := by
  unfold choiceWrapperAttribute
  split
  · exact readablePart_nil
  · exact readablePart_class _

section Rule

variable {P : List Char → Prop} {Q : Element → Prop}

/-- A tag that can be read and does not begin like those of elements whose text is no markup stands by
itself. -/
theorem TagRule.madeEnded_of_legible (h : TagRule P Q) {tag : List Char} (htag : IsTag tag)
    (hsearched : IfSearched SpelledReadably tag) (hlegible : Legible tag)
    (hbegins : Html.beginsRaw tag = false) : MadeEnded P tag :=
  .of_tag htag hsearched (h.legible hlegible) fun _ hopens =>
    absurd (hlegible.beginsRaw hopens) (ne_true_of_eq_false hbegins)

/-- A wrapper around HTML. -/
theorem TagRule.madeEnded_div (h : TagRule P Q) {part html : List Char} (hpart : ReadablePart part)
    (hattributes : AttributePart part) (hhtml : MadeEnded P html) :
    MadeEnded P (within "div".toList part html) := by
  have helsewhere : HoldsElsewhere (IfSearched SpelledReadably) :=
    holdsElsewhere_ifSearched SpelledReadably
  have hsearched : IfSearched SpelledReadably (openTag "div".toList part) :=
    helsewhere.openTag (by decide) hattributes (by decide) (by decide)
  have htags : P (openTag "div".toList part) ∧ P (closeTag "div".toList) :=
    ⟨h.legible (legible_openTag (by decide) nameLike_div hpart),
      h.legible (legible_closeTag (by decide) nameLike_div)⟩
  exact .within (by decide) hattributes.unbracketed hsearched htags
    (fun _ => endsRaw_closeTag (by decide) nameLike_div hpart) hhtml

theorem TagRule.keptByRendering (h : TagRule P Q) {options : Options}
    (hcloze : options.cloze = ({} : Options).cloze) :
    KeptByRendering options Q fun _ html => MadeEnded P html where
  text := .of_unbracketed
  append := .append
  hidden _ := .nil
  cloze _ := by
    rw [hcloze]
    exact h.madeEnded_of_legible isTag_cloze (holdsElsewhere_ifSearched _ (by decide) (by decide))
      legible_cloze (by decide)
  image _ hnamed := by
    have hattributes := (attributePart_writeAttributes hnamed.2.1).image
    have hlegible := legible_image (readablePart_writeAttributes hnamed.2.1)
    have helsewhere : HoldsElsewhere (IfSearched SpelledReadably) :=
      holdsElsewhere_ifSearched SpelledReadably
    rw [image_eq] at hlegible ⊢
    exact h.madeEnded_of_legible (isTag_openTag (by decide) hattributes.unbracketed)
      (helsewhere.openTag (by decide) hattributes (by decide) (by decide)) hlegible rfl
  line _ := h.madeEnded_of_legible isTag_line (holdsElsewhere_ifSearched _ (by decide) (by decide))
    legible_line (by decide)
  choices _ hhtml :=
    h.madeEnded_div (readablePart_choiceWrapper options) (attributePart_choiceWrapper options) hhtml
  element _ _ hnamed hQ hhtml :=
    .within (unbracketed_htmlName hnamed.1) (unbracketed_writeAttributes hnamed.2.1) (h.searched hQ)
      (h.tags hnamed hQ) (fun _ => h.ended hnamed hQ) hhtml

end Rule

/-- The start tag of the element can be read. -/
def ReadableElement (e : Element) : Prop :=
  ReadableName (htmlName e.name) ∧ IfSearched SpelledReadably (startOf e)

theorem tagRule_legible : TagRule Legible ReadableElement where
  legible h := h
  beginsRaw h := h.beginsRaw
  searched h := h.2
  tags hnamed h :=
    have hlike := hnamed.1.of_subset (htmlName_subset _)
    ⟨legible_openTag h.1 hlike (readablePart_writeAttributes hnamed.2.1), legible_closeTag h.1 hlike⟩
  ended hnamed h := endsRaw_closeTag h.1.1 (hnamed.1.of_subset (htmlName_subset _))
    (readablePart_writeAttributes hnamed.2.1)

/-! ## The passes -/

theorem legible_preEnd : Legible preEnd :=
  @legible_closeTag "pre".toList (by decide) (by unfold NameLike; decide +kernel)

theorem legible_codeEnd : Legible codeEnd :=
  @legible_closeTag "code".toList (by decide) (by unfold NameLike; decide +kernel)

/-- The passes leave tokens with the property, if tags that can be read have it. -/
theorem reportToken_finishTokens {P : List Char → Prop} (hP : ∀ {tag : List Char}, Legible tag → P tag)
    {tokens : List Token} (h : ∀ t ∈ tokens, ReportToken P t) :
    ∀ t ∈ finishTokens {} tokens, ReportToken P t := by
  have hspelled {tag : List Char} (htag : SpelledReadably tag) : ReportToken P (.found tag) :=
    ⟨fun _ => htag, hP htag.legible⟩
  have hmerged : ∀ t ∈ merger.rewrite tokens, ReportToken P t :=
    forall_merger ⟨fun hstart => absurd hstart (by decide +kernel), hP legible_preEnd⟩
      ⟨fun hstart => absurd hstart (by decide +kernel), hP legible_codeEnd⟩ h
  have hmarked : ∀ t ∈ (blockMarker {}).rewrite (merger.rewrite tokens), ReportToken P t := by
    refine forall_blockMarker ?_ hmerged
    intro block hproper hsource
    have hsearched : ∀ t ∈ block.source, SearchedToken SpelledReadably t := fun t ht => by
      cases t with
      | char c => exact trivial
      | found tag => exact (hsource _ ht).1
    obtain ⟨⟨hpre, hcode⟩, -⟩ := hproper.searched hsearched
    have hlanguage := hcode.spelled.isLanguage_languageOf
    exact ⟨hspelled (hpre.taggedStart isValue_codeBlockClass hlanguage),
      hspelled (hcode.taggedStart Spelling.isValue_blockCodeWords hlanguage)⟩
  intro t ht
  obtain ⟨source, hsource, rfl⟩ := List.mem_map.1 ht
  have htoken := hmarked source hsource
  cases source with
  | char c => exact trivial
  | found tag =>
    rw [TagSearch.edit]
    split
    · next hcode => exact hspelled (htoken.1 (.inr hcode)).inlineStart
    · exact htoken

/-! ### Tags of elements whose text is no markup -/

theorem beginsRaw_of_opens {c : Char} {tag : List Char} (h : Opens c tag) (hc : c ∈ ['p', 'c']) :
    beginsRaw tag = false := by
  obtain ⟨rest, rfl⟩ := h
  rcases List.mem_cons.1 hc with rfl | hc
  · rfl
  · rw [List.mem_singleton.1 hc]
    rfl

theorem opens_of_isStart {name : String} {c : Char} {letters tag : List Char}
    (hname : name.toList = c :: letters) (h : isStart name tag = true) : Opens c tag := by
  obtain ⟨⟨start, rest⟩, hrun⟩ := Option.isSome_iff_exists.1 h
  obtain ⟨more, rfl⟩ := opens_of_startTag? hname hrun
  exact ⟨more ++ rest, RawTag.tag?_append hrun⟩

/-- A tag of code is no tag of an element whose text is no markup. -/
theorem beginsRaw_of_isCodeTag {tag : List Char} (h : isCodeTag tag = true) : beginsRaw tag = false := by
  rcases Bool.or_eq_true_iff.1 h with hstart | hend
  · exact beginsRaw_of_opens (opens_of_isStart rfl hstart) (by decide)
  · obtain ⟨⟨start, rest⟩, hrun⟩ := Option.isSome_iff_exists.1 hend
    obtain ⟨inside, rfl, -⟩ := RawTag.exists_inside hrun
    rw [RawTag.tag?_append hrun]
    rfl

/-- The tags among some tokens that begin like those of elements whose text is no markup. -/
def rawTagsOf (tokens : List Token) : List (List Char) := (tagsOf tokens).filter beginsRaw

theorem rawTagsOf_append (tokens more : List Token) :
    rawTagsOf (tokens ++ more) = rawTagsOf tokens ++ rawTagsOf more := by
  rw [rawTagsOf, tagsOf_append, List.filter_append]
  rfl

theorem rawTagsOf_cons (t : Token) (tokens : List Token) :
    rawTagsOf (t :: tokens) = rawTagsOf [t] ++ rawTagsOf tokens := rawTagsOf_append [t] tokens

theorem rawTagsOf_of_not {tag : List Char} (h : beginsRaw tag = false) (tokens : List Token) :
    rawTagsOf (.found tag :: tokens) = rawTagsOf tokens :=
  List.filter_cons_of_neg (ne_true_of_eq_false h)

theorem rawTagsOf_filter (tokens : List Token) :
    rawTagsOf (tokens.filter (TagSearch.isOther isCodeTag)) = rawTagsOf tokens := by
  induction tokens with
  | nil => rfl
  | cons t tokens ih =>
    cases t with
    | char c => exact ih
    | found tag =>
      by_cases hcode : isCodeTag tag = true
      · have hnot : ¬ TagSearch.isOther isCodeTag (.found tag) = true := by simp [TagSearch.isOther, hcode]
        rw [List.filter_cons_of_neg hnot, ih, rawTagsOf_of_not (beginsRaw_of_isCodeTag hcode)]
      · have hother : TagSearch.isOther isCodeTag (.found tag) = true := by simp [TagSearch.isOther, hcode]
        rw [List.filter_cons_of_pos hother, rawTagsOf_cons, ih, ← rawTagsOf_cons]

theorem rawTagsOf_merger (tokens : List Token) : rawTagsOf (merger.rewrite tokens) = rawTagsOf tokens := by
  rw [← rawTagsOf_filter, filter_merger, rawTagsOf_filter]

theorem rawTagsOf_blockMarker (tokens : List Token) :
    rawTagsOf ((blockMarker {}).rewrite tokens) = rawTagsOf tokens := by
  induction tokens using (blockMarker {}).rewrite_induction with
  | nil => rw [Rewriter.rewrite_nil]
  | @run tokens out rest hrun ih =>
    have hfound := hrun
    obtain ⟨⟨block, r⟩, hblock, hp⟩ := Option.map_eq_some_iff.1 hrun
    cases hp
    obtain ⟨rfl, hproper⟩ := tokenBlock?_eq_some_iff.1 hblock
    have hpre := opens_of_isStart (c := 'p') rfl hproper.preStart
    have hcode := opens_of_isStart (c := 'c') rfl hproper.codeStart
    have hpreTagged := opens_taggedStart (by decide) (by decide) hpre {}
      ({} : Options).codeBlockClass (languageOf block.codeStart)
    have hcodeTagged := opens_taggedStart (by decide) (by decide) hcode {}
      ({} : Options).codeBlockCodeClass (languageOf block.codeStart)
    have hsame : rawTagsOf (block.marked {}) = rawTagsOf block.source := by
      unfold TokenBlock.marked TokenBlock.source
      dsimp only
      rw [rawTagsOf_of_not (beginsRaw_of_opens hpreTagged (by decide)),
        rawTagsOf_of_not (beginsRaw_of_opens hpre (by decide)), rawTagsOf_append, rawTagsOf_append,
        rawTagsOf_of_not (beginsRaw_of_opens hcodeTagged (by decide)),
        rawTagsOf_of_not (beginsRaw_of_opens hcode (by decide))]
    rw [Rewriter.rewrite_of_run hfound, rawTagsOf_append, rawTagsOf_append, ih, hsame]
  | @step t tokens hrun ih =>
    rw [Rewriter.rewrite_of_not_run hrun, rawTagsOf_cons, ih, ← rawTagsOf_cons]

theorem rawTagsOf_markInline (tokens : List Token) :
    rawTagsOf (markInline {} tokens) = rawTagsOf tokens := by
  induction tokens with
  | nil => rfl
  | cons t tokens ih =>
    have hstep : markInline {} (t :: tokens) =
        TagSearch.edit (isStart "code") (inlineStart {}) t :: markInline {} tokens := rfl
    rw [hstep, rawTagsOf_cons, ih, rawTagsOf_cons t]
    congr 1
    cases t with
    | char c => rfl
    | found tag =>
      rw [TagSearch.edit]
      split
      · next hcode =>
        have hopens := opens_of_isStart (c := 'c') rfl hcode
        rw [rawTagsOf_of_not (beginsRaw_of_opens hopens (by decide)),
          rawTagsOf_of_not (beginsRaw_of_opens (opens_inlineStart hopens {}) (by decide))]
      · rfl

/-- The passes leave the tags of elements whose text is no markup in their order, so these elements are
still ended. -/
theorem TagRule.rawEnded_finishTokens {P : List Char → Prop} {Q : Element → Prop} (hrule : TagRule P Q)
    {tokens : List Token} (h : ∀ t ∈ tokens, ReportToken P t) (hended : RawEnded (tagsOf tokens)) :
    RawEnded (tagsOf (finishTokens {} tokens)) := by
  have hsame : rawTagsOf (finishTokens {} tokens) = rawTagsOf tokens := by
    rw [finishTokens, rawTagsOf_markInline, rawTagsOf_blockMarker, rawTagsOf_merger]
  have hbegins {others : List Token} (hothers : ∀ t ∈ others, ReportToken P t) : ∀ tag ∈ tagsOf others,
      ∀ name, Html.OpensRaw name tag → Html.beginsRaw tag = true := fun tag htag _ =>
    hrule.beginsRaw (of_mem_tagsOf hothers tag htag)
  have hfilter := (Html.rawEnded_filter (hbegins h)).2 hended
  refine (Html.rawEnded_filter (hbegins (reportToken_finishTokens hrule.legible h))).1 ?_
  exact (congrArg RawEnded hsame).mpr hfilter

/-! ## Finished reports -/

/-- Without a highlighter, the passes leave the text that HTML displays. -/
theorem exists_finished_of_displays {options : Options} (htidy : options.Tidy)
    (hnone : options.highlighter = none) {html text : List Char} (h : Displays Escaped html text) :
    ∃ finished, (finishHtml options html).result = .ok finished ∧ Displays Escaped finished text := by
  have hblocks : Displays Escaped (codeBlock.replace
      (fun block => block.tagged options block.language block.content) (mergeFragments html)) text := by
    refine whole_codeBlock.displays_replace writing_escaped (fun hrun => (codeBlock_finds hrun).1) ?_
      (displays_mergeFragments writing_escaped h) ?_
    · rintro block shown -
      exact ⟨_, codeEnd, isTag_codeEnd, rfl⟩
    · intro block _ shown displayed hholds hdisplayed
      obtain ⟨space, code, rfl, hspace, hcode⟩ :=
        exists_displays_of_source writing_escaped hholds hdisplayed
      exact displays_tagged htidy hholds hholds.unbracketed_language hspace hcode
  refine ⟨_, ?_, displays_decorateInline writing_escaped htidy hblocks⟩
  unfold finishHtml decorateBlocks
  rw [hnone]
  rfl

/-- Options that differ from the default ones in the classes of their wrappers. -/
def wrapped (choices whole : List Char) : Options :=
  { choiceWrapperClass := choices, bodyWrapperClass := whole }

theorem tidy_wrapped (choices whole : List Char) : (wrapped choices whole).Tidy :=
  tidy_of_defaults none choices whole

/-- The question of a report is written from what the passes make of the tokens of the item body. -/
theorem exists_item_of_writeTokens {root body : Element} {expected choices whole : List Char}
    {tokens : List Token} (hbody : findBody expected root = .ok body) (htokens : Tokens tokens)
    (htext : writeTokens tokens = renderBody (wrapped choices whole) body) :
    ∃ item, (render (wrapped choices whole) expected root).result = .ok item ∧
      item.question = writeTokens (finishTokens {} tokens) ∧ Tokens (finishTokens {} tokens) := by
  have htidy := tidy_wrapped choices whole
  have hfinished := finishHtml_writeTokens htidy rfl htokens
  rw [htext] at hfinished
  obtain ⟨item, hitem, hquestion⟩ := exists_item_of_finishHtml hbody hfinished
  exact ⟨item, hitem, hquestion, tokens_finishTokens htidy htokens⟩

/-- The body of an item is rendered from tags with the property. -/
theorem TagRule.madeEnded_renderBody {P : List Char → Prop} {Q : Element → Prop} (h : TagRule P Q)
    {body : Element} (hnodes : NamedNodes body.children) (hQ : ∀ e ∈ reachedIn body.children, Q e)
    (choices whole : List Char) : MadeEnded P (renderBody (wrapped choices whole) body) :=
  have hkept := h.keptByRendering (rfl : (wrapped choices whole).cloze = ({} : Options).cloze)
  h.madeEnded_div (readablePart_class _) (attributePart_bodyWrapper _)
    (hkept.nodes Spacing.root hnodes hQ)

/-- The question of a report displays the text of the item body, by tags that can be read, if the names of
all elements that are reached can be read and no value of an element named like code holds an equals
sign. -/
theorem exists_legible_question {source : Source} {root body : Element} {expected : List Char}
    (hread : readDocument source = .ok root) (hbody : findBody expected root = .ok body)
    (hvalues : WithoutEqualsSigns body)
    (hnames : ∀ e ∈ reachedIn body.children, ReadableName (htmlName e.name)) :
    ∃ item, (render {} expected root).result = .ok item ∧
      Displays Escaped item.question (shownText body) ∧
      (∀ tag ∈ anyTag.findAll item.question, Legible tag) ∧ RawEnded (anyTag.findAll item.question) := by
  have hnodes := namedNodes_of_findBody hread hbody
  have hreadable : ∀ e ∈ reachedIn body.children, ReadableElement e := fun e he =>
    ⟨hnames e he, spelledReadably_startOf (named_of_mem_reachedIn hnodes he) (hvalues e he)⟩
  obtain ⟨tokens, htokens, hlegible, hended, htext⟩ := tagRule_legible.madeEnded_renderBody hnodes
    hreadable ({} : Options).choiceWrapperClass ({} : Options).bodyWrapperClass
  obtain ⟨finished, hfinished, hdisplays⟩ :=
    exists_finished_of_displays tidy_default rfl (displays_renderBody tidy_default hnodes)
  obtain ⟨item, hitem, rfl⟩ := exists_item_of_finishHtml hbody hfinished
  obtain ⟨other, hother, hquestion, htokensFinished⟩ := exists_item_of_writeTokens hbody htokens htext
  obtain rfl := Except.ok.inj (hitem.symm.trans hother)
  refine ⟨item, hitem, hdisplays, ?_⟩
  rw [hquestion, findAll_anyTag_writeTokens htokensFinished]
  exact ⟨of_mem_tagsOf (reportToken_finishTokens tagRule_legible.legible hlegible),
    tagRule_legible.rawEnded_finishTokens hlegible hended⟩

end Assessment.Report
