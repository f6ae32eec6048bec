import Assessment.Proofs.Html.Shuffled
import Assessment.Proofs.Scoring.Prompt
import Assessment.Scoring.Item

/-!
# Proofs: responses land in their blanks

Filling a prompt goes through the elements in document order and gives each blank the next response, so
the `k`-th blank gets the `k`-th one (`blanks_updateAll`). Apart from the values and the widths of the
blanks the tree stays as it is (`AlikeAll`), and printing and reading it again changes nothing but the
order of attributes.
-/

namespace Assessment

open Assessment.Html Assessment.Text

namespace Responses

/-! ## Trees that differ in values and widths of blanks -/

/-- The attributes of a blank that depend on the response. -/
def responseNames : List (List Char) := ["value".toList, "size".toList]

/-- The attribute of the element does not depend on the responses. -/
def IsFixed (name : List Char) (attributes : Attributes) (key : List Char) : Prop :=
  isBlankInput name attributes → key ∉ responseNames

mutual

/-- The nodes are equal, except for the values and widths of blanks and the order of attributes. -/
def Alike : Node → Node → Prop
  | .text s, .text t => s = t
  | .special kind s, .special otherKind t => kind = otherKind ∧ s = t
  | .element name attributes children, .element otherName otherAttributes others =>
    name = otherName ∧
      (∀ key, IsFixed name attributes key → attributes.get? key = otherAttributes.get? key) ∧
      AlikeAll children others
  | _, _ => False

/-- The nodes are equal one by one, except for the values and widths of blanks and the order of
attributes. -/
def AlikeAll : List Node → List Node → Prop
  | [], [] => True
  | node :: nodes, other :: others => Alike node other ∧ AlikeAll nodes others
  | _, _ => False

end

theorem isFixed_class (name : List Char) (attributes : Attributes) :
    IsFixed name attributes "class".toList := fun _ => by decide

theorem isBlankInput_congr {attributes others : Attributes}
    (h : attributes.get? "class".toList = others.get? "class".toList) (name : List Char) :
    isBlankInput name attributes = isBlankInput name others := by
  rw [isBlankInput, isBlankInput, h]

mutual

theorem Alike.trans : ∀ {node other third : Node}, Alike node other → Alike other third →
    Alike node third
  | .text _, .text _, .text _, h, h' => Eq.trans h h'
  | .special _ _, .special _ _, .special _ _, h, h' => ⟨h.1.trans h'.1, h.2.trans h'.2⟩
  | .element name attributes _, .element _ others _, .element _ _ _, h, h' => by
    obtain ⟨rfl, hattributes, hchildren⟩ := h
    obtain ⟨rfl, hattributes', hchildren'⟩ := h'
    have hblank : isBlankInput name attributes = isBlankInput name others :=
      isBlankInput_congr (hattributes _ (isFixed_class name attributes)) name
    refine ⟨rfl, fun key hkey => ?_, AlikeAll.trans hchildren hchildren'⟩
    have hkey' : IsFixed name others key := fun hinput => hkey (by rw [hblank, hinput])
    rw [hattributes key hkey, hattributes' key hkey']

theorem AlikeAll.trans : ∀ {nodes others thirds : List Node}, AlikeAll nodes others →
    AlikeAll others thirds → AlikeAll nodes thirds
  | [], [], [], _, _ => trivial
  | _ :: _, _ :: _, _ :: _, h, h' => ⟨Alike.trans h.1 h'.1, AlikeAll.trans h.2 h'.2⟩

end

section Updating

variable {σ : Type} {f : σ → List Char → Attributes → Attributes × σ}

open Node

mutual

theorem alike_update
    (hf : ∀ known name attributes, RegularTag name attributes →
      ∀ key, IsFixed name (f known name attributes).1 key →
        (f known name attributes).1.get? key = attributes.get? key) (known : σ) :
    ∀ {node : Node}, Regular node → Alike (update f known node).1 node
  | .text s, _ => by
    rw [update]
    rfl
  | .element name attributes children, h => by
    rw [update]
    exact ⟨rfl, hf known name attributes h.1, alikeAll_updateAll hf _ h.2.2⟩

/-- Changing attributes that depend on the responses gives nodes that are alike. -/
theorem alikeAll_updateAll
    (hf : ∀ known name attributes, RegularTag name attributes →
      ∀ key, IsFixed name (f known name attributes).1 key →
        (f known name attributes).1.get? key = attributes.get? key) (known : σ) :
    ∀ {nodes : List Node}, RegularAll nodes → AlikeAll (updateAll f known nodes).1 nodes
  | [], _ => by
    rw [updateAll]
    trivial
  | node :: nodes, h => by
    rw [updateAll]
    exact ⟨alike_update hf known h.1, alikeAll_updateAll hf _ h.2⟩

end

end Updating

theorem alikeAll_sorted {nodes : List Node} (h : Node.RegularAll nodes) :
    AlikeAll (sorted nodes) nodes :=
  alikeAll_updateAll (fun _ _ attributes htag key _ =>
    Attributes.get?_of_perm (perm_sortAttributes attributes) htag.sortAttributes.distinct key) () h

/-- Sorting attributes sorts those of the blanks. -/
theorem blanks_sorted : ∀ {nodes : List Node}, Node.RegularAll nodes →
    blanks (sorted nodes) = (blanks nodes).map sortAttributes
  | [], _ => rfl
  | .text s :: nodes, h => @blanks_sorted nodes h.2
  | .element name attributes children :: nodes, h => by
    obtain ⟨⟨htag, -, hchildren⟩, hnodes⟩ := h
    have hinput : isBlankInput name (sortAttributes attributes) = isBlankInput name attributes :=
      isBlankInput_congr (Attributes.get?_of_perm (perm_sortAttributes attributes)
        htag.sortAttributes.distinct _) name
    have hunfold : sorted (.element name attributes children :: nodes) =
        .element name (sortAttributes attributes) (sorted children) :: sorted nodes := rfl
    rw [hunfold, Scoring.blanks_cons_element, Scoring.blanks_cons_element, hinput,
      blanks_sorted hchildren, blanks_sorted hnodes, List.map_append, List.map_append]
    split
    · rfl
    · rfl

/-! ## Filling -/

/-- The attributes of a blank that gets a response. -/
def Entry.fill (attributes : Attributes) : Entry → Attributes
  | .skip => attributes
  | .text s => filled s s.length attributes
  | .words ws => filled (joinWith [' '] ws) ws.length attributes
  | .other => attributes

/-- The blanks with the responses, one for each as long as there are any. -/
def fillBlanks : List Entry → List Attributes → List Attributes
  | _, [] => []
  | [], blanks => blanks
  | entry :: entries, blank :: blanks => entry.fill blank :: fillBlanks entries blanks

theorem fillBlanks_nil (blanks : List Attributes) : fillBlanks [] blanks = blanks := by
  cases blanks <;> rfl

theorem fillBlanks_append (entries : List Entry) (blanks more : List Attributes) :
    fillBlanks entries (blanks ++ more) =
      fillBlanks entries blanks ++ fillBlanks (entries.drop blanks.length) more := by
  induction blanks generalizing entries with
  | nil => simp [fillBlanks]
  | cons blank blanks ih =>
    cases entries with
    | nil => simp [fillBlanks_nil]
    | cons entry entries => simp [fillBlanks, ih]

theorem length_fillBlanks (entries : List Entry) (blanks : List Attributes) :
    (fillBlanks entries blanks).length = blanks.length := by
  induction blanks generalizing entries with
  | nil => simp [fillBlanks]
  | cons blank blanks ih =>
    cases entries with
    | nil => rw [fillBlanks_nil]
    | cons entry entries => simp [fillBlanks, ih]

theorem getElem?_fillBlanks (entries : List Entry) (blanks : List Attributes) (k : Nat) :
    (fillBlanks entries blanks)[k]? =
      blanks[k]?.map fun blank => (entries[k]?.map (Entry.fill blank)).getD blank := by
  induction blanks generalizing entries k with
  | nil => simp [fillBlanks]
  | cons blank blanks ih =>
    cases entries with
    | nil => simp [fillBlanks_nil]
    | cons entry entries =>
      cases k with
      | zero => simp [fillBlanks]
      | succ k => simpa [fillBlanks] using ih entries k

theorem get?_filled_of_fixed {key : List Char} (hkey : key ∉ responseNames) (value : List Char)
    (size : Nat) (attributes : Attributes) :
    (filled value size attributes).get? key = attributes.get? key := by
  simp only [responseNames, List.mem_cons, List.not_mem_nil, or_false, not_or] at hkey
  rw [filled, Attributes.get?_put, if_neg hkey.2, Attributes.get?_put, if_neg hkey.1]

theorem get?_value_filled (value : List Char) (size : Nat) (attributes : Attributes) :
    (filled value size attributes).get? "value".toList = some value := by
  rw [filled, Attributes.get?_put, if_neg (by decide), Attributes.get?_put, if_pos rfl]

theorem get?_size_filled (value : List Char) (size : Nat) (attributes : Attributes) :
    (filled value size attributes).get? "size".toList = some (Number.decimal (blankSize size)) := by
  rw [filled, Attributes.get?_put, if_pos rfl]

theorem Entry.get?_fill {key : List Char} (hkey : key ∉ responseNames) (entry : Entry)
    (attributes : Attributes) : (entry.fill attributes).get? key = attributes.get? key := by
  cases entry with
  | skip => rfl
  | text s => exact get?_filled_of_fixed hkey s s.length attributes
  | words ws => exact get?_filled_of_fixed hkey _ ws.length attributes
  | other => rfl

/-- A blank gets the next response. -/
theorem fillElement_of_blank {name : List Char} {attributes : Attributes}
    (h : isBlankInput name attributes) (filling : Filling) :
    fillElement filling name attributes =
      ((filling.entries.head?.map (Entry.fill attributes)).getD attributes,
        (fillElement filling name attributes).2) ∧
      (fillElement filling name attributes).2.entries = filling.entries.tail := by
  obtain ⟨entries, count, failed⟩ := filling
  simp only [fillElement, h, if_true]
  cases entries with
  | nil => exact ⟨rfl, rfl⟩
  | cons entry entries => cases entry <;> exact ⟨rfl, rfl⟩

/-- Another element stays as it is. -/
theorem fillElement_of_not_blank {name : List Char} {attributes : Attributes}
    (h : ¬ isBlankInput name attributes) (filling : Filling) :
    fillElement filling name attributes = (attributes, filling) := by
  rw [fillElement, if_neg h]

/-- Only attributes that depend on the responses are changed. -/
theorem get?_fillElement (filling : Filling) (name : List Char) (attributes : Attributes)
    (key : List Char) (hkey : IsFixed name (fillElement filling name attributes).1 key) :
    (fillElement filling name attributes).1.get? key = attributes.get? key := by
  by_cases h : isBlankInput name attributes
  · have hfirst := (fillElement_of_blank h filling).1
    have hget : ∀ {other : List Char}, other ∉ responseNames →
        (fillElement filling name attributes).1.get? other = attributes.get? other := by
      intro other hother
      rw [hfirst]
      cases filling.entries.head? with
      | none => rfl
      | some entry => exact entry.get?_fill hother attributes
    have hclass := @hget "class".toList (by decide)
    exact hget (hkey (by rw [isBlankInput_congr hclass name, h]))
  · rw [fillElement_of_not_blank h]

theorem isBlankInput_fillElement (filling : Filling) (name : List Char) (attributes : Attributes) :
    isBlankInput name (fillElement filling name attributes).1 = isBlankInput name attributes :=
  isBlankInput_congr (get?_fillElement filling name attributes _ (isFixed_class _ _)) name

open Node

/-- Filling gives the blanks the responses in document order. -/
theorem blanks_updateAll : ∀ (nodes : List Node) (filling : Filling),
    blanks (updateAll fillElement filling nodes).1 = fillBlanks filling.entries (blanks nodes) ∧
      (updateAll fillElement filling nodes).2.entries =
        filling.entries.drop (blanks nodes).length
  | [], filling => ⟨by simp [updateAll, blanks, elementsOf, fillBlanks], rfl⟩
  | .text s :: nodes, filling => blanks_updateAll nodes filling
  | .special kind s :: nodes, filling => blanks_updateAll nodes filling
  | .element name attributes children :: nodes, filling => by
    have hinput := isBlankInput_fillElement filling name attributes
    generalize hchanged : fillElement filling name attributes = changed at hinput
    obtain ⟨h1, h2⟩ := blanks_updateAll children changed.2
    obtain ⟨h3, h4⟩ := blanks_updateAll nodes (updateAll fillElement changed.2 children).2
    have hunfold : updateAll fillElement filling (.element name attributes children :: nodes) =
        (.element name changed.1 (updateAll fillElement changed.2 children).1 ::
            (updateAll fillElement (updateAll fillElement changed.2 children).2 nodes).1,
          (updateAll fillElement (updateAll fillElement changed.2 children).2 nodes).2) := by
      rw [updateAll, update, hchanged]
    rw [hunfold, Scoring.blanks_cons_element, Scoring.blanks_cons_element, hinput, h1, h3, h4, h2]
    by_cases h : isBlankInput name attributes
    · obtain ⟨hfirst, hrest⟩ := fillElement_of_blank h filling
      rw [hchanged] at hfirst hrest
      have hhead : fillBlanks filling.entries (attributes :: (blanks children ++ blanks nodes)) =
          changed.1 :: fillBlanks changed.2.entries (blanks children ++ blanks nodes) := by
        rw [hfirst, hrest]
        cases filling.entries with
        | nil => simp [fillBlanks_nil]
        | cons entry entries => rfl
      simp only [if_pos h, List.singleton_append, hhead, fillBlanks_append, List.length_cons,
        List.length_append, hrest, List.drop_drop, true_and]
      rw [← List.drop_one, List.drop_drop]
      congr 1
      omega
    · have hsame : changed = (attributes, filling) := by
        rw [← hchanged, fillElement_of_not_blank h]
      simp [if_neg h, hsame, fillBlanks_append, List.drop_drop]

theorem fillElement_spec (filling : Filling) (name : List Char) (attributes : Attributes)
    (h : ∀ entry ∈ filling.entries, entry ≠ .other) :
    (fillElement filling name attributes).2.failed = filling.failed ∧
      ∀ entry ∈ (fillElement filling name attributes).2.entries, entry ≠ .other := by
  obtain ⟨entries, count, failed⟩ := filling
  rw [fillElement]
  split
  · cases entries with
    | nil => exact ⟨rfl, h⟩
    | cons entry entries =>
      have hrest : ∀ next ∈ entries, next ≠ .other := fun next hnext =>
        h next (List.mem_cons_of_mem _ hnext)
      cases entry with
      | skip => exact ⟨rfl, hrest⟩
      | text s => exact ⟨rfl, hrest⟩
      | words ws => exact ⟨rfl, hrest⟩
      | other => exact absurd rfl (h .other (by simp))
  · exact ⟨rfl, h⟩

/-- Filling does not fail if every response is one that blanks take. -/
theorem failed_updateAll : ∀ (nodes : List Node) (filling : Filling),
    (∀ entry ∈ filling.entries, entry ≠ .other) →
      (updateAll fillElement filling nodes).2.failed = filling.failed
  | [], filling, _ => rfl
  | .text s :: nodes, filling, h => failed_updateAll nodes filling h
  | .special kind s :: nodes, filling, h => failed_updateAll nodes filling h
  | .element name attributes children :: nodes, filling, h => by
    obtain ⟨hfailed, hentries⟩ := fillElement_spec filling name attributes h
    have hchildren := failed_updateAll children _ hentries
    have hnodes := failed_updateAll nodes
      (updateAll fillElement (fillElement filling name attributes).2 children).2 fun entry hentry => by
        rw [(blanks_updateAll children _).2] at hentry
        exact hentries entry (List.mem_of_mem_drop hentry)
    rw [updateAll, update, hnodes, hchildren, hfailed]

theorem Entry.regularTag_fill {attributes : Attributes} (h : RegularTag "input".toList attributes)
    (entry : Entry) : RegularTag "input".toList (entry.fill attributes) := by
  have hfilled : ∀ value size, RegularTag "input".toList (filled value size attributes) :=
    fun value size => (h.put (by decide) (by decide) value).put (by decide) (by decide) _
  cases entry with
  | skip => exact h
  | text s => exact hfilled s s.length
  | words ws => exact hfilled _ ws.length
  | other => exact h

theorem regularTag_fillElement (filling : Filling) (name : List Char) (attributes : Attributes)
    (h : RegularTag name attributes) : RegularTag name (fillElement filling name attributes).1 := by
  by_cases hblank : isBlankInput name attributes
  · have hname : name = "input".toList := by
      simp only [isBlankInput, Bool.and_eq_true] at hblank
      exact eq_of_beq hblank.1
    rw [(fillElement_of_blank hblank filling).1]
    subst hname
    cases filling.entries.head? with
    | none => exact h
    | some entry => exact entry.regularTag_fill h
  · rw [fillElement_of_not_blank hblank]
    exact h

/-! ## Filled prompts -/

/-- What a response is to a blank. -/
def Entry.ofResponse : Option (List Char) → Entry
  | none => skip
  | some s => text s

theorem ofResponse_ne_other {responses : List (Option (List Char))} :
    ∀ entry ∈ responses.map Entry.ofResponse, entry ≠ .other := by
  intro entry hentry
  obtain ⟨response, -, rfl⟩ := List.mem_map.1 hentry
  cases response <;> simp [Entry.ofResponse]

/-- A blank with its number and the response to it. -/
def Answers (number : Nat) (response : Option (List Char)) (attributes : Attributes) : Prop :=
  attributes.get? "data-blank".toList = some (Number.decimal number) ∧
    match response with
    | some s =>
      attributes.get? "value".toList = some s ∧
        attributes.get? "size".toList = some (Number.decimal (max 6 s.length))
    | none =>
      attributes.get? "value".toList = none ∧ attributes.get? "size".toList = some "6".toList

/-- A blank of a prompt with the default options answers with the response that it gets. -/
theorem answers_fill (number : Nat) (response : Option (List Char)) :
    Answers number response
      ((Entry.ofResponse response).fill (Scoring.blankAttributed number).read) := by
  cases response with
  | none => exact ⟨rfl, rfl, rfl⟩
  | some s =>
    refine ⟨?_, get?_value_filled s s.length _, get?_size_filled s s.length _⟩
    exact (get?_filled_of_fixed (by decide) s s.length _).trans rfl

theorem Answers.sortAttributes {number : Nat} {response : Option (List Char)}
    {attributes : Attributes} (h : Answers number response attributes)
    (hdistinct : (attributes.map (·.1)).Nodup) :
    Answers number response (sortAttributes attributes) := by
  have hget : ∀ name, (Html.sortAttributes attributes).get? name = attributes.get? name := fun name =>
    (Attributes.get?_of_perm (perm_sortAttributes attributes).symm hdistinct name).symm
  unfold Answers at h ⊢
  rw [hget, hget, hget]
  exact h

section Prompts

variable (nodes : List Xml.Node)

/-- A filled prompt is printed and read as the same nodes with sorted attributes. -/
theorem parse_filled (entries : List Entry) :
    parse (serialize (fill entries (Scoring.promptNodes nodes)).1) =
      some (sorted (fill entries (Scoring.promptNodes nodes)).1) :=
  parse_serialize
    (Scoring.regularAll_promptNodes nodes |> regularAll_updateAll regularTag_fillElement _)
    (tight_updateAll _ (Scoring.tight_promptNodes nodes))

/-- The blanks of a filled prompt answer one by one. -/
theorem answers_filled (responses : List (Option (List Char))) :
    (blanks (sorted (fill (responses.map Entry.ofResponse) (Scoring.promptNodes nodes)).1)).length =
        (Scoring.renderNodes {} Item.Spacing.root 0 nodes).blanks ∧
      ∀ k attributes,
        (blanks (sorted (fill (responses.map Entry.ofResponse) (Scoring.promptNodes nodes)).1))[k]? =
            some attributes →
          Answers (k + 1) (responses[k]?.getD none) attributes := by
  have hregular := regularAll_updateAll regularTag_fillElement
    ⟨responses.map Entry.ofResponse, 0, false⟩ (Scoring.regularAll_promptNodes nodes)
  have hblanks := (blanks_updateAll (Scoring.promptNodes nodes)
    ⟨responses.map Entry.ofResponse, 0, false⟩).1
  rw [Scoring.blanks_promptNodes] at hblanks
  rw [fill, blanks_sorted hregular, hblanks]
  refine ⟨by rw [List.length_map, length_fillBlanks, List.length_map, List.length_range'],
    fun k attributes hk => ?_⟩
  rw [List.getElem?_map, getElem?_fillBlanks, List.getElem?_map, List.getElem?_map] at hk
  obtain ⟨blank, hblank, rfl⟩ := Option.map_eq_some_iff.1 hk
  obtain ⟨unfilled, hunfilled, rfl⟩ := Option.map_eq_some_iff.1 hblank
  obtain ⟨index, hindex, rfl⟩ := Option.map_eq_some_iff.1 hunfilled
  obtain ⟨hlt, rfl⟩ := List.getElem?_eq_some_iff.1 hindex
  have hfill : (((responses[k]?.map Entry.ofResponse).map
      (Entry.fill (Scoring.blankAttributed (k + 1)).read)).getD
        (Scoring.blankAttributed (k + 1)).read) =
      (Entry.ofResponse (responses[k]?.getD none)).fill (Scoring.blankAttributed (k + 1)).read := by
    cases responses[k]? <;> rfl
  rw [List.getElem_range', Nat.one_mul, Nat.add_comm 1 k, hfill]
  exact (answers_fill (k + 1) _).sortAttributes
    (Entry.regularTag_fill (Scoring.regularTag_blank (k + 1)) _).distinct

/-- A filled prompt is alike the prompt. -/
theorem alikeAll_filled (entries : List Entry) :
    AlikeAll (sorted (fill entries (Scoring.promptNodes nodes)).1) (Scoring.promptNodes nodes) := by
  have hregular := Scoring.regularAll_promptNodes nodes
  have hfilled := alikeAll_updateAll (f := fillElement)
    (fun filling name attributes _ => get?_fillElement filling name attributes) ⟨entries, 0, false⟩
    hregular
  exact (alikeAll_sorted (regularAll_updateAll regularTag_fillElement _ hregular)).trans hfilled

/-- Where there is no response to take or no blank to take one, the prompt answers as it is. -/
theorem answers_unfilled {responses : List (Option (List Char))}
    (h : responses = [] ∨ (Scoring.renderNodes {} Item.Spacing.root 0 nodes).blanks = 0) :
    ∀ k attributes, (blanks (Scoring.promptNodes nodes))[k]? = some attributes →
      Answers (k + 1) (responses[k]?.getD none) attributes := by
  intro k attributes hk
  rw [Scoring.blanks_promptNodes, List.getElem?_map] at hk
  obtain ⟨index, hindex, rfl⟩ := Option.map_eq_some_iff.1 hk
  obtain ⟨hlt, rfl⟩ := List.getElem?_eq_some_iff.1 hindex
  rcases h with rfl | hzero
  · rw [List.getElem_range', Nat.one_mul, Nat.add_comm 1 k]
    exact answers_fill (k + 1) none
  · rw [List.length_range', hzero] at hlt
    cases hlt

end Prompts

mutual

theorem Alike.refl : ∀ node : Node, Alike node node
  | .text _ => rfl
  | .special _ _ => ⟨rfl, rfl⟩
  | .element _ _ children => ⟨rfl, fun _ _ => rfl, AlikeAll.refl children⟩

theorem AlikeAll.refl : ∀ nodes : List Node, AlikeAll nodes nodes
  | [] => trivial
  | node :: nodes => ⟨Alike.refl node, AlikeAll.refl nodes⟩

end

/-- HTML stays as it is where there is no response to take or no blank to take one. -/
theorem apply_of_nothing {html : List Char} {nodes : List Node} (hparse : parse html = some nodes)
    {responses : List (Option (List Char))} (h : responses = [] ∨ blanks nodes = []) :
    apply (.ok defaultBuilder) (.many (responses.map Entry.ofResponse)) html = .ok (html, []) := by
  have hread := read_of_parse (by decide : defaultBuilder ∈ builderNames) hparse
  unfold apply
  split
  · rfl
  · cases responses with
    | nil => rfl
    | cons response responses =>
      have hblanks : blanks nodes = [] := h.resolve_left (List.cons_ne_nil _ _)
      simp only [Response.toList, List.map_cons, List.isEmpty_cons, Except.mapError, hread, hblanks,
        bind, Except.bind, pure, Except.pure, List.length_nil, if_true, Bool.false_eq_true, if_false]

/-- HTML that shows the class of its blanks is filled and printed, whatever responses there are that blanks
take. -/
theorem apply_of_entries {builder html : List Char} {nodes : List Node}
    (hbuilder : builder ∈ builderNames) (hparse : parse html = some nodes)
    (hoccurs : occursIn blankClass html) {entries : List Entry} (hentries : entries ≠ [])
    (hother : ∀ entry ∈ entries, entry ≠ .other) (hblanks : blanks nodes ≠ []) :
    ∃ log, apply (.ok builder) (.many entries) html = .ok (serialize (fill entries nodes).1, log) := by
  have hread := read_of_parse hbuilder hparse
  have hfailed : (fill entries nodes).2.failed = false := failed_updateAll nodes ⟨entries, 0, false⟩ hother
  have hsome : entries.isEmpty = false := by simpa using hentries
  have hcount : (blanks nodes).length ≠ 0 := fun hzero => hblanks (List.eq_nil_of_length_eq_zero hzero)
  unfold apply
  rw [hoccurs]
  simp only [Response.toList, hsome, Except.mapError, hread, hcount, hfailed, bind, Except.bind, pure,
    Except.pure, if_false, Bool.not_true, Bool.false_eq_true]
  exact ⟨_, rfl⟩

/-- HTML that shows the class of its blanks is filled and printed. -/
theorem apply_of_blanks {html : List Char} {nodes : List Node} (hparse : parse html = some nodes)
    (hoccurs : occursIn blankClass html) {responses : List (Option (List Char))}
    (hresponses : responses ≠ []) (hblanks : blanks nodes ≠ []) :
    ∃ log, apply (.ok defaultBuilder) (.many (responses.map Entry.ofResponse)) html =
      .ok (serialize (fill (responses.map Entry.ofResponse) nodes).1, log) :=
  apply_of_entries (by decide) hparse hoccurs (by simpa using hresponses) ofResponse_ne_other hblanks

/-- What is made of a prompt: it stays as it is where there is nothing to do, and else it is filled and
printed. -/
theorem apply_prompt (nodes : List Xml.Node) (responses : List (Option (List Char))) :
    ∃ html log, apply (.ok defaultBuilder) (.many (responses.map Entry.ofResponse))
        (Scoring.renderNodes {} Item.Spacing.root 0 nodes).html = .ok (html, log) ∧
      (html = (Scoring.renderNodes {} Item.Spacing.root 0 nodes).html ∧
          (responses = [] ∨ (Scoring.renderNodes {} Item.Spacing.root 0 nodes).blanks = 0) ∨
        html = serialize
          (fill (responses.map Entry.ofResponse) (Scoring.promptNodes nodes)).1) := by
  have hparse := Scoring.parse_renderNodes nodes
  have hnone := @Scoring.blanks_promptNodes_eq_nil_iff nodes
  by_cases hnothing : responses = [] ∨ blanks (Scoring.promptNodes nodes) = []
  · exact ⟨_, [], apply_of_nothing hparse hnothing, .inl ⟨rfl, hnothing.imp_right hnone.1⟩⟩
  · obtain ⟨hresponses, hblanks⟩ := not_or.1 hnothing
    obtain ⟨log, happly⟩ := apply_of_blanks hparse
      (Scoring.occursIn_blankClass (mt hnone.2 hblanks)) hresponses hblanks
    exact ⟨_, log, happly, .inr rfl⟩

theorem prompt_of_render {root : Xml.Element} {item : Scoring.ScoringItem}
    (h : Scoring.render {} root = .ok item) :
    ∃ nodes : List Xml.Node,
      item.prompt = (Scoring.renderNodes {} Item.Spacing.root 0 nodes).html ∧
        item.promptBlanks = (Scoring.renderNodes {} Item.Spacing.root 0 nodes).blanks := by
  unfold Scoring.render at h
  cases hbody : Scoring.itemBody? root with
  | none =>
    rw [hbody] at h
    cases h
  | some body =>
    rw [hbody] at h
    cases h
    exact ⟨body.children, rfl, rfl⟩

/-- Responses land in their blanks: the blanks of a filled prompt are numbered from one on, each holds
its response exactly and is as wide as that, and all else is as it was. -/
theorem responses_land_in_blanks {root : Xml.Element} {item : Scoring.ScoringItem}
    (h : Scoring.render {} root = .ok item) (responses : List (Option (List Char))) :
    ∃ prompt html log filledPrompt,
      parse item.prompt = some prompt ∧ (blanks prompt).length = item.promptBlanks ∧
        apply (.ok defaultBuilder) (.many (responses.map Entry.ofResponse)) item.prompt =
          .ok (html, log) ∧
        parse html = some filledPrompt ∧ (blanks filledPrompt).length = item.promptBlanks ∧
        (∀ k attributes, (blanks filledPrompt)[k]? = some attributes →
          Answers (k + 1) (responses[k]?.getD none) attributes) ∧
        AlikeAll filledPrompt prompt := by
  obtain ⟨nodes, hprompt, hblanks⟩ := prompt_of_render h
  have hparse := Scoring.parse_renderNodes nodes
  have hcount : (blanks (Scoring.promptNodes nodes)).length =
      (Scoring.renderNodes {} Item.Spacing.root 0 nodes).blanks := by
    rw [Scoring.blanks_promptNodes, List.length_map, List.length_range']
  obtain ⟨html, log, happly, ⟨rfl, hnothing⟩ | rfl⟩ := apply_prompt nodes responses
  · rw [hprompt, hblanks]
    exact ⟨_, _, log, _, hparse, hcount, happly, hparse, hcount, answers_unfilled nodes hnothing,
      AlikeAll.refl _⟩
  · obtain ⟨hlength, hanswers⟩ := answers_filled nodes responses
    rw [hprompt, hblanks]
    exact ⟨_, _, log, _, hparse, hcount, happly, parse_filled nodes _, hlength, hanswers,
      alikeAll_filled nodes _⟩

/-- An item with one blank. -/
def itemWithBlank : Xml.Element :=
  ⟨"qti-assessment-item".toList, [],
    [.element "qti-item-body".toList []
      [.element "qti-p".toList [] [.text "1 < ".toList, .element Scoring.blankName [] []]]]⟩

theorem response_lands_in_itemWithBlank :
    ∃ item, Scoring.render {} itemWithBlank = .ok item ∧ item.promptBlanks = 1 ∧
      ∃ prompt html log filledPrompt,
        parse item.prompt = some prompt ∧ (blanks prompt).length = item.promptBlanks ∧
          apply (.ok defaultBuilder) (.many ([some "\"&'".toList].map Entry.ofResponse)) item.prompt =
            .ok (html, log) ∧
          parse html = some filledPrompt ∧ (blanks filledPrompt).length = item.promptBlanks ∧
          (∀ k attributes, (blanks filledPrompt)[k]? = some attributes →
            Answers (k + 1) ([some "\"&'".toList][k]?.getD none) attributes) ∧
          AlikeAll filledPrompt prompt :=
  ⟨_, rfl, rfl, @responses_land_in_blanks itemWithBlank _ rfl [some "\"&'".toList]⟩

end Responses

end Assessment
