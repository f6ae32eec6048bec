import Assessment.Proofs.Report.Clozes
import Assessment.Proofs.Scoring.DocumentOrder

/-!
# Proofs: the same blanks for scorers and in reports

The two views reach the same blanks of an item body, as long as no choices are looked up and no image or
line without a prefix holds elements: that is where their rules differ. So as many blanks are numbered
for a scorer as tags of blanks stand in the report (`promptBlanks_eq_occurrences`).
-/

namespace Assessment.Views

open Assessment.Item Assessment.Text Assessment.Xml Assessment.Markup
open Assessment.Report (reachedOf reachedIn isTextEntry isTextual silentNames clozeTag)
open Assessment.Scoring (interactionName endNames blankName blankPlacesOf blankPlaces)

/-- The names of images and lines, with the prefix and without. -/
def flatNames : List (List Char) :=
  ["qti-img".toList, "img".toList, "qti-hr".toList, "hr".toList]

/-- An element that both views treat alike: it is no choice interaction, and it holds no elements if it is
an image or a line. -/
structure Alike (e : Element) : Prop where
  /-- No choices are looked up below it. -/
  noInteraction : e.name ≠ interactionName
  /-- An image or a line holds no elements. -/
  flat : flatNames.contains e.name → e.children.all isTextual

instance (e : Element) : Decidable (Alike e) :=
  decidable_of_iff (e.name ≠ interactionName ∧
      (flatNames.contains e.name → e.children.all isTextual))
    ⟨fun h => ⟨h.1, h.2⟩, fun h => ⟨h.noInteraction, h.flat⟩⟩

/-! ## The blanks that are reached -/

theorem silentNames_cases {name : List Char} (h : silentNames.contains name) :
    name ∈ endNames ∨ flatNames.contains name := by
  have hall : ∀ name ∈ silentNames, name ∈ endNames ∨ flatNames.contains name := by decide
  exact hall name (List.contains_iff_mem.1 h)

theorem endNames_subset {name : List Char} (h : name ∈ endNames) : silentNames.contains name := by
  have hall : ∀ name ∈ endNames, silentNames.contains name := by decide
  exact hall name h

theorem blankPlaces_of_textual (i : Nat) {nodes : List Node} (h : nodes.all isTextual) :
    blankPlaces i nodes = [] := by
  induction nodes generalizing i with
  | nil => rw [blankPlaces]
  | cons node nodes ih =>
    rw [List.all_cons, Bool.and_eq_true] at h
    rw [blankPlaces, ih (i + 1) h.2, List.append_nil]
    cases node with
    | text s => simp [blankPlacesOf]
    | comment s => simp [blankPlacesOf]
    | element tag attributes children => cases h.1

/-- The blanks of an element that looks up no choices. -/
theorem blankPlacesOf_element {tag : List Char} (attributes : Attributes) (children : List Node)
    (h : localName tag ≠ interactionName) :
    blankPlacesOf (.element tag attributes children) =
      if localName tag = blankName then [[]]
      else if localName tag ∈ endNames then [] else blankPlaces 0 children := by
  have hblank := @Scoring.Rule.ofName_eq_blank_iff (localName tag)
  have hchoices := @Scoring.Rule.ofName_eq_choices_iff (localName tag)
  have hgoes := @Scoring.Rule.goesOn_ofName_iff (localName tag)
  rw [blankPlacesOf]
  split
  · next hrule => rw [if_pos (hblank.1 hrule)]
  · next hrule => exact absurd (hchoices.1 hrule) h
  · next rule hnot _ =>
    rw [if_neg fun hname => hnot (hblank.2 hname)]
    by_cases hend : localName tag ∈ endNames
    · rw [if_pos hend, if_neg fun hrule => (hgoes.1 hrule).2 hend]
    · rw [if_neg hend, if_pos (hgoes.2 ⟨h, hend⟩)]

mutual

theorem length_blankPlacesOf : ∀ {node : Node}, (∀ e ∈ node.elements, Alike e) →
    (blankPlacesOf node).length = (reachedOf node).countP isTextEntry
  | .text s, _ => by simp [blankPlacesOf, reachedOf]
  | .comment s, _ => by simp [blankPlacesOf, reachedOf]
  | .element tag attributes children, h => by
    rw [Node.elements] at h
    obtain ⟨⟨hinteraction, hflat⟩, hbelow⟩ := List.forall_mem_cons.1 h
    have hself : isTextEntry ⟨tag, attributes, children⟩ = decide (localName tag = blankName) := by
      rw [Bool.eq_iff_iff, decide_eq_true_iff]
      exact beq_iff_eq
    have hchildren := @length_blankPlaces 0 children hbelow
    rw [reachedOf, List.countP_cons, hself, blankPlacesOf_element attributes children hinteraction]
    by_cases hend : localName tag ∈ endNames
    · -- Neither view shows anything of what the element holds.
      rw [if_pos (endNames_subset hend), if_pos hend]
      by_cases hblank : localName tag = blankName
      · simp [hblank]
      · simp [hblank]
    · have hblank : localName tag ≠ blankName := by
        intro hblank
        exact hend (hblank ▸ by decide)
      rw [if_neg hend, if_neg hblank, hchildren]
      by_cases hsilent : silentNames.contains (localName tag)
      · -- Only a report hides what images and lines without a prefix hold, and there is nothing.
        have hnone := blankPlaces_of_textual 0 (hflat ((silentNames_cases hsilent).resolve_left hend))
        rw [← hchildren, hnone, if_pos hsilent]
        simp [hblank]
      · rw [if_neg hsilent]
        simp [hblank]

/-- Where both views treat all elements alike, a scorer sees a blank for each one that is reached. -/
theorem length_blankPlaces (i : Nat) : ∀ {nodes : List Node}, (∀ e ∈ elementsOf nodes, Alike e) →
    (blankPlaces i nodes).length = (reachedIn nodes).countP isTextEntry
  | [], _ => by
    rw [blankPlaces]
    rfl
  | node :: nodes, h => by
    rw [elementsOf] at h
    rw [blankPlaces, reachedIn, List.length_append, List.length_map, List.countP_append,
      length_blankPlacesOf fun e he => h e (List.mem_append_left _ he),
      length_blankPlaces (i + 1) fun e he => h e (List.mem_append_right _ he)]

end

/-! ## The two views of an item -/

/-- A report of the item expected shows the body that a scorer sees, if there is one. -/
theorem findBody_eq (expected : List Char) (root : Element) :
    Report.findBody expected root =
      if (root.attributeD "identifier").isEmpty then .error (.identifierMissing expected)
      else if root.attributeD "identifier" ≠ expected then
        .error (.identifierMismatch expected (root.attributeD "identifier"))
      else
        match Scoring.itemBody? root with
        | some body => .ok body
        | none => .error (.bodyMissingIn (root.attributeD "identifier")) := by
  unfold Report.findBody Scoring.itemBody?
  dsimp only
  cases root.locate "qti-item-body".toList with
  | nil => rfl
  | cons body others => rfl

/-- A scorer sees the body that a report shows. -/
theorem itemBody?_of_findBody {expected : List Char} {root body : Element}
    (h : Report.findBody expected root = .ok body) : Scoring.itemBody? root = some body := by
  rw [findBody_eq] at h
  split at h
  · cases h
  split at h
  · cases h
  split at h
  · next found hfound =>
    cases h
    exact hfound
  · cases h

/-- The prompt of an item has as many blanks as are shown of its body. -/
theorem exists_item_of_itemBody? {options : Scoring.Options} {root body : Element}
    (h : Scoring.itemBody? root = some body) :
    ∃ item, Scoring.render options root = .ok item ∧
      item.promptBlanks = (blankPlaces 0 body.children).length := by
  unfold Scoring.render
  rw [h]
  refine ⟨_, rfl, ?_⟩
  show (Scoring.renderNodes options Spacing.root 0 body.children).blanks = _
  rw [Scoring.blanks_renderNodes, Scoring.blanksIn, Scoring.holes_layoutNodes_eq, List.length_map,
    Nat.zero_add]

/-- The question of a report is HTML that holds the tag of a blank for each blank that is reached. -/
theorem exists_item_of_findBody {source : Source} {root body : Element} {expected : List Char}
    (hread : readDocument source = .ok root) (hbody : Report.findBody expected root = .ok body) :
    ∃ item, (Report.render {} expected root).result = .ok item ∧
      Counts clozeTag item.question ((reachedIn body.children).countP isTextEntry) := by
  have hrendered := @Report.counts_renderBody {} rfl _ (Report.namedNodes_of_findBody hread hbody)
  obtain ⟨marked, hresult, hmarked⟩ :=
    Report.counts_decorateBlocks Report.tidy_default rfl (Report.counts_mergeFragments hrendered)
  have hquestion := Report.counts_decorateInline Report.tidy_default hmarked
  have hfinished : (Report.finishHtml {} (Report.renderBody {} body)).result =
      .ok (Report.decorateInline {} marked) :=
    congrArg (Except.map (Report.decorateInline {})) hresult
  obtain ⟨item, hitem, heq⟩ := Report.exists_item_of_finishHtml hbody hfinished
  exact ⟨item, hitem, heq ▸ hquestion⟩

/-- Where the body of an item holds no choice interaction, and no element in an image or a line, as many
blanks are numbered for a scorer as tags of blanks occur in the question of the report. -/
theorem promptBlanks_eq_occurrences {source : Source} {root body : Element} {expected : List Char}
    (hread : readDocument source = .ok root) (hbody : Report.findBody expected root = .ok body)
    (halike : ∀ e ∈ body.descendants, Alike e) :
    ∃ scored reported, Scoring.render {} root = .ok scored ∧
      (Report.render {} expected root).result = .ok reported ∧
      scored.promptBlanks = occurrences clozeTag reported.question := by
  obtain ⟨scored, hscored, hblanks⟩ := @exists_item_of_itemBody? {} _ _ (itemBody?_of_findBody hbody)
  obtain ⟨reported, hreported, ⟨shown, hshows⟩, hcount⟩ := exists_item_of_findBody hread hbody
  refine ⟨scored, reported, hscored, hreported, ?_⟩
  calc scored.promptBlanks = (blankPlaces 0 body.children).length := hblanks
    _ = (reachedIn body.children).countP isTextEntry := length_blankPlaces 0 halike
    _ = countTag clozeTag reported.question := hcount.symm
    _ = occurrences clozeTag reported.question :=
      (occurrences_eq_countTag Report.isTag_cloze hshows).symm

/-- A document with a blank in a paragraph, one between pieces of code, and ones that are hidden. -/
def blanksSample : Source := .text <|
  "<i identifier='q'><qti-item-body><qti-p>a <qti-text-entry-interaction/></qti-p>".toList ++
    "<qti-pre><qti-code>b</qti-code><qti-text-entry-interaction/><code>c</code></qti-pre>".toList ++
    "<qti-rubric-block><qti-text-entry-interaction/></qti-rubric-block>".toList ++
    "<qti-text-entry-interaction><qti-text-entry-interaction/></qti-text-entry-interaction>".toList ++
    "<img/></qti-item-body></i>".toList

theorem promptBlanks_of_blanksSample : ∃ root body, readDocument blanksSample = .ok root ∧
    Report.findBody ['q'] root = .ok body ∧ (∀ e ∈ body.descendants, Alike e) ∧
    ∃ scored reported, Scoring.render {} root = .ok scored ∧
      (Report.render {} ['q'] root).result = .ok reported ∧
      scored.promptBlanks = 3 ∧ occurrences clozeTag reported.question = 3 := by
  have hsample : ((Report.bodyOf? ['q'] blanksSample).map fun body =>
      (decide (∀ e ∈ body.descendants, Alike e), (blankPlaces 0 body.children).length)) =
        some (true, 3) := by
    unfold blanksSample
    -- Literals are evaluated faster as lists of characters.
    repeat rewrite [String.toList_ofList]
    decide +kernel
  obtain ⟨root, body, hread, hbody, hpair⟩ := Report.exists_of_bodyOf? hsample
  obtain ⟨hdecided, hthree⟩ := Prod.mk.inj hpair
  have halike := of_decide_eq_true hdecided
  obtain ⟨scored, reported, hscored, hreported, heq⟩ :=
    promptBlanks_eq_occurrences hread hbody halike
  obtain ⟨item, hitem, hblanks⟩ := @exists_item_of_itemBody? {} _ _ (itemBody?_of_findBody hbody)
  rw [hscored] at hitem
  cases hitem
  rw [hthree] at hblanks
  exact ⟨root, body, hread, hbody, halike, scored, reported, hscored, hreported, hblanks, heq ▸ hblanks⟩

end Assessment.Views
