import Assessment.Proofs.Responses.Commuting

/-!
# Proofs: later responses override earlier ones

Filling twice gives each blank what filling once with the overriding responses gives it, one blank after
the other (`composes_fillElement`), so the nodes are the same up to the order of attributes
(`Composes.updateAll`). Between the two the nodes are printed and read again, which changes that order
alone, and the class of blanks is still shown (`occursIn_filled`).
-/

namespace Assessment

open Assessment.Html Assessment.Text

namespace Html

/-! ## Two changes as one -/

section Composing

variable {σ τ υ : Type} {f : σ → List Char → Attributes → Attributes × σ}
  {g : τ → List Char → Attributes → Attributes × τ} {h : υ → List Char → Attributes → Attributes × υ}
  {Related : σ → τ → υ → Prop}

open Node

/-- Changing an element with `f` and then with `g` is changing it with `h`, up to the order of its
attributes, and what is known stays related. -/
def Composes (f : σ → List Char → Attributes → Attributes × σ)
    (g : τ → List Char → Attributes → Attributes × τ)
    (h : υ → List Char → Attributes → Attributes × υ) (Related : σ → τ → υ → Prop) : Prop :=
  ∀ {a : σ} {b : τ} {c : υ}, Related a b c →
    ∀ (name : List Char) {attributes : Attributes}, (attributes.map (·.1)).Nodup →
      (g b name (f a name attributes).1).1.Perm (h c name attributes).1 ∧
        Related (f a name attributes).2 (g b name (f a name attributes).1).2 (h c name attributes).2

/-- Changing the elements one after the other in two runs is changing them in one. -/
theorem Composes.updateAll (hstep : Composes f g h Related) : ∀ {nodes : List Node} {a : σ} {b : τ}
    {c : υ}, Related a b c → RegularAll nodes →
      ShuffledAll (updateAll g b (updateAll f a nodes).1).1 (updateAll h c nodes).1 ∧
        Related (updateAll f a nodes).2 (updateAll g b (updateAll f a nodes).1).2
          (updateAll h c nodes).2
  | [], _, _, _, hrelated, _ => ⟨.nil, hrelated⟩
  | .text s :: nodes, _, _, _, hrelated, hregular => by
    obtain ⟨hnodes, hafter⟩ := hstep.updateAll hrelated hregular.2
    exact ⟨.cons (.text s) hnodes, hafter⟩
  | .element name attributes children :: nodes, a, b, c, hrelated, hregular => by
    obtain ⟨⟨htag, -, hchildren⟩, hnodes⟩ := hregular
    -- What is known runs on from the element to its children and then to its siblings.
    obtain ⟨hperm, helement⟩ := hstep hrelated name htag.distinct
    obtain ⟨hinside, hbelow⟩ := hstep.updateAll helement hchildren
    obtain ⟨hrest, hafter⟩ := hstep.updateAll hbelow hnodes
    exact ⟨.cons (.element name hperm hinside) hrest, hafter⟩

end Composing

end Html

namespace Responses

open Node

/-! ## Overriding -/

/-- The responses of two lists by their places: that of the second list, where it has one. -/
def override (earlier later : List (Option (List Char))) : List (Option (List Char)) :=
  List.zipWithAll (fun first second => second.join.or first.join) earlier later

example : override [some ['a'], none, some ['c']] [none, some ['b']] =
    [some ['a'], some ['b'], some ['c']] := by decide

theorem override_nil (earlier : List (Option (List Char))) : override earlier [] = earlier := by
  simp [override]

theorem nil_override (later : List (Option (List Char))) : override [] later = later := by
  simp [override]

theorem override_ne_nil {earlier : List (Option (List Char))} (h : earlier ≠ [])
    (later : List (Option (List Char))) : override earlier later ≠ [] := by
  cases earlier with
  | nil => exact absurd rfl h
  | cons response earlier => cases later <;> exact List.cons_ne_nil _ _

theorem head?_override (earlier later : List (Option (List Char))) :
    (override earlier later).head?.join = later.head?.join.or earlier.head?.join := by
  cases earlier with
  | nil => simp [nil_override]
  | cons response earlier => cases later <;> simp [override]

theorem tail_override (earlier later : List (Option (List Char))) :
    (override earlier later).tail = override earlier.tail later.tail := List.tail_zipWithAll

/-- Lists without a common place for a response override each other alike. -/
theorem override_comm {earlier later : List (Option (List Char))}
    (h : ∀ k : Nat, earlier[k]?.join = none ∨ later[k]?.join = none) :
    override later earlier = override earlier later := by
  refine List.ext_getElem? fun k => ?_
  have hor : earlier[k]?.join.or later[k]?.join = later[k]?.join.or earlier[k]?.join := by
    rcases h k with hnone | hnone
    · rw [hnone, Option.none_or, Option.or_none]
    · rw [hnone, Option.none_or, Option.or_none]
  rw [override, override, List.getElem?_zipWithAll, List.getElem?_zipWithAll]
  generalize earlier[k]? = first at hor ⊢
  generalize later[k]? = second at hor ⊢
  match first, second with
  | none, none => rfl
  | some _, none => exact congrArg some hor
  | none, some _ => exact congrArg some hor
  | some _, some _ => exact congrArg some hor

/-! ## Filling twice -/

/-- An element with the next response, if it is a blank. -/
theorem fillElement_of_responses {filling : Filling} {responses : List (Option (List Char))}
    (h : filling.entries = responses.map Entry.ofResponse) {name : List Char} {attributes : Attributes}
    (hblank : isBlankInput name attributes) :
    (fillElement filling name attributes).1 =
        (Entry.ofResponse responses.head?.join).fill attributes ∧
      (fillElement filling name attributes).2.entries = responses.tail.map Entry.ofResponse := by
  obtain ⟨hfirst, hrest⟩ := fillElement_of_blank hblank filling
  rw [h] at hfirst hrest
  constructor
  · rw [hfirst]
    cases responses with
    | nil => rfl
    | cons response responses => rfl
  · rw [hrest, List.map_tail]

/-- A blank that is filled twice is the blank filled with the overriding response. -/
theorem perm_fill_fill (earlier later : Option (List Char)) {attributes : Attributes}
    (h : (attributes.map (·.1)).Nodup) :
    ((Entry.ofResponse later).fill ((Entry.ofResponse earlier).fill attributes)).Perm
      ((Entry.ofResponse (later.or earlier)).fill attributes) := by
  have hfilled : ∀ {others : Attributes} (s : List Char), (others.map (·.1)).Nodup →
      ((filled s s.length others).map (·.1)).Nodup := fun s hothers =>
    Attributes.nodup_put _ (Attributes.nodup_put _ hothers)
  cases later with
  | none => exact .refl _
  | some s =>
    cases earlier with
    | none => exact .refl _
    | some t =>
      refine Attributes.perm_of_get? (hfilled s (hfilled t h)) (hfilled s h) fun key => ?_
      show (filled s s.length (filled t t.length attributes)).get? key =
        (filled s s.length attributes).get? key
      simp only [filled, Attributes.get?_put]
      split
      · rfl
      · split <;> rfl

/-- The responses that are left while blanks are filled twice, and while they are filled once. -/
def Overrides (first second once : Filling) : Prop :=
  ∃ earlier later : List (Option (List Char)), first.entries = earlier.map Entry.ofResponse ∧
    second.entries = later.map Entry.ofResponse ∧
    once.entries = (override earlier later).map Entry.ofResponse

/-- Filling an element twice is filling it once with the overriding response. -/
theorem composes_fillElement : Composes fillElement fillElement fillElement Overrides := by
  rintro first second once ⟨earlier, later, hfirst, hsecond, honce⟩ name attributes hdistinct
  by_cases hblank : isBlankInput name attributes
  · have hstill := (isBlankInput_fillElement first name attributes).trans hblank
    obtain ⟨hfill, hrest⟩ := fillElement_of_responses hfirst hblank
    obtain ⟨hfillAgain, hrestAgain⟩ := fillElement_of_responses hsecond hstill
    obtain ⟨hfillOnce, hrestOnce⟩ := fillElement_of_responses honce hblank
    rw [head?_override] at hfillOnce
    rw [tail_override] at hrestOnce
    refine ⟨?_, earlier.tail, later.tail, hrest, hrestAgain, hrestOnce⟩
    rw [hfillAgain, hfill, hfillOnce]
    exact perm_fill_fill _ _ hdistinct
  · rw [fillElement_of_not_blank hblank, fillElement_of_not_blank hblank,
      fillElement_of_not_blank hblank]
    exact ⟨.refl _, earlier, later, hfirst, hsecond, honce⟩

/-- Nodes are printed alike if they are filled, read again and filled again, and if they are filled
once. -/
theorem serialize_fill_sorted_fill (earlier later : List (Option (List Char))) {nodes : List Node}
    (h : RegularAll nodes) :
    serialize (fill (later.map Entry.ofResponse)
        (sorted (fill (earlier.map Entry.ofResponse) nodes).1)).1 =
      serialize (fill ((override earlier later).map Entry.ofResponse) nodes).1 := by
  have hfilled := regularAll_fill (earlier.map Entry.ofResponse) h
  have hagain := regularAll_fill (later.map Entry.ofResponse) hfilled
  calc serialize (fill (later.map Entry.ofResponse)
        (sorted (fill (earlier.map Entry.ofResponse) nodes).1)).1
      = serialize (fill (later.map Entry.ofResponse)
          (fill (earlier.map Entry.ofResponse) nodes).1).1 :=
        serialize_updateAll_sorted orderless_fillElement _ hfilled hagain
    _ = serialize (fill ((override earlier later).map Entry.ofResponse) nodes).1 :=
        serialize_of_shuffled
          (composes_fillElement.updateAll ⟨earlier, later, rfl, rfl, rfl⟩ h).1 hagain

/-! ## Filled prompts -/

/-- The HTML with its blanks filled. -/
def fillWith (responses : List (Option (List Char))) (html : List Char) :
    Except Failure (List Char) :=
  (apply (.ok defaultBuilder) (.many (responses.map Entry.ofResponse)) html).map (·.1)

theorem fillWith_nil (html : List Char) : fillWith [] html = .ok html := by
  unfold fillWith apply
  split
  · rfl
  · rfl

theorem fillWith_of_nothing {html : List Char} {nodes : List Node} (hparse : parse html = some nodes)
    (h : blanks nodes = []) (responses : List (Option (List Char))) :
    fillWith responses html = .ok html := by
  rw [fillWith, apply_of_nothing hparse (.inr h)]
  rfl

theorem fillWith_of_blanks {html : List Char} {nodes : List Node} (hparse : parse html = some nodes)
    (hoccurs : occursIn blankClass html) (hblanks : blanks nodes ≠ [])
    {responses : List (Option (List Char))} (hresponses : responses ≠ []) :
    fillWith responses html = .ok (serialize (fill (responses.map Entry.ofResponse) nodes).1) := by
  obtain ⟨log, happly⟩ := apply_of_blanks hparse hoccurs hresponses hblanks
  rw [fillWith, happly]
  rfl

/-- Filling leaves the blanks that there are. -/
theorem blanks_fill_ne_nil (entries : List Entry) {nodes : List Node} (h : blanks nodes ≠ []) :
    blanks (fill entries nodes).1 ≠ [] := by
  have hblanks : blanks (fill entries nodes).1 = fillBlanks entries (blanks nodes) :=
    (blanks_updateAll nodes _).1
  intro hnil
  have hlength := length_fillBlanks entries (blanks nodes)
  rw [← hblanks, hnil] at hlength
  exact h (List.eq_nil_of_length_eq_zero hlength.symm)

/-- What does not depend on the responses is in a filled blank as it is in a blank. -/
theorem exists_of_mem_fillBlanks {key : List Char} (hkey : key ∉ responseNames) {entries : List Entry}
    {blanks : List Attributes} {filled : Attributes} (h : filled ∈ fillBlanks entries blanks) :
    ∃ blank ∈ blanks, filled.get? key = blank.get? key := by
  obtain ⟨k, hk⟩ := List.mem_iff_getElem?.1 h
  rw [getElem?_fillBlanks] at hk
  obtain ⟨blank, hblank, rfl⟩ := Option.map_eq_some_iff.1 hk
  refine ⟨blank, List.mem_of_getElem? hblank, ?_⟩
  cases entries[k]? with
  | none => rfl
  | some entry => exact entry.get?_fill hkey blank

section Prompts

variable (nodes : List Xml.Node)

/-- A filled prompt with blanks shows their class. -/
theorem occursIn_filled (entries : List Entry) (h : blanks (Scoring.promptNodes nodes) ≠ []) :
    occursIn blankClass (serialize (fill entries (Scoring.promptNodes nodes)).1) := by
  have hblanks : blanks (fill entries (Scoring.promptNodes nodes)).1 =
      fillBlanks entries (blanks (Scoring.promptNodes nodes)) := (blanks_updateAll _ _).1
  obtain ⟨filled, hfilled⟩ := List.exists_mem_of_ne_nil _ (blanks_fill_ne_nil entries h)
  obtain ⟨blank, hblank, hclass⟩ := @exists_of_mem_fillBlanks "class".toList (by decide) _ _ filled
    (hblanks ▸ hfilled)
  exact occursIn_of_blanks (regularAll_fill entries (Scoring.regularAll_promptNodes nodes)) hfilled
    (hclass.trans (class_of_mem_blanks nodes hblank))

theorem exists_fillWith (responses : List (Option (List Char))) :
    ∃ html, fillWith responses (Scoring.renderNodes {} Item.Spacing.root 0 nodes).html =
      .ok html := by
  obtain ⟨html, log, happly, -⟩ := apply_prompt nodes responses
  exact ⟨html, by rw [fillWith, happly]; rfl⟩

/-- A prompt that is filled twice is the prompt filled with the overriding responses. -/
theorem fillWith_fillWith (earlier later : List (Option (List Char))) :
    (fillWith earlier (Scoring.renderNodes {} Item.Spacing.root 0 nodes).html >>= fillWith later) =
      fillWith (override earlier later) (Scoring.renderNodes {} Item.Spacing.root 0 nodes).html := by
  have hparse := Scoring.parse_renderNodes nodes
  -- Without responses or blanks a call returns the HTML unread, so these cases come first.
  by_cases hearlier : earlier = []
  · rw [hearlier, nil_override, fillWith_nil]
    rfl
  by_cases hlater : later = []
  · rw [hlater, override_nil, (funext fillWith_nil : fillWith [] = pure), bind_pure]
  by_cases hnone : blanks (Scoring.promptNodes nodes) = []
  · rw [fillWith_of_nothing hparse hnone, fillWith_of_nothing hparse hnone]
    exact fillWith_of_nothing hparse hnone later
  · have hoccurs := Scoring.occursIn_blankClass (mt Scoring.blanks_promptNodes_eq_nil_iff.2 hnone)
    rw [fillWith_of_blanks hparse hoccurs hnone hearlier,
      fillWith_of_blanks hparse hoccurs hnone (override_ne_nil hearlier later),
      ← serialize_fill_sorted_fill _ _ (Scoring.regularAll_promptNodes nodes)]
    have hstill := blanks_fill_ne_nil (earlier.map Entry.ofResponse) hnone
    refine fillWith_of_blanks (parse_filled nodes _) (occursIn_filled nodes _ hnone) ?_ hlater
    rw [blanks_sorted (regularAll_fill _ (Scoring.regularAll_promptNodes nodes))]
    exact mt List.map_eq_nil_iff.1 hstill

end Prompts

/-- Filling a prompt and then filling the result is filling the prompt with the overriding responses, and
none of it fails. Responses without a common blank can be filled in in either order. -/
theorem later_responses_override {root : Xml.Element} {item : Scoring.ScoringItem}
    (h : Scoring.render {} root = .ok item) (earlier later : List (Option (List Char))) :
    ∃ html, fillWith (override earlier later) item.prompt = .ok html ∧
      (fillWith earlier item.prompt >>= fillWith later) = .ok html ∧
      ((∀ k : Nat, earlier[k]?.join = none ∨ later[k]?.join = none) →
        (fillWith later item.prompt >>= fillWith earlier) = .ok html) := by
  obtain ⟨nodes, hprompt, -⟩ := prompt_of_render h
  obtain ⟨html, hhtml⟩ := exists_fillWith nodes (override earlier later)
  rw [hprompt]
  refine ⟨html, hhtml, (fillWith_fillWith nodes earlier later).trans hhtml, fun hapart => ?_⟩
  rw [fillWith_fillWith nodes later earlier, override_comm hapart, hhtml]

/-- An item with two blanks. -/
def itemWithBlanks : Xml.Element :=
  ⟨"qti-assessment-item".toList, [],
    [.element "qti-item-body".toList []
      [.element Scoring.blankName [] [], .element Scoring.blankName [] []]]⟩

theorem later_responses_override_itemWithBlanks :
    ∃ item, Scoring.render {} itemWithBlanks = .ok item ∧
      ∃ html, fillWith (override [none, some "\x22<".toList] [some "a".toList]) item.prompt = .ok html ∧
        (fillWith [none, some "\x22<".toList] item.prompt >>= fillWith [some "a".toList]) = .ok html ∧
        (fillWith [some "a".toList] item.prompt >>= fillWith [none, some "\x22<".toList]) =
          .ok html := by
  refine ⟨_, rfl, ?_⟩
  obtain ⟨html, hhtml, htwice, hswapped⟩ := @later_responses_override itemWithBlanks _ rfl
    [none, some "\x22<".toList] [some "a".toList]
  refine ⟨html, hhtml, htwice, hswapped fun k => ?_⟩
  match k with
  | 0 => exact .inl rfl
  | _ + 1 => exact .inr rfl

end Responses

end Assessment
