import Assessment.Proofs.Images.Redirecting
import Assessment.Proofs.Responses.Filling

/-!
# Proofs: filling blanks and redirecting images commute

Filling changes inputs and redirecting changes images, so on nodes the two commute (`updateAll_comm`).
Between the two the nodes are printed and read again, which changes the order of attributes; neither
looks at that order (`orderless_fillElement`, `orderless_redirectElement`), and printing does not either.
Filling leaves HTML unread that does not show the class of blanks. The addresses of images may show it
too, but then there is still no blank, and where there are blanks redirecting leaves their class as it is
(`occursIn_redirected`).
-/

namespace Assessment

open Assessment.Html Assessment.Text

namespace Html

/-! ## Changes of different elements -/

/-- The function leaves elements of the name as they are. -/
def Spares {σ : Type} (f : σ → List Char → Attributes → Attributes × σ) (name : List Char) : Prop :=
  ∀ known attributes, f known name attributes = (attributes, known)

section Independent

variable {σ τ : Type} {f : σ → List Char → Attributes → Attributes × σ}
  {g : τ → List Char → Attributes → Attributes × τ}

open Node

/-- Changes of different elements commute, and what is known after one does not depend on the other. -/
theorem updateAll_comm (h : ∀ name, Spares f name ∨ Spares g name) : ∀ (nodes : List Node) (a : σ)
    (b : τ),
    (updateAll g b (updateAll f a nodes).1).1 = (updateAll f a (updateAll g b nodes).1).1 ∧
      (updateAll g b (updateAll f a nodes).1).2 = (updateAll g b nodes).2 ∧
      (updateAll f a (updateAll g b nodes).1).2 = (updateAll f a nodes).2
  | [], _, _ => ⟨rfl, rfl, rfl⟩
  | .text s :: nodes, a, b => by
    obtain ⟨hnodes, hg, hf⟩ := updateAll_comm h nodes a b
    exact ⟨congrArg (Node.text s :: ·) hnodes, hg, hf⟩
  | .special kind s :: nodes, a, b => by
    obtain ⟨hnodes, hg, hf⟩ := updateAll_comm h nodes a b
    exact ⟨congrArg (Node.special kind s :: ·) hnodes, hg, hf⟩
  | .element name attributes children :: nodes, a, b => by
    obtain ⟨hattributes, hafterg, hafterf⟩ :
        (g b name (f a name attributes).1).1 = (f a name (g b name attributes).1).1 ∧
          (g b name (f a name attributes).1).2 = (g b name attributes).2 ∧
          (f a name (g b name attributes).1).2 = (f a name attributes).2 := by
      rcases h name with hspares | hspares
      · simp only [hspares _ _, and_self]
      · simp only [hspares _ _, and_self]
    obtain ⟨hchildren, hg, hf⟩ := updateAll_comm h children (f a name attributes).2
      (g b name attributes).2
    obtain ⟨hnodes, hgafter, hfafter⟩ := updateAll_comm h nodes
      (updateAll f (f a name attributes).2 children).2 (updateAll g (g b name attributes).2 children).2
    simp only [updateAll, update, hattributes, hafterg, hafterf, hchildren, hg, hf, hnodes, hgafter,
      hfafter, and_self]

end Independent

/-! ## Attributes in what is written -/

theorem infix_writeAttributes {key value : List Char} {attributes : Attributes}
    (h : (key, value) ∈ attributes) : writeAttribute key value <:+: writeAttributes attributes := by
  obtain ⟨front, back, hsorted⟩ := List.append_of_mem ((perm_sortAttributes attributes).mem_iff.2 h)
  rw [writeAttributes, hsorted, List.flatMap_append, List.flatMap_cons, ← List.append_assoc]
  exact ⟨_, _, rfl⟩

mutual

theorem infix_write (raw : Bool) {name key value : List Char} {attributes : Attributes}
    (ha : (key, value) ∈ attributes) : ∀ {node : Node}, (name, attributes) ∈ node.elements →
      writeAttribute key value <:+: write raw node
  | .element tag others children, h => by
    rw [write]
    rcases List.mem_cons.1 h with heq | h
    · cases heq
      have htag : writeAttribute key value <:+: '<' :: name ++ writeAttributes attributes :=
        (infix_writeAttributes ha).trans (List.suffix_append _ _).isInfix
      split
      · exact htag.trans (List.prefix_append _ _).isInfix
      · exact htag.trans ⟨[], ['>'] ++ writeAll (isRaw name) children ++ "</".toList ++ name ++ ['>'],
          by simp⟩
    · split
      · next hempty =>
        simp only [Bool.and_eq_true, List.isEmpty_iff] at hempty
        rw [hempty.2] at h
        cases h
      · exact (infix_writeAll (isRaw tag) ha h).trans
          ⟨'<' :: tag ++ writeAttributes others ++ ['>'], "</".toList ++ tag ++ ['>'], by simp⟩

/-- The attributes of elements are written. -/
theorem infix_writeAll (raw : Bool) {name key value : List Char} {attributes : Attributes}
    (ha : (key, value) ∈ attributes) : ∀ {nodes : List Node},
      (name, attributes) ∈ Node.elementsOf nodes → writeAttribute key value <:+: writeAll raw nodes
  | node :: nodes, h => by
    rw [Node.elementsOf] at h
    rw [writeAll]
    rcases List.mem_append.1 h with h | h
    · exact (infix_write raw ha h).trans (List.prefix_append _ _).isInfix
    · exact (infix_writeAll raw ha h).trans (List.suffix_append _ _).isInfix

end

theorem serialize_of_regularAll {nodes : List Node} (h : Node.RegularAll nodes) :
    serialize nodes = writeAll false nodes := by
  rw [serialize, firstNamedOf?_body h]

end Html

namespace Images

theorem spares_redirectElement (options : Options) (item : List Char) {name : List Char}
    (h : name ≠ "img".toList) : Spares (redirectElement options item) name :=
  fun progress _ => redirectElement_of_ne progress h

/-- Redirecting does not look at the order of attributes. -/
theorem orderless_redirectElement (options : Options) (item : List Char) :
    Orderless (redirectElement options item) := by
  intro progress name attributes others hperm hdistinct
  unfold redirectElement
  rw [← Attributes.get?_of_perm hperm hdistinct]
  split
  · split
    · exact ⟨hperm, rfl⟩
    · split
      · exact ⟨hperm, rfl⟩
      · exact ⟨hperm, rfl⟩
      · exact ⟨Attributes.perm_put _ _ hperm hdistinct, rfl⟩
  · exact ⟨hperm, rfl⟩

end Images

namespace Responses

open Images Node

theorem spares_fillElement {name : List Char} (h : name ≠ "input".toList) :
    Spares fillElement name := fun filling attributes =>
  fillElement_of_not_blank (by rw [Scoring.isBlankInput_of_ne h]; exact Bool.false_ne_true) filling

theorem perm_filled (value : List Char) (size : Nat) {attributes others : Attributes}
    (hperm : attributes.Perm others) (h : (attributes.map (·.1)).Nodup) :
    (filled value size attributes).Perm (filled value size others) :=
  Attributes.perm_put _ _ (Attributes.perm_put _ _ hperm h) (Attributes.nodup_put _ h)

/-- Filling does not look at the order of attributes. -/
theorem orderless_fillElement : Orderless fillElement := by
  intro filling name attributes others hperm hdistinct
  have hinput : isBlankInput name attributes = isBlankInput name others :=
    isBlankInput_congr (Attributes.get?_of_perm hperm hdistinct _) name
  obtain ⟨entries, count, failed⟩ := filling
  unfold fillElement
  rw [hinput]
  split
  · cases entries with
    | nil => exact ⟨hperm, rfl⟩
    | cons entry entries =>
      cases entry with
      | skip => exact ⟨hperm, rfl⟩
      | text s => exact ⟨perm_filled _ _ hperm hdistinct, rfl⟩
      | words ws => exact ⟨perm_filled _ _ hperm hdistinct, rfl⟩
      | other => exact ⟨hperm, rfl⟩
  · exact ⟨hperm, rfl⟩

/-- Blanks are no images. -/
theorem spares_fillElement_or (options : Images.Options) (item name : List Char) :
    Spares fillElement name ∨ Spares (redirectElement options item) name := by
  by_cases h : name = "input".toList
  · exact .inr (spares_redirectElement options item (by rw [h]; decide))
  · exact .inl (spares_fillElement h)

/-- Redirecting leaves the blanks as they are. -/
theorem blanks_redirected (options : Images.Options) (item : List Char) : ∀ (nodes : List Node)
    (progress : Progress),
    blanks (updateAll (redirectElement options item) progress nodes).1 = blanks nodes
  | [], _ => rfl
  | .text _ :: nodes, progress => blanks_redirected options item nodes progress
  | .special _ _ :: nodes, progress => blanks_redirected options item nodes progress
  | .element name attributes children :: nodes, progress => by
    rw [updateAll, update, Scoring.blanks_cons_element, Scoring.blanks_cons_element,
      blanks_redirected options item children, blanks_redirected options item nodes]
    by_cases h : name = "img".toList
    · subst h
      rw [Scoring.isBlankInput_of_ne (by decide), Scoring.isBlankInput_of_ne (by decide)]
      rfl
    · rw [redirectElement_of_ne progress h]

/-- HTML with a blank of just the class of blanks shows that class. -/
theorem occursIn_of_blanks {nodes : List Node} (h : RegularAll nodes) {blank : Attributes}
    (hblank : blank ∈ blanks nodes) (hclass : blank.get? "class".toList = some blankClass) :
    occursIn blankClass (serialize nodes) := by
  obtain ⟨⟨name, attributes⟩, helement, hattributes⟩ := List.mem_filterMap.1 hblank
  obtain ⟨-, hsame⟩ := Option.ite_none_right_eq_some.1 hattributes
  cases hsame
  have hshown : blankClass <:+: writeAttribute "class".toList blankClass :=
    ⟨" class=\x22".toList, ['\x22'], by decide⟩
  obtain ⟨before, rest, hwritten⟩ :=
    hshown.trans (infix_writeAll false (Attributes.mem_of_get? hclass) helement)
  rw [serialize_of_regularAll h, ← hwritten]
  exact occursIn_append blankClass before rest

/-! ## Both, in either order -/

/-- The HTML with its blanks filled, and then the sources of its images redirected. -/
def fillThenRedirect (responses : List (Option (List Char))) (options : Images.Options)
    (item html : List Char) : Except Failure (List Char) := do
  let (filled, _) ← apply (.ok defaultBuilder) (.many (responses.map Entry.ofResponse)) html
  let redirected ← redirect options item filled
  return redirected.html

/-- The HTML with the sources of its images redirected, and then its blanks filled. -/
def redirectThenFill (responses : List (Option (List Char))) (options : Images.Options)
    (item html : List Char) : Except Failure (List Char) := do
  let redirected ← redirect options item html
  let (filled, _) ← apply (.ok defaultBuilder) (.many (responses.map Entry.ofResponse)) redirected.html
  return filled

theorem regularAll_fill {nodes : List Node} (entries : List Entry) (h : RegularAll nodes) :
    RegularAll (fill entries nodes).1 :=
  regularAll_updateAll regularTag_fillElement _ h

/-- Nodes are printed alike if they are filled, read again and redirected, and if they are redirected,
read again and filled. -/
theorem serialize_redirected_fill (options : Images.Options) (item : List Char) (entries : List Entry)
    {nodes : List Node} (h : RegularAll nodes) :
    serialize (redirected options item (sorted (fill entries nodes).1)) =
      serialize (fill entries (sorted (redirected options item nodes))).1 := by
  have hfilled := regularAll_fill entries h
  have hredirected : RegularAll (redirected options item nodes) := regularAll_redirected h
  calc serialize (redirected options item (sorted (fill entries nodes).1))
      = serialize (redirected options item (fill entries nodes).1) :=
        serialize_updateAll_sorted (orderless_redirectElement options item) {} hfilled
          (regularAll_redirected hfilled)
    _ = serialize (fill entries (redirected options item nodes)).1 :=
        congrArg serialize
          (updateAll_comm (spares_fillElement_or options item) nodes ⟨entries, 0, false⟩ {}).1
    _ = serialize (fill entries (sorted (redirected options item nodes))).1 :=
        (serialize_updateAll_sorted orderless_fillElement _ hredirected
          (regularAll_fill entries hredirected)).symm

theorem fillThenRedirect_eq_ok {responses : List (Option (List Char))} {options : Images.Options}
    {item html filled : List Char} {log : List Log.Entry} {result : Redirected}
    (hfill : apply (.ok defaultBuilder) (.many (responses.map Entry.ofResponse)) html =
      .ok (filled, log)) (hredirect : redirect options item filled = .ok result) :
    fillThenRedirect responses options item html = .ok result.html := by
  unfold fillThenRedirect
  rw [hfill]
  show (redirect options item filled >>= fun redirected => pure redirected.html) = _
  rw [hredirect]
  rfl

theorem redirectThenFill_eq_ok {responses : List (Option (List Char))} {options : Images.Options}
    {item html filled : List Char} {log : List Log.Entry} {result : Redirected}
    (hredirect : redirect options item html = .ok result)
    (hfill : apply (.ok defaultBuilder) (.many (responses.map Entry.ofResponse)) result.html =
      .ok (filled, log)) : redirectThenFill responses options item html = .ok filled := by
  unfold redirectThenFill
  rw [hredirect]
  show (apply _ _ result.html >>= fun filled => pure filled.1) = _
  rw [hfill]
  rfl

section Prompts

variable {options : Images.Options} (hbuilder : options.builder ∈ builderNames) (item : List Char)
  (nodes : List Xml.Node) (responses : List (Option (List Char)))

/-- A redirected prompt is read with the blanks that it had. -/
theorem parse_redirected :
    parse (serialize (redirected options item (Scoring.promptNodes nodes))) =
        some (sorted (redirected options item (Scoring.promptNodes nodes))) ∧
      blanks (sorted (redirected options item (Scoring.promptNodes nodes))) =
        (blanks (Scoring.promptNodes nodes)).map sortAttributes := by
  have hregular : RegularAll (redirected options item (Scoring.promptNodes nodes)) :=
    regularAll_redirected (Scoring.regularAll_promptNodes nodes)
  refine ⟨parse_serialize hregular (tight_redirected (Scoring.tight_promptNodes nodes)), ?_⟩
  rw [blanks_sorted hregular]
  exact congrArg (List.map _) (blanks_redirected options item _ {})

/-- The blanks of a prompt have just the class of blanks. -/
theorem class_of_mem_blanks {blank : Attributes} (h : blank ∈ blanks (Scoring.promptNodes nodes)) :
    blank.get? "class".toList = some blankClass := by
  rw [Scoring.blanks_promptNodes] at h
  obtain ⟨index, -, rfl⟩ := List.mem_map.1 h
  rfl

/-- A redirected prompt with blanks shows their class. -/
theorem occursIn_redirected (h : blanks (Scoring.promptNodes nodes) ≠ []) :
    occursIn blankClass (serialize (redirected options item (Scoring.promptNodes nodes))) := by
  have hsame : blanks (redirected options item (Scoring.promptNodes nodes)) =
      blanks (Scoring.promptNodes nodes) := blanks_redirected options item _ {}
  obtain ⟨blank, hblank⟩ := List.exists_mem_of_ne_nil _ h
  exact occursIn_of_blanks (regularAll_redirected (Scoring.regularAll_promptNodes nodes))
    (hsame ▸ hblank) (class_of_mem_blanks nodes hblank)

include hbuilder in
/-- A prompt is made into the same HTML in either order. -/
theorem exists_redirectThenFill :
    ∃ html,
      fillThenRedirect responses options item (Scoring.renderNodes {} Item.Spacing.root 0 nodes).html =
          .ok html ∧
        redirectThenFill responses options item
          (Scoring.renderNodes {} Item.Spacing.root 0 nodes).html = .ok html := by
  have hparse := Scoring.parse_renderNodes nodes
  obtain ⟨result, hredirect, hhtml, -⟩ := exists_redirect_of_parse item hbuilder hparse
  obtain ⟨hparseResult, hblanks⟩ := @parse_redirected options item nodes
  rw [← hhtml] at hparseResult
  by_cases hnothing : responses = [] ∨ blanks (Scoring.promptNodes nodes) = []
  · -- Without responses or blanks, filling returns what it gets, whatever the addresses hold.
    have hnothingResult : responses = [] ∨
        blanks (sorted (redirected options item (Scoring.promptNodes nodes))) = [] :=
      hnothing.imp_right fun hnil => by rw [hblanks, hnil, List.map_nil]
    exact ⟨result.html, fillThenRedirect_eq_ok (apply_of_nothing hparse hnothing) hredirect,
      redirectThenFill_eq_ok hredirect (apply_of_nothing hparseResult hnothingResult)⟩
  · obtain ⟨hresponses, hsome⟩ := not_or.1 hnothing
    have hsomeResult : blanks (sorted (redirected options item (Scoring.promptNodes nodes))) ≠ [] := by
      rw [hblanks]
      exact mt List.map_eq_nil_iff.1 hsome
    have hoccurs : occursIn blankClass result.html := by
      rw [hhtml]
      exact occursIn_redirected item nodes hsome
    obtain ⟨log, hfill⟩ := apply_of_blanks hparse
      (Scoring.occursIn_blankClass (mt Scoring.blanks_promptNodes_eq_nil_iff.2 hsome)) hresponses hsome
    obtain ⟨logAfter, hfillAfter⟩ := apply_of_blanks hparseResult hoccurs hresponses hsomeResult
    obtain ⟨resultAfter, hredirectAfter, hhtmlAfter, -⟩ :=
      exists_redirect_of_parse item hbuilder (parse_filled nodes (responses.map Entry.ofResponse))
    refine ⟨_, fillThenRedirect_eq_ok hfill hredirectAfter, ?_⟩
    rw [hhtmlAfter, serialize_redirected_fill options item _ (Scoring.regularAll_promptNodes nodes)]
    exact redirectThenFill_eq_ok hredirect hfillAfter

end Prompts

/-- No HTML is redirected in a way to read it that is not known. -/
theorem redirect_of_unknown {options : Images.Options} (h : options.builder ∉ builderNames)
    (item html : List Char) : redirect options item html = .error (.unknownBuilder options.builder) := by
  unfold redirect Html.read
  rw [if_neg (mt List.contains_iff_mem.1 h)]
  rfl

/-- Filling the blanks of a prompt and redirecting its images give the same HTML in either order, also
where filling returns the HTML unread. Where the way to read HTML is not known, both orders fail alike;
else none fails. -/
theorem filling_and_redirecting_commute {root : Xml.Element} {item : Scoring.ScoringItem}
    (h : Scoring.render {} root = .ok item) (responses : List (Option (List Char)))
    (options : Images.Options) (path : List Char) :
    fillThenRedirect responses options path item.prompt =
        redirectThenFill responses options path item.prompt ∧
      (options.builder ∈ builderNames →
        ∃ html, fillThenRedirect responses options path item.prompt = .ok html) := by
  obtain ⟨nodes, hprompt, -⟩ := prompt_of_render h
  rw [hprompt]
  by_cases hbuilder : options.builder ∈ builderNames
  · obtain ⟨html, hfirst, hsecond⟩ := exists_redirectThenFill hbuilder path nodes responses
    exact ⟨hfirst.trans hsecond.symm, fun _ => ⟨html, hfirst⟩⟩
  · refine ⟨?_, fun hknown => absurd hknown hbuilder⟩
    obtain ⟨html, log, hfill, -⟩ := apply_prompt nodes responses
    unfold fillThenRedirect redirectThenFill
    rw [hfill, redirect_of_unknown hbuilder]
    exact congrArg (· >>= fun redirected => pure redirected.html) (redirect_of_unknown hbuilder path html)

/-- An item with an image and a blank. -/
def itemWithImageAndBlank : Xml.Element :=
  ⟨"qti-assessment-item".toList, [],
    [.element "qti-item-body".toList []
      [.element "qti-img".toList [("src".toList, "a.png".toList)] [],
        .element Scoring.blankName [] []]]⟩

theorem filling_and_redirecting_commute_itemWithImageAndBlank :
    ∃ item, Scoring.render {} itemWithImageAndBlank = .ok item ∧
      ∃ html, fillThenRedirect [some "\x22<".toList] assets "q.xml".toList item.prompt = .ok html ∧
        redirectThenFill [some "\x22<".toList] assets "q.xml".toList item.prompt = .ok html := by
  refine ⟨_, rfl, ?_⟩
  obtain ⟨hsame, hsucceeds⟩ := @filling_and_redirecting_commute itemWithImageAndBlank _ rfl
    [some "\x22<".toList] assets "q.xml".toList
  obtain ⟨html, hhtml⟩ := hsucceeds (by decide)
  exact ⟨html, hhtml, hsame.symm.trans hhtml⟩

end Responses

end Assessment
