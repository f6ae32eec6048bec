import Assessment.Images
import Assessment.Proofs.Html.Shuffled
import Assessment.Proofs.Scoring.ShownImages
import Assessment.Scoring.Item

/-!
# Proofs: the sources of images are redirected exactly

Redirecting goes through the images in document order. For each source that names a file it makes one
address (`calls_updateAll`), and of all attributes just these sources change (`get?_redirectElement`).
What is read of the HTML before holds the sources as the item has them, and what is read afterwards holds
the addresses as they were made, whatever characters are in them (`images_are_redirected`).
-/

namespace Assessment.Images

open Assessment.Html Assessment.Text

/-! ## What becomes of a source -/

/-- The path of the file that a source in an item names, if the source is neither empty nor external. -/
def pathOf? (options : Options) (item src : List Char) : Option (List Char) :=
  if src = [] ∨ options.isExternal src then none
  else (options.resolvePath item src).filter fun path => !path.isEmpty

/-- The address that is made for a source, as the path of the file and the source. -/
def call? (options : Options) (item src : List Char) : Option (List Char × List Char) :=
  (pathOf? options item src).map fun path => (path, src)

/-- A source afterwards: the address of the file that it names, or else as it was. -/
def newSource (options : Options) (item src : List Char) : List Char :=
  ((pathOf? options item src).map fun path => options.resolveUrl path src).getD src

theorem decideSource_eq_redirect_iff {options : Options} {item src path : List Char} :
    decideSource options item src = .redirect path ↔ pathOf? options item src = some path := by
  unfold decideSource pathOf?
  by_cases hkept : src = [] ∨ options.isExternal src
  · have hkeep : (src.isEmpty || options.isExternal src) = true := by simpa using hkept
    simp only [hkeep, hkept, if_true]
    exact iff_of_false nofun nofun
  · have hkeep : ¬ (src.isEmpty || options.isExternal src) = true := by simpa using hkept
    rw [if_neg hkeep, if_neg hkept]
    cases options.resolvePath item src with
    | none => exact iff_of_false nofun nofun
    | some resolved =>
      cases resolved with
      | nil => exact iff_of_false nofun nofun
      | cons c rest => simpa using fun heq => by rw [← heq]; exact nofun

theorem newSource_of_path {options : Options} {item src path : List Char}
    (h : pathOf? options item src = some path) :
    newSource options item src = options.resolveUrl path src := by
  rw [newSource, h]
  rfl

theorem newSource_of_no_path {options : Options} {item src : List Char}
    (h : pathOf? options item src = none) : newSource options item src = src := by
  rw [newSource, h]
  rfl

/-! ## Elements -/

section Elements

variable {options : Options} {item : List Char} (progress : Progress) {name : List Char}
  {attributes : Attributes}

theorem redirectElement_of_ne (h : name ≠ "img".toList) :
    redirectElement options item progress name attributes = (attributes, progress) :=
  if_neg h

/-- The source of an image is replaced by an address that is made for it, or it names no file and the image
stays as it is. -/
theorem redirectElement_img (options : Options) (item : List Char) (progress : Progress)
    (attributes : Attributes) :
    (∃ src path, attributes.get? "src".toList = some src ∧ pathOf? options item src = some path ∧
        redirectElement options item progress "img".toList attributes =
          (attributes.put "src".toList (options.resolveUrl path src),
            { progress with calls := progress.calls ++ [(path, src)] })) ∨
      (∀ src, attributes.get? "src".toList = some src → pathOf? options item src = none) ∧
        ∃ unresolved, redirectElement options item progress "img".toList attributes =
          (attributes, { progress with unresolved := unresolved }) := by
  unfold redirectElement
  rw [if_pos rfl]
  cases hsrc : attributes.get? "src".toList with
  | none => exact .inr ⟨nofun, progress.unresolved, rfl⟩
  | some src =>
    have hnone : (∀ path, decideSource options item src ≠ .redirect path) →
        ∀ other, some src = some other → pathOf? options item other = none := by
      rintro h other ⟨⟩
      exact Option.eq_none_iff_forall_ne_some.2 fun path hpath =>
        h path (decideSource_eq_redirect_iff.2 hpath)
    cases hdecide : decideSource options item src with
    | keep => exact .inr ⟨hnone (by simp [hdecide]), progress.unresolved, by simp only [hdecide]⟩
    | unresolved => exact .inr ⟨hnone (by simp [hdecide]), _, by simp only [hdecide]; rfl⟩
    | redirect path =>
      exact .inl ⟨src, path, rfl, decideSource_eq_redirect_iff.1 hdecide, by simp only [hdecide]⟩

/-- What redirecting leaves under a name. -/
def redirectedValue (options : Options) (item name key value : List Char) : List Char :=
  if name = "img".toList ∧ key = "src".toList then newSource options item value else value

/-- Redirecting changes the source of an image, and nothing else. -/
theorem get?_redirectElement (key : List Char) :
    (redirectElement options item progress name attributes).1.get? key =
      (attributes.get? key).map (redirectedValue options item name key) := by
  have hother : ¬ (name = "img".toList ∧ key = "src".toList) →
      attributes.get? key = (attributes.get? key).map (redirectedValue options item name key) := by
    intro hnot
    have hvalue : redirectedValue options item name key = id := funext fun value => if_neg hnot
    rw [hvalue, Option.map_id_fun, id]
  by_cases hname : name = "img".toList
  · subst hname
    obtain ⟨src, path, hsrc, hpath, heq⟩ | ⟨hnone, _, heq⟩ :=
      redirectElement_img options item progress attributes
    · rw [heq, Attributes.get?_put]
      by_cases hkey : key = "src".toList
      · rw [if_pos hkey, hkey, hsrc, Option.map_some, redirectedValue, if_pos ⟨rfl, rfl⟩,
          newSource_of_path hpath]
      · rw [if_neg hkey, ← hother fun h => hkey h.2]
    · rw [heq]
      by_cases hkey : key = "src".toList
      · subst hkey
        cases hsrc : attributes.get? "src".toList with
        | none => rfl
        | some src =>
          rw [Option.map_some, redirectedValue, if_pos ⟨rfl, rfl⟩,
            newSource_of_no_path (hnone src hsrc)]
      · exact hother fun h => hkey h.2
  · rw [redirectElement_of_ne progress hname]
    exact hother fun h => hname h.1

/-- Redirecting makes one address for an image whose source names a file, and else none. -/
theorem calls_redirectElement :
    (redirectElement options item progress name attributes).2.calls = progress.calls ++
      if name = "img".toList then
        ((attributes.get? "src".toList).bind (call? options item)).toList
      else [] := by
  by_cases hname : name = "img".toList
  · subst hname
    rw [if_pos rfl]
    obtain ⟨src, path, hsrc, hpath, heq⟩ | ⟨hnone, _, heq⟩ :=
      redirectElement_img options item progress attributes
    · rw [heq, hsrc, Option.bind_some, call?, hpath]
      rfl
    · have hcall : (attributes.get? "src".toList).bind (call? options item) = none :=
        Option.bind_eq_none_iff.2 fun src hsrc => by rw [call?, hnone src hsrc, Option.map_none]
      rw [heq, hcall]
      exact (List.append_nil _).symm
  · rw [redirectElement_of_ne progress hname, if_neg hname, List.append_nil]

/-- What a tag has and keeps when an image gets a source, it keeps by redirecting. -/
theorem keptBy_redirectElement {P : List Char → Attributes → Prop} (h : P name attributes)
    (hput : ∀ source, P "img".toList attributes →
      P "img".toList (attributes.put "src".toList source)) :
    P name (redirectElement options item progress name attributes).1 := by
  by_cases hname : name = "img".toList
  · subst hname
    obtain ⟨src, path, -, -, heq⟩ | ⟨-, _, heq⟩ :=
      redirectElement_img options item progress attributes
    · rw [heq]
      exact hput _ h
    · rw [heq]
      exact h
  · rw [redirectElement_of_ne progress hname]
    exact h

theorem regularTag_redirectElement (h : RegularTag name attributes) :
    RegularTag name (redirectElement options item progress name attributes).1 :=
  keptBy_redirectElement progress h fun source h => h.put (by decide) (by decide) source

end Elements

/-! ## Fragments -/

open Node

mutual

/-- The second node is the first with the sources of its images redirected. Attributes may stand in
another order. -/
inductive RedirectedTo (options : Options) (item : List Char) : Node → Node → Prop where
  /-- Text stays. -/
  | text (s : List Char) : RedirectedTo options item (.text s) (.text s)
  /-- What is neither text nor an element stays. -/
  | special (kind : Special) (s : List Char) :
    RedirectedTo options item (.special kind s) (.special kind s)
  /-- Of an element the source changes if it is an image, and nothing else. -/
  | element {name : List Char} {attributes others : Attributes} {children changed : List Node}
      (hattributes : ∀ key, others.get? key =
        (attributes.get? key).map (redirectedValue options item name key))
      (hchildren : RedirectedToAll options item children changed) :
      RedirectedTo options item (.element name attributes children) (.element name others changed)

/-- The second nodes are the first, one by one, with the sources of their images redirected. -/
inductive RedirectedToAll (options : Options) (item : List Char) : List Node → List Node → Prop where
  /-- There is nothing left. -/
  | nil : RedirectedToAll options item [] []
  /-- The first node is redirected, and the rest. -/
  | cons {node other : Node} {nodes others : List Node} (h : RedirectedTo options item node other)
      (hrest : RedirectedToAll options item nodes others) :
      RedirectedToAll options item (node :: nodes) (other :: others)

end

section Fragments

variable {options : Options} {item : List Char}

/-- Addresses are made for the sources of the images that name a file, in document order. -/
theorem calls_updateAll : ∀ (nodes : List Node) (progress : Progress),
    (updateAll (redirectElement options item) progress nodes).2.calls = progress.calls ++
      (imagesOf nodes).filterMap fun attributes =>
        (attributes.get? "src".toList).bind (call? options item)
  | [], progress => (List.append_nil _).symm
  | .text s :: nodes, progress => calls_updateAll nodes progress
  | .special kind s :: nodes, progress => calls_updateAll nodes progress
  | .element name attributes children :: nodes, progress => by
    rw [updateAll, update, calls_updateAll nodes, calls_updateAll children, calls_redirectElement,
      imagesOf_cons_element, List.filterMap_append, List.filterMap_append, List.append_assoc,
      List.append_assoc]
    congr 1
    split
    · rw [List.filterMap_cons]
      cases (attributes.get? "src".toList).bind (call? options item) <;> rfl
    · rfl

variable (options item) in
/-- The nodes with the sources of their images redirected. -/
def redirected (nodes : List Node) : List Node :=
  (updateAll (redirectElement options item) ({} : Progress) nodes).1

theorem regularAll_redirected {nodes : List Node} (h : RegularAll nodes) :
    RegularAll (redirected options item nodes) :=
  regularAll_updateAll (fun progress _ _ => regularTag_redirectElement progress) {} h

theorem tight_redirected {nodes : List Node} (h : Tight false false nodes) :
    Tight false false (redirected options item nodes) :=
  tight_updateAll (f := redirectElement options item) {} h

mutual

theorem redirectedTo_update (progress : Progress) : ∀ {node : Node}, Regular node →
    RedirectedTo options item node (update (fun (_ : Unit) _ attributes =>
      (sortAttributes attributes, ())) () (update (redirectElement options item) progress node).1).1
  | .text s, _ => .text s
  | .element name attributes children, h => by
    rw [update, update]
    refine .element (fun key => ?_) (redirectedToAll_updateAll _ h.2.2)
    have hdistinct :
        ((redirectElement options item progress name attributes).1.map (·.1)).Nodup :=
      (regularTag_redirectElement progress h.1).distinct
    rw [← Attributes.get?_of_perm (perm_sortAttributes _).symm hdistinct, get?_redirectElement]

theorem redirectedToAll_updateAll (progress : Progress) : ∀ {nodes : List Node}, RegularAll nodes →
    RedirectedToAll options item nodes
      (sorted (updateAll (redirectElement options item) progress nodes).1)
  | [], _ => .nil
  | _ :: _, h => .cons (redirectedTo_update progress h.1) (redirectedToAll_updateAll _ h.2)

end

variable (item) in
/-- HTML that can be read is redirected. -/
theorem exists_redirect_of_parse (hbuilder : options.builder ∈ builderNames) {html : List Char}
    {nodes : List Node} (h : parse html = some nodes) :
    ∃ result, redirect options item html = .ok result ∧
      result.html = serialize (redirected options item nodes) ∧
      result.calls = (imagesOf nodes).filterMap fun attributes =>
        (attributes.get? "src".toList).bind (call? options item) := by
  have hcalls := @calls_updateAll options item nodes {}
  unfold redirect
  rw [read_of_parse hbuilder h]
  exact ⟨_, rfl, rfl, hcalls⟩

end Fragments

/-! ## Items -/

/-- The sources of the images that are shown of some item nodes, once for each time, from left to right. A
source that is absent is empty. -/
def shownSources (nodes : List Xml.Node) : List (List Char) :=
  (Scoring.shownImages nodes).map fun attributes => (attributes.get? "src".toList).getD []

/-- Redirecting HTML with images of the given sources makes the addresses of those that name a file, and
what is read afterwards is what was read before with these sources redirected. -/
def RedirectsExactly (options : Options) (item html : List Char) (sources : List (List Char)) : Prop :=
  ∃ before result after, parse html = some before ∧
    (imagesOf before).map (fun attributes => attributes.get? "src".toList) = sources.map some ∧
    redirect options item html = .ok result ∧
    result.calls = sources.filterMap (call? options item) ∧
    parse result.html = some after ∧ RedirectedToAll options item before after

/-- The images that are read of the view have the sources that the item gives them. -/
theorem sources_shownNodes (blanks : Nat) (nodes : List Xml.Node) :
    (imagesOf (Scoring.shownNodes blanks nodes)).map (fun attributes => attributes.get? "src".toList) =
      (shownSources nodes).map some := by
  rw [Scoring.imagesOf_shownNodes, shownSources, List.map_map, List.map_map]
  rfl

/-- The view with the default options is redirected exactly, whatever the number of blanks before. -/
theorem redirectsExactly_renderNodes {options : Options} (hbuilder : options.builder ∈ builderNames)
    (item : List Char) (blanks : Nat) (nodes : List Xml.Node) :
    RedirectsExactly options item (Scoring.renderNodes {} Item.Spacing.root blanks nodes).html
      (shownSources nodes) := by
  have hparse := Scoring.parse_shown blanks nodes
  have hregular := Scoring.regularAll_shownNodes blanks nodes
  obtain ⟨result, hredirect, hhtml, hcalls⟩ := exists_redirect_of_parse item hbuilder hparse
  refine ⟨_, result, _, hparse, sources_shownNodes blanks nodes, hredirect, ?_, ?_,
    redirectedToAll_updateAll {} hregular⟩
  · calc result.calls
        = (imagesOf (Scoring.shownNodes blanks nodes)).filterMap fun attributes =>
            (attributes.get? "src".toList).bind (call? options item) := hcalls
      _ = ((imagesOf (Scoring.shownNodes blanks nodes)).map fun attributes =>
            attributes.get? "src".toList).filterMap fun src => src.bind (call? options item) := by
        rw [List.filterMap_map]
        rfl
      _ = (shownSources nodes).filterMap (call? options item) := by
        rw [sources_shownNodes, List.filterMap_map]
        rfl
  · rw [hhtml]
    exact parse_serialize (regularAll_redirected hregular)
      (tight_redirected (Scoring.tight_shownNodes blanks nodes))

/-- The sources of images are redirected exactly, in the prompt and in the explanation: for each image that
is shown and whose source names a file an address is made, in the order of the HTML, from the path of that
file and the source as the item has it; these sources are replaced by the addresses, and all else is read
as it was. -/
theorem images_are_redirected {root : Xml.Element} {item : Scoring.ScoringItem}
    (h : Scoring.render {} root = .ok item) {options : Options}
    (hbuilder : options.builder ∈ builderNames) (path : List Char) :
    (∃ body, Scoring.itemBody? root = some body ∧
        RedirectsExactly options path item.prompt (shownSources body.children)) ∧
      ∀ explanation, item.explanation = some explanation →
        ∃ nodes, Scoring.explanationNodes root = some nodes ∧
          RedirectsExactly options path explanation (shownSources nodes) := by
  unfold Scoring.render at h
  cases hbody : Scoring.itemBody? root with
  | none =>
    rw [hbody] at h
    cases h
  | some body =>
    rw [hbody] at h
    cases h
    refine ⟨⟨body, rfl, redirectsExactly_renderNodes hbuilder path 0 body.children⟩,
      fun explanation hexplanation => ?_⟩
    cases hnodes : Scoring.explanationNodes root with
    | none =>
      rw [hnodes] at hexplanation
      cases hexplanation
    | some nodes =>
      rw [hnodes] at hexplanation
      cases hexplanation
      exact ⟨nodes, rfl, redirectsExactly_renderNodes hbuilder path _ nodes⟩

/-- An item with an image that names a file and one that does not. -/
def itemWithImages : Xml.Element :=
  ⟨"qti-assessment-item".toList, [],
    [.element "qti-item-body".toList []
      [.element "qti-img".toList [("src".toList, "a&\x22'.png".toList)] [],
        .element "qti-img".toList [("src".toList, "https://b/c.png".toList)] []]]⟩

/-- Addresses of files below a directory. -/
def assets : Options := { resolveUrl := fun path _ => "/assets/".toList ++ path }

theorem images_of_itemWithImages_are_redirected :
    ∃ item, Scoring.render {} itemWithImages = .ok item ∧
      ∃ body, Scoring.itemBody? itemWithImages = some body ∧
        RedirectsExactly assets "items/q.xml".toList item.prompt (shownSources body.children) ∧
        (shownSources body.children).filterMap (call? assets "items/q.xml".toList) =
          [("items/a&\x22'.png".toList, "a&\x22'.png".toList)] := by
  obtain ⟨⟨body, hbody, hexact⟩, -⟩ :=
    @images_are_redirected itemWithImages _ rfl assets (by decide) "items/q.xml".toList
  refine ⟨_, rfl, body, hbody, hexact, ?_⟩
  cases hbody
  decide +kernel

end Assessment.Images
