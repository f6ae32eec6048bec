import Assessment.Proofs.Report.ShownText

/-!
# Proofs: rendering element by element

The elements of an item that a report reaches (`reachedIn`). What is known of each part that a report is
rendered from goes over to the report as a whole (`KeptByRendering.nodes`): this is the one induction
over rendered nodes, whatever is said of their HTML.
-/

namespace Assessment.Report

open Assessment.Item Assessment.Text Assessment.Xml Assessment.Markup

/-! ## The elements that are reached -/

mutual

/-- The elements that are reached of a node, in document order. -/
def reachedOf : Node → List Element
  | .text _ => []
  | .comment _ => []
  | .element tag attributes children =>
    ⟨tag, attributes, children⟩ ::
      if silentNames.contains (localName tag) then [] else reachedIn children

/-- The elements that are reached of some nodes, in document order. -/
def reachedIn : List Node → List Element
  | [] => []
  | node :: nodes => reachedOf node ++ reachedIn nodes

end

mutual

theorem reachedIn_subset_of_mem_reachedOf {e : Element} (hshown : silentNames.contains e.name = false) :
    ∀ {node : Node}, e ∈ reachedOf node → reachedIn e.children ⊆ reachedOf node
  | .text _, h => absurd h List.not_mem_nil
  | .comment _, h => absurd h List.not_mem_nil
  | .element tag attributes children, h => by
    rw [reachedOf] at h ⊢
    rcases List.mem_cons.1 h with rfl | h
    · have hnot : ¬ silentNames.contains (localName tag) = true := ne_true_of_eq_false hshown
      rw [if_neg hnot]
      exact List.subset_cons_self _ _
    · split at h
      · cases h
      · next htag =>
        intro inner hinner
        rw [if_neg htag]
        exact List.mem_cons_of_mem _ (reachedIn_subset hshown h hinner)

/-- What is reached of an element that is reached is reached. -/
theorem reachedIn_subset {e : Element} (hshown : silentNames.contains e.name = false) :
    ∀ {nodes : List Node}, e ∈ reachedIn nodes → reachedIn e.children ⊆ reachedIn nodes
  | [], h => absurd h List.not_mem_nil
  | node :: nodes, h => by
    rw [reachedIn] at h ⊢
    intro inner hinner
    rcases List.mem_append.1 h with h | h
    · exact List.mem_append_left _ (reachedIn_subset_of_mem_reachedOf hshown h hinner)
    · exact List.mem_append_right _ (reachedIn_subset hshown h hinner)

end

mutual

theorem named_of_mem_reachedOf {e : Element} : ∀ {node : Node}, node.Named → e ∈ reachedOf node →
    e.toNode.Named
  | .text _, _, h => absurd h List.not_mem_nil
  | .comment _, _, h => absurd h List.not_mem_nil
  | .element tag attributes children, hnode, h => by
    rw [reachedOf] at h
    rcases List.mem_cons.1 h with rfl | h
    · exact hnode
    · split at h
      · cases h
      · exact named_of_mem_reachedIn hnode.2.2 h

/-- The elements that are reached of nodes with names have names. -/
theorem named_of_mem_reachedIn {e : Element} : ∀ {nodes : List Node}, NamedNodes nodes →
    e ∈ reachedIn nodes → e.toNode.Named
  | [], _, h => absurd h List.not_mem_nil
  | node :: nodes, hnodes, h => by
    rw [reachedIn] at h
    rcases List.mem_append.1 h with h | h
    · exact named_of_mem_reachedOf hnodes.1 h
    · exact named_of_mem_reachedIn hnodes.2 h

end

theorem reachedOf_of_shown {tag : List Char} {attributes : Attributes} {children : List Node}
    (h : silentNames.contains (localName tag) = false) :
    reachedOf (.element tag attributes children) =
      ⟨tag, attributes, children⟩ :: reachedIn children := by
  rw [reachedOf, if_neg (ne_true_of_eq_false h)]

theorem reachedOf_of_silent {tag : List Char} {attributes : Attributes} {children : List Node}
    (h : silentNames.contains (localName tag) = true) :
    reachedOf (.element tag attributes children) = [⟨tag, attributes, children⟩] := by
  rw [reachedOf, if_pos h]

/-- What is reached from an element that is reached is reached. -/
theorem reachedOf_subset {e : Element} {nodes : List Node} (h : e ∈ reachedIn nodes) :
    reachedOf e.toNode ⊆ reachedIn nodes := by
  intro inner hinner
  rw [Element.toNode, reachedOf] at hinner
  rcases List.mem_cons.1 hinner with rfl | hinner
  · exact h
  · split at hinner
    · cases hinner
    · next hshown => exact reachedIn_subset (eq_false_of_ne_true hshown) h hinner

/-! ## Names in HTML -/

/-- The name that an element has in HTML is that of a tag if the element has it, with the prefix or
without. -/
theorem htmlName_eq_iff {tag : List Char} (htag : after? "qti-".toList tag = none) (name : List Char) :
    htmlName name = tag ↔ name = "qti-".toList ++ tag ∨ name = tag := by
  unfold htmlName
  constructor
  · intro h
    cases hafter : after? "qti-".toList name with
    | none =>
      rw [hafter] at h
      exact .inr h
    | some rest =>
      rw [hafter] at h
      exact .inl ((after?_eq_some_iff.1 hafter).trans (congrArg _ h))
  · rintro (rfl | rfl)
    · rw [after?_eq_some_iff.2 rfl]
      rfl
    · rw [htag]
      rfl

theorem htmlName_beq_pre (name : List Char) :
    (htmlName name == "pre".toList) = preNames.contains name := by
  rw [Bool.eq_iff_iff, beq_iff_eq, htmlName_eq_iff rfl, List.contains_iff_mem]
  simp [preNames]

theorem htmlName_beq_code (name : List Char) :
    (htmlName name == "code".toList) = codeNames.contains name := by
  rw [Bool.eq_iff_iff, beq_iff_eq, htmlName_eq_iff rfl, List.contains_iff_mem]
  simp [codeNames]

/-! ## What rendering keeps -/

/-- What is said of HTML and of the elements that it is rendered from holds of all parts of a report, and
goes over to what is put together from them. `Q` is known of the elements. -/
structure KeptByRendering (options : Options) (Q : Element → Prop)
    (P : List Element → List Char → Prop) : Prop where
  /-- Text is rendered from no element. -/
  text : ∀ {s : List Char}, Unbracketed s → P [] s
  /-- Parts stand one after the other. -/
  append : ∀ {elements more : List Element} {html others : List Char}, P elements html →
    P more others → P (elements ++ more) (html ++ others)
  /-- An element is not shown. -/
  hidden : ∀ {e : Element}, Rule.ofName e.name = .hidden → P [e] []
  /-- An element is shown as a blank. -/
  cloze : ∀ {e : Element}, Rule.ofName e.name = .cloze → P [e] options.cloze
  /-- An element is shown as an image. -/
  image : ∀ {e : Element}, Rule.ofName e.name = .image → e.toNode.Named →
    P [e] ("<img".toList ++ Xml.writeAttributes e.attributes ++ " />".toList)
  /-- An element is shown as a line. -/
  line : ∀ {e : Element}, Rule.ofName e.name = .line → P [e] "<hr />".toList
  /-- An element holds choices. -/
  choices : ∀ {e : Element} {html : List Char}, Rule.ofName e.name = .choices →
    P (reachedIn e.children) html →
      P (e :: reachedIn e.children) (within "div".toList (choiceWrapperAttribute options) html)
  /-- An element keeps its name. -/
  element : ∀ {e : Element} {spacing : Spacing}, Rule.ofName e.name ∈ [.pre, .code, .renamed] →
    (Rule.ofName e.name = .pre → spacing = Spacing.pre) → e.toNode.Named → Q e →
    P (reachedIn e.children) (renderNodes options spacing e.children) →
      P (e :: reachedIn e.children) (within (htmlName e.name) (Xml.writeAttributes e.attributes)
        (renderNodes options spacing e.children))

namespace KeptByRendering

variable {options : Options} {Q : Element → Prop} {P : List Element → List Char → Prop}

mutual

theorem node (h : KeptByRendering options Q P) (spacing : Spacing) : ∀ {node : Node},
    node.Named → (∀ e ∈ reachedOf node, Q e) → P (reachedOf node) (renderNode options spacing node)
  | .text s, _, _ => by
    rw [renderNode, Spacing.render, reachedOf]
    split
    · exact h.text fun _ hc => absurd hc List.not_mem_nil
    · exact h.text (unbracketed_escape s)
  | .comment s, _, _ => h.text fun _ hc => absurd hc List.not_mem_nil
  | .element tag attributes children, hnode, hreached => by
    obtain ⟨hsilent, hpreRule, hcodeRule⟩ := contains_of_ofName (localName tag)
    have hself : Q ⟨tag, attributes, children⟩ := hreached _ (by simp [reachedOf])
    have hinside : silentNames.contains (localName tag) = false → ∀ inner : Spacing,
        P (reachedIn children) (renderNodes options inner children) := by
      intro hshown inner
      rw [reachedOf_of_shown hshown] at hreached
      exact h.nodes inner hnode.2.2 fun e he => hreached e (List.mem_cons_of_mem _ he)
    have hkept := @KeptByRendering.element _ _ _ h ⟨tag, attributes, children⟩
    rw [renderNode]
    cases hrule : Rule.ofName (localName tag) <;> rw [hrule] at hsilent hpreRule hcodeRule <;> dsimp only
    case hidden =>
      rw [reachedOf_of_silent hsilent]
      exact h.hidden hrule
    case choices =>
      rw [reachedOf_of_shown hsilent]
      exact h.choices hrule (hinside hsilent spacing)
    case cloze =>
      rw [reachedOf_of_silent hsilent]
      exact h.cloze hrule
    case pre =>
      have hname : htmlName (localName tag) = "pre".toList :=
        beq_iff_eq.1 ((htmlName_beq_pre _).trans hpreRule)
      rw [reachedOf_of_shown hsilent, ← hname]
      exact hkept (by rw [Element.name, hrule]; decide) (fun _ => rfl) hnode hself (hinside hsilent _)
    case code =>
      have hname : htmlName (localName tag) = "code".toList :=
        beq_iff_eq.1 ((htmlName_beq_code _).trans hcodeRule)
      rw [reachedOf_of_shown hsilent, ← hname]
      exact hkept (by rw [Element.name, hrule]; decide) (fun hpre => nomatch hrule.symm.trans hpre) hnode
        hself (hinside hsilent _)
    case image =>
      rw [reachedOf_of_silent hsilent]
      exact h.image hrule hnode
    case line =>
      rw [reachedOf_of_silent hsilent]
      exact h.line hrule
    case renamed =>
      rw [reachedOf_of_shown hsilent]
      exact hkept (by rw [Element.name, hrule]; decide) (fun hpre => nomatch hrule.symm.trans hpre) hnode
        hself (hinside hsilent _)

/-- What holds of all parts of a report holds of rendered nodes. -/
theorem nodes (h : KeptByRendering options Q P) (spacing : Spacing) : ∀ {nodes : List Node},
    NamedNodes nodes → (∀ e ∈ reachedIn nodes, Q e) →
      P (reachedIn nodes) (renderNodes options spacing nodes)
  | [], _, _ => h.text fun _ hc => absurd hc List.not_mem_nil
  | node :: nodes, hnodes, hreached => by
    rw [renderNodes, reachedIn]
    rw [reachedIn] at hreached
    have hfirst := h.node spacing hnodes.1 fun e he => hreached e (List.mem_append_left _ he)
    have hrest := h.nodes spacing hnodes.2 fun e he => hreached e (List.mem_append_right _ he)
    exact h.append hfirst hrest

end

end KeptByRendering

end Assessment.Report
