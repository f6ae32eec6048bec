import Assessment.Proofs.Xml.Dtd
import Assessment.Proofs.Xml.Locate
import Assessment.Proofs.Xml.Reading

/-!
# Proofs: names in documents

The elements of a document that is read have local names made of the characters of names, and so do
their attributes, under the names that are written for them.
-/

namespace Assessment.Xml

open Assessment.Text

/-! ## Trees as written -/

namespace Written

mutual

/-- The elements of a tree and their attributes have names. -/
def Named : Written → Prop
  | .text _ => True
  | .element name attributes children =>
    NameLike name ∧ NamedAttributes attributes ∧ NamedAll children

/-- The elements of some trees and their attributes have names. -/
def NamedAll : List Written → Prop
  | [] => True
  | tree :: trees => Named tree ∧ NamedAll trees

end

theorem namedAll_iff {trees : List Written} : NamedAll trees ↔ ∀ tree ∈ trees, Named tree := by
  induction trees with
  | nil => simp [NamedAll]
  | cons tree trees ih => rw [NamedAll, ih, List.forall_mem_cons]

theorem namedAll_append {trees trees' : List Written} (h : NamedAll trees) (h' : NamedAll trees') :
    NamedAll (trees ++ trees') := by
  rw [namedAll_iff] at *
  exact fun tree ht => (List.mem_append.1 ht).elim (h tree) (h' tree)

theorem namedAll_reverse {trees : List Written} (h : NamedAll trees) : NamedAll trees.reverse := by
  rw [namedAll_iff] at *
  exact fun tree ht => h tree (List.mem_reverse.1 ht)

/-- The open elements, their attributes and the elements before them have names. -/
def NamedPath (path : List OpenElement) : Prop :=
  ∀ opened ∈ path, NamedAttributes opened.attributes ∧ NamedAll opened.before ∧ NameLike opened.name

theorem namedAll_of_grow {expand : List Char → Except Fault (List Written)}
    (hexpand : ∀ {name : List Char} {trees : List Written}, expand name = .ok trees → NamedAll trees)
    {tokens : List Token} {path : List OpenElement} {done trees : List Written}
    (htokens : ∀ token ∈ tokens, token.Named) (hpath : NamedPath path) (hdone : NamedAll done)
    (h : grow expand tokens path done = .ok trees) : NamedAll trees := by
  fun_induction grow expand tokens path done with
  | case1 done =>
    cases h
    exact namedAll_reverse hdone
  | case2 => cases h
  | case3 path done s plain tokens ih =>
    exact ih (List.forall_mem_cons.1 htokens).2 hpath ⟨trivial, hdone⟩ h
  | case4 path done tokens ih => exact ih (List.forall_mem_cons.1 htokens).2 hpath hdone h
  | case5 path done name tokens inner hinner ih =>
    exact ih (List.forall_mem_cons.1 htokens).2 hpath
      (namedAll_append (namedAll_reverse (hexpand hinner)) hdone) h
  | case6 => cases h
  | case7 path done name attributes tokens ih =>
    obtain ⟨hstart, hrest⟩ := List.forall_mem_cons.1 htokens
    exact ih hrest hpath ⟨⟨hstart.1, hstart.2, trivial⟩, hdone⟩ h
  | case8 path done name attributes tokens ih =>
    obtain ⟨hstart, hrest⟩ := List.forall_mem_cons.1 htokens
    exact ih hrest (List.forall_mem_cons.2 ⟨⟨hstart.2, hdone, hstart.1⟩, hpath⟩) trivial h
  | case9 => cases h
  | case10 done tokens opened path ih =>
    obtain ⟨⟨hattributes, hbefore, hname⟩, hpath⟩ := List.forall_mem_cons.1 hpath
    exact ih (List.forall_mem_cons.1 htokens).2 hpath
      ⟨⟨hname, hattributes, namedAll_reverse hdone⟩, hbefore⟩ h
  | case11 => cases h

theorem namedAll_nil : NamedAll [] := trivial

theorem namedPath_nil : NamedPath [] := fun _ ho => absurd ho List.not_mem_nil

theorem namedAll_of_ofEntity {dtd : Dtd} {depth : Nat} {name : List Char} {trees : List Written}
    (h : ofEntity dtd depth name = .ok trees) : NamedAll trees := by
  induction depth generalizing name trees with
  | zero => cases h
  | succ depth ih =>
    unfold ofEntity at h
    split at h
    · split at h
      · next tokens htokens =>
        exact namedAll_of_grow ih (Token.named_of_list htokens) namedPath_nil namedAll_nil h
      · cases h
    · cases h
    · cases h

theorem named_of_root {dtd : Dtd} {s : List Char} {tree : Written} (h : root dtd s = .ok tree) :
    tree.Named := by
  obtain ⟨tokens, htokens, h⟩ := exists_of_bind h
  split at h
  · obtain ⟨trees, htrees, h⟩ := exists_of_bind h
    split at h
    · cases h
      exact (namedAll_of_grow namedAll_of_ofEntity (Token.named_of_list htokens) namedPath_nil
        namedAll_nil htrees).1
    · cases h
  · cases h

end Written

/-! ## Names with namespaces -/

/-- The part of a name after its prefix has no more characters than the name. -/
theorem nameLike_splitName {name : List Char} (h : NameLike name) : NameLike (splitName name).2 := by
  have hdrop := (List.dropWhile_suffix (· != ':') (l := name)).subset
  unfold splitName
  split
  · next c part heq =>
    rw [heq] at hdrop
    exact h.of_subset fun d hd => hdrop (List.mem_cons_of_mem c hd)
  · exact h

theorem localName_of_nameLike {name : List Char} (h : NameLike name) : localName name = name :=
  localName_of_not_mem fun hbrace => (h.ne hbrace).2.2.2 rfl

/-- The local name of a name in a namespace is that name. -/
theorem localName_inBraces {uri name : List Char} (h : NameLike name) :
    localName (inBraces uri name) = name :=
  (localName_append_brace ('{' :: uri) name).trans (localName_of_nameLike h)

theorem attributeName_of_nameLike {name : List Char} (h : NameLike name) :
    attributeName name = name := by
  unfold attributeName
  split
  · exact absurd rfl (h.ne List.mem_cons_self).2.2.1
  · rfl

/-- A name in a namespace is written without it. -/
theorem attributeName_inBraces {uri : List Char} (huri : '}' ∉ uri) (name : List Char) :
    attributeName (inBraces uri name) =
      if uri = xmlNamespace then "xml:".toList ++ name else name := by
  have hcut : cutAtChar? '}' (uri ++ '}' :: name) = some (uri, name) :=
    cutAtChar?_append_cons huri name
  simp only [attributeName, inBraces, List.cons_append, hcut, Option.getD_some]

theorem isName_attributeName_inBraces {uri name : List Char} (huri : '}' ∉ uri)
    (h : IsName name) : IsName (attributeName (inBraces uri name)) := by
  have hxml : NameLike "xml:".toList :=
    (by decide +kernel : ∀ c ∈ "xml:".toList, isNameChar c = true ∨ c = ':')
  rw [attributeName_inBraces huri]
  split
  · exact ⟨hxml.append h.like, by simp⟩
  · exact h

/-! ## Scopes -/

/-- No namespace in the scope holds a closing brace. -/
def Scope.Closed (scope : Scope) : Prop := ∀ bound ∈ scope, '}' ∉ bound.2

theorem Scope.closed_initial : Scope.initial.Closed := by
  rw [Closed, initial, List.forall_mem_singleton]
  decide

theorem Scope.Closed.not_mem {scope : Scope} (h : scope.Closed) {space : Option (List Char)}
    {uri : List Char} (hlookup : scope.lookup? space = some uri) : '}' ∉ uri := by
  obtain ⟨bound, hfind, rfl⟩ := Option.map_eq_some_iff.1 hlookup
  exact h bound (List.mem_of_find?_eq_some hfind)

theorem Scope.Closed.declare {scope scope' : Scope} (h : scope.Closed)
    {declared : Option (List Char)} {uri : List Char}
    (hdeclare : scope.declare declared uri = .ok scope') : scope'.Closed := by
  unfold Scope.declare at hdeclare
  dsimp only at hdeclare
  split at hdeclare
  · cases hdeclare
  split at hdeclare
  · cases hdeclare
  split at hdeclare
  · cases hdeclare
  · next hbrace =>
    split at hdeclare
    · cases hdeclare
    split at hdeclare <;> cases hdeclare
    refine List.forall_mem_cons.2 ⟨?_, h⟩
    simpa using hbrace

theorem Scope.Closed.inside {scope scope' : Scope} (h : scope.Closed)
    {attributes : List (List Char × List Char)} (hinside : scope.inside attributes = .ok scope') :
    scope'.Closed := by
  unfold Scope.inside at hinside
  induction attributes generalizing scope with
  | nil =>
    cases hinside
    exact h
  | cons entry entries ih =>
    rw [List.foldlM_cons] at hinside
    obtain ⟨scope1, hstep, hinside⟩ := exists_of_bind hinside
    refine ih ?_ hinside
    dsimp only at hstep
    split at hstep
    · exact h.declare hstep
    · cases hstep
      exact h

theorem Scope.nameLike_tag {scope : Scope} {name tag : List Char} (hname : NameLike name)
    (h : scope.tag name = .ok tag) : NameLike (localName tag) := by
  have hpart := nameLike_splitName hname
  unfold Scope.tag at h
  split at h
  · next part heq =>
    rw [heq] at hpart
    split at h <;> cases h
    · rw [localName_inBraces hpart]
      exact hpart
    · rw [localName_of_nameLike hpart]
      exact hpart
  · next space part heq =>
    rw [heq] at hpart
    split at h <;> cases h
    rw [localName_inBraces hpart]
    exact hpart

theorem Scope.Closed.isName_attributeTag {scope : Scope} (hscope : scope.Closed)
    {name tag : List Char} (hpart : IsName (splitName name).2)
    (h : scope.attributeTag name = .ok tag) : IsName (attributeName tag) := by
  unfold Scope.attributeTag at h
  split at h
  · next part heq =>
    rw [heq] at hpart
    cases h
    rw [attributeName_of_nameLike hpart.like]
    exact hpart
  · next space part heq =>
    rw [heq] at hpart
    split at h
    · next uri huri =>
      cases h
      exact isName_attributeName_inBraces (hscope.not_mem huri) hpart
    · cases h

/-! ## Trees -/

mutual

/-- The elements of a node have local names, and their attributes are written under names. -/
def Node.Named : Node → Prop
  | .element tag attributes children =>
    NameLike (localName tag) ∧ (∀ a ∈ attributes, IsName (attributeName a.1)) ∧
      NamedNodes children
  | _ => True

/-- The elements of some nodes have local names, and their attributes are written under names. -/
def NamedNodes : List Node → Prop
  | [] => True
  | node :: nodes => node.Named ∧ NamedNodes nodes

end

theorem NamedNodes.of_mem {nodes : List Node} {node : Node} (h : NamedNodes nodes)
    (hmem : node ∈ nodes) : node.Named := by
  induction nodes with
  | nil => cases hmem
  | cons first nodes ih =>
    rcases List.mem_cons.1 hmem with rfl | hmem
    · exact h.1
    · exact ih h.2 hmem

theorem namedNodes_joinText {s : List Char} {nodes : List Node} (h : NamedNodes nodes) :
    NamedNodes (joinText s nodes) := by
  unfold joinText
  split
  · exact ⟨trivial, h.2⟩
  · split
    · exact h
    · exact ⟨trivial, h⟩

theorem namedNodes_prepend {node : Node} {nodes : List Node} (hnode : node.Named)
    (h : NamedNodes nodes) : NamedNodes (prepend node nodes) := by
  cases node with
  | text s => exact namedNodes_joinText h
  | comment s => exact ⟨trivial, h⟩
  | element tag attributes children => exact ⟨hnode, h⟩

/-- Written and added attributes have names. -/
theorem isName_attributeValues {dtd : Dtd} (hdtd : dtd.NamedRules) {element : List Char}
    {written : List RawAttribute} (hwritten : NamedAttributes written)
    {values : List (List Char × List Char)} (h : attributeValues dtd element written = .ok values) :
    ∀ a ∈ values, IsName (splitName a.1).2 := by
  obtain ⟨given, hgiven, h⟩ := exists_of_bind h
  cases h
  have hnamed : ∀ a ∈ given, IsName (splitName a.1).2 := by
    intro a ha
    obtain ⟨raw, hraw, hfound⟩ := exists_of_mem_mapM hgiven ha
    obtain ⟨value, -, hfound⟩ := exists_of_bind hfound
    cases hfound
    exact hwritten raw hraw
  intro a ha
  rcases List.mem_append.1 ha with ha | ha
  · exact hnamed a ha
  · obtain ⟨rule, hrule, hfallback⟩ := List.mem_filterMap.1 ha
    split at hfallback
    · cases hfallback
    · obtain ⟨value, -, rfl⟩ := Option.map_eq_some_iff.1 hfallback
      obtain ⟨declared, hdeclared, rfl⟩ := List.mem_map.1 hrule
      exact hdtd declared (List.mem_filter.1 hdeclared).1

mutual

theorem named_of_resolve {dtd : Dtd} (hdtd : dtd.NamedRules) : ∀ {scope : Scope} {tree : Written}
    {node : Node}, scope.Closed → tree.Named → resolve dtd scope tree = .ok node → node.Named
  | _, .text _, _, _, _, h => by
    cases h
    trivial
  | scope, .element name written children, node, hscope, htree, h => by
    obtain ⟨hname, hwritten, hchildren⟩ := htree
    obtain ⟨values, inside, attributes, tag, nodes, rfl, hvalues, hinside, hattributes, htag, hnodes⟩ :=
      exists_of_resolve_element h
    have hclosed := hscope.inside hinside
    have hkeys : ∀ a ∈ attributes, IsName (attributeName a.1) := by
      intro a ha
      obtain ⟨key, hvalue, -, hkey⟩ := hattributes a ha
      exact hclosed.isName_attributeTag (isName_attributeValues hdtd hwritten hvalues _ hvalue) hkey
    exact ⟨Scope.nameLike_tag hname htag, hkeys,
      namedNodes_of_resolveAll hdtd hclosed hchildren hnodes⟩

theorem namedNodes_of_resolveAll {dtd : Dtd} (hdtd : dtd.NamedRules) : ∀ {scope : Scope}
    {trees : List Written} {nodes : List Node}, scope.Closed → Written.NamedAll trees →
    resolveAll dtd scope trees = .ok nodes → NamedNodes nodes
  | _, [], _, _, _, h => by
    cases h
    trivial
  | scope, tree :: trees, nodes, hscope, htrees, h => by
    obtain ⟨node, others, rfl, hnode, hothers⟩ := exists_of_resolveAll_cons h
    exact namedNodes_prepend (named_of_resolve hdtd hscope htrees.1 hnode)
      (namedNodes_of_resolveAll hdtd hscope htrees.2 hothers)

end

/-- The elements of a document that is read have names. -/
theorem named_of_readDocument {source : Source} {root : Element}
    (h : readDocument source = .ok root) : root.toNode.Named := by
  obtain ⟨_, _, _, _, _, _, htokens, hdtd, htree, hnode⟩ := exists_of_readDocument h
  exact named_of_resolve (Dtd.namedRules_of_ofTokens (Dtd.Token.named_of_list htokens) hdtd)
    Scope.closed_initial (Written.named_of_root htree) hnode

mutual

/-- What is below a node with names has names. -/
theorem namedNodes_of_mem_elements : ∀ {node : Node} {e : Element}, node.Named →
    e ∈ node.elements → NamedNodes e.children
  | .text _, _, _, h => absurd h List.not_mem_nil
  | .comment _, _, _, h => absurd h List.not_mem_nil
  | .element tag attributes children, e, hnode, h => by
    rcases List.mem_cons.1 h with heq | h
    · rw [heq]
      exact hnode.2.2
    · exact namedNodes_of_mem_elementsOf hnode.2.2 h

theorem namedNodes_of_mem_elementsOf : ∀ {nodes : List Node} {e : Element}, NamedNodes nodes →
    e ∈ elementsOf nodes → NamedNodes e.children
  | [], _, _, h => absurd h List.not_mem_nil
  | node :: nodes, e, hnodes, h => by
    rcases List.mem_append.1 h with h | h
    · exact namedNodes_of_mem_elements hnodes.1 h
    · exact namedNodes_of_mem_elementsOf hnodes.2 h

end

theorem Element.descendants_of_mem_locate {root e : Element} {name : List Char}
    (h : e ∈ root.locate name) : e ∈ root.descendants := by
  unfold locate at h
  split at h
  · exact (List.mem_filter.1 h).1
  · next hfound => exact (List.mem_filter.1 h).1

end Assessment.Xml
