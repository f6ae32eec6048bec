import Assessment.Proofs.Xml.Name
import Assessment.Proofs.Xml.Splicing
import Assessment.Xml.Document

/-!
# Proofs: the steps of reading a document

What a document that is read went through: its tokens and declarations, its tree as written, and the
scope and the attributes of each element. What holds of all documents is proved from these lemmas, by
induction on the tree as written.
-/

namespace Assessment.Xml

open Assessment.Text

/-- What a traversal gives comes from a member of the list. -/
theorem exists_of_mem_mapM {ε α β : Type} {f : α → Except ε β} {as : List α} {bs : List β}
    (h : as.mapM f = .ok bs) {b : β} (hb : b ∈ bs) : ∃ a ∈ as, f a = .ok b := by
  induction as generalizing bs with
  | nil =>
    cases h
    exact absurd hb List.not_mem_nil
  | cons a as ih =>
    rw [List.mapM_cons] at h
    obtain ⟨first, hfirst, h⟩ := exists_of_bind h
    obtain ⟨others, hothers, h⟩ := exists_of_bind h
    cases h
    rcases List.mem_cons.1 hb with rfl | hb
    · exact ⟨a, List.mem_cons_self, hfirst⟩
    · obtain ⟨other, hother, hfound⟩ := ih hothers hb
      exact ⟨other, List.mem_cons_of_mem a hother, hfound⟩

variable {dtd : Dtd} {scope : Scope} {name : List Char} {written : List RawAttribute}
  {tree : Written} {children trees : List Written} {node : Node} {nodes : List Node}

/-- The attributes of an element are those of its values that declare nothing, under the names that they
have in the scope inside of it. -/
theorem exists_of_resolve_element (h : resolve dtd scope (.element name written children) = .ok node) :
    ∃ values inside attributes tag nodes, node = .element tag attributes nodes ∧
      attributeValues dtd name written = .ok values ∧ scope.inside values = .ok inside ∧
      (∀ a ∈ attributes, ∃ key, (key, a.2) ∈ values ∧ declaredPrefix? key = none ∧
        inside.attributeTag key = .ok a.1) ∧
      inside.tag name = .ok tag ∧ resolveAll dtd inside children = .ok nodes := by
  unfold resolve at h
  split at h
  · cases h
  obtain ⟨values, hvalues, h⟩ := exists_of_bind h
  obtain ⟨inside, hinside, h⟩ := exists_of_bind h
  obtain ⟨attributes, hattributes, h⟩ := exists_of_bind h
  split at h
  · cases h
  obtain ⟨tag, htag, h⟩ := exists_of_bind h
  obtain ⟨nodes, hnodes, h⟩ := exists_of_bind h
  cases h
  refine ⟨values, inside, attributes, tag, nodes, rfl, hvalues, hinside, fun a ha => ?_, htag, hnodes⟩
  obtain ⟨value, hshown, hfound⟩ := exists_of_mem_mapM hattributes ha
  obtain ⟨key, hkey, hfound⟩ := exists_of_bind hfound
  cases hfound
  obtain ⟨hvalue, hdeclares⟩ := List.mem_filter.1 hshown
  exact ⟨value.1, hvalue, Option.isNone_iff_eq_none.1 hdeclares, hkey⟩

/-- Trees are resolved one by one, and texts that meet become one. -/
theorem exists_of_resolveAll_cons (h : resolveAll dtd scope (tree :: trees) = .ok nodes) :
    ∃ node others, nodes = prepend node others ∧ resolve dtd scope tree = .ok node ∧
      resolveAll dtd scope trees = .ok others := by
  unfold resolveAll at h
  obtain ⟨node, hnode, h⟩ := exists_of_bind h
  refine ⟨node, ?_⟩
  cases node with
  | text s =>
    obtain ⟨others, hothers, h⟩ := exists_of_bind h
    cases h
    exact ⟨others, rfl, hnode, hothers⟩
  | comment s =>
    obtain ⟨others, hothers, h⟩ := exists_of_bind h
    cases h
    exact ⟨others, rfl, hnode, hothers⟩
  | element tag attributes children =>
    obtain ⟨others, hothers, h⟩ := exists_of_bind h
    cases h
    exact ⟨others, rfl, hnode, hothers⟩

/-- The root of a document is resolved from its tree as written, with its declarations. -/
theorem exists_of_readDocument {source : Source} {root : Element} (h : readDocument source = .ok root) :
    ∃ s tokens rest standalone dtd tree, Dtd.Token.list s = .ok (tokens, rest) ∧
      Dtd.ofTokens standalone tokens = .ok dtd ∧ Written.root dtd rest = .ok tree ∧
      resolve dtd Scope.initial tree = .ok root.toNode := by
  obtain ⟨⟨declaration, s⟩, -, h⟩ := exists_of_bind h
  unfold readText at h
  dsimp only at h
  split at h
  · cases h
  obtain ⟨⟨tokens, rest⟩, htokens, h⟩ := exists_of_bind h
  obtain ⟨dtd, hdtd, h⟩ := exists_of_bind h
  obtain ⟨tree, htree, h⟩ := exists_of_bind h
  obtain ⟨node, hnode, h⟩ := exists_of_bind h
  refine ⟨s, tokens, rest, _, dtd, tree, htokens, hdtd, htree, ?_⟩
  split at h
  · cases h
    exact hnode
  · cases h

end Assessment.Xml
