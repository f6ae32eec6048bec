import Assessment.Proofs.Markup.PlainTags
import Assessment.Proofs.Xml.Document

/-!
# Proofs: the attributes of a document, written and read

Reading a document leaves no declaration of a namespace among the attributes of its elements
(`declaresNothing_of_readDocument`), so all of them are written in a start tag. Reading that tag as text
finds them again, with the values escaped (`written_attributes_are_read`).
-/

namespace Assessment.Xml

open Assessment.Markup Assessment.Markup.StartTag

/-! ## Declarations of namespaces -/

/-- No attribute of the element declares a namespace. -/
def Element.DeclaresNothing (e : Element) : Prop := ∀ a ∈ e.attributes, isDeclaration a.1 = false

theorem isDeclaration_of_declaredPrefix? {name : List Char} (h : declaredPrefix? name = none) :
    isDeclaration name = false := by
  unfold declaredPrefix? at h
  split at h
  · cases h
  · next hplain =>
    have hprefixed : Text.after? "xmlns:".toList name = none := Option.map_eq_none_iff.1 h
    rw [isDeclaration, Text.startsWith, hprefixed, beq_false_of_ne hplain]
    rfl

/-- The name of an attribute that is no declaration does not become one. -/
theorem Scope.isDeclaration_attributeTag {scope : Scope} {name tag : List Char}
    (hname : declaredPrefix? name = none) (h : scope.attributeTag name = .ok tag) :
    isDeclaration tag = false := by
  unfold Scope.attributeTag at h
  split at h
  · next part hsplit =>
    obtain rfl : name = part := by
      unfold splitName at hsplit
      split at hsplit
      · cases hsplit
      · cases hsplit
        rfl
    cases h
    exact isDeclaration_of_declaredPrefix? hname
  · split at h
    · cases h
      exact isDeclaration_of_declaredPrefix? rfl
    · cases h

mutual

/-- A written tree gives elements without declarations. -/
theorem declaresNothing_of_resolve {dtd : Dtd} : ∀ {scope : Scope} {tree : Written} {node : Node},
    resolve dtd scope tree = .ok node → ∀ e ∈ node.elements, e.DeclaresNothing
  | _, .text _, _, h => by
    cases h
    exact fun _ he => absurd he List.not_mem_nil
  | scope, .element name written children, node, h => by
    obtain ⟨values, inside, attributes, tag, nodes, rfl, -, -, hattributes, -, hnodes⟩ :=
      exists_of_resolve_element h
    have hnone : ∀ a ∈ attributes, isDeclaration a.1 = false := by
      intro a ha
      obtain ⟨key, -, hdeclares, hkey⟩ := hattributes a ha
      exact inside.isDeclaration_attributeTag hdeclares hkey
    exact List.forall_mem_cons.2 ⟨hnone, declaresNothing_of_resolveAll hnodes⟩

theorem declaresNothing_of_resolveAll {dtd : Dtd} : ∀ {scope : Scope} {trees : List Written}
    {nodes : List Node}, resolveAll dtd scope trees = .ok nodes →
      ∀ e ∈ elementsOf nodes, e.DeclaresNothing
  | _, [], _, h => by
    cases h
    exact fun _ he => absurd he List.not_mem_nil
  | scope, tree :: trees, nodes, h => by
    obtain ⟨node, others, rfl, hnode, hothers⟩ := exists_of_resolveAll_cons h
    rw [elementsOf_prepend]
    exact List.forall_mem_append.2
      ⟨declaresNothing_of_resolve hnode, declaresNothing_of_resolveAll hothers⟩

end

/-- No element of a document that is read has a declaration among its attributes. -/
theorem declaresNothing_of_readDocument {source : Source} {root e : Element}
    (h : readDocument source = .ok root) (he : e ∈ root.toNode.elements) : e.DeclaresNothing := by
  obtain ⟨_, _, _, _, _, _, -, -, -, hnode⟩ := exists_of_readDocument h
  exact declaresNothing_of_resolve hnode e he

/-! ## Written attributes -/

/-- Attributes in a start tag are found whatever the name of the tag is, and nothing else is. -/
theorem findAll_tag_of_plain {name : List Char} (hname : ∀ c ∈ name, isTagNameChar c = true)
    {entries : List Entry} (h : ∀ e ∈ entries, e.Plain) :
    quotedAttribute.findAll ('<' :: name ++ writeEntries entries ++ ['>']) = pairs entries := by
  have hsign := (solid_of_isTagNameChar hname).isValue.not_mem.1
  have hstops := stops_writeEntries fun e he => (h e he).delimited
  rw [List.cons_append, List.cons_append, List.append_assoc,
    findAll_cons_of_not_isNameStart (by decide), findAll_append_of_stops hsign hstops,
    findAll_writeEntries_of_plain h]

/-- The attributes as the parts of a tag. -/
def entriesOfAttributes (attributes : Attributes) : List Entry :=
  attributes.map fun a => ⟨attributeName a.1, escape a.2, []⟩

theorem writeEntries_entriesOfAttributes {attributes : Attributes}
    (h : ∀ a ∈ attributes, isDeclaration a.1 = false) :
    writeEntries (entriesOfAttributes attributes) = writeAttributes attributes := by
  induction attributes with
  | nil => rfl
  | cons a attributes ih =>
    obtain ⟨key, value⟩ := a
    obtain ⟨ha, hattributes⟩ := List.forall_mem_cons.1 h
    have hfirst : Entry.write ⟨attributeName key, escape value, []⟩ = writeAttribute key value := by
      simp [Entry.write, writeAttribute]
    have hcons : writeAttributes ((key, value) :: attributes) =
        writeAttribute key value ++ writeAttributes attributes :=
      congrArg (· ++ writeAttributes attributes) (if_neg (ne_true_of_eq_false ha))
    rw [entriesOfAttributes, List.map_cons, writeEntries_cons, hfirst, hcons, ← ih hattributes]
    rfl

/-- The attributes of an element of a document, written in a start tag and read from its text, are those
of the element in their order, with the values escaped. The values are arbitrary: they may hold equals
signs, quotes, brackets and white space. The names are ASCII and distinct where they are written. -/
theorem written_attributes_are_read {source : Source} {root e : Element}
    (hread : readDocument source = .ok root) (he : e ∈ root.toNode.elements)
    (hnames : ∀ a ∈ e.attributes, IsAttributeName (attributeName a.1))
    (hdistinct : (e.attributes.map fun a => attributeName a.1).Nodup) {name : List Char}
    (hname : ∀ c ∈ name, isTagNameChar c = true) :
    let found := StartTag.attributes ('<' :: name ++ writeAttributes e.attributes ++ ['>'])
    found = (e.attributes.map fun a => (attributeName a.1, escape a.2)) ∧
      found.map (fun a => Entity.decode a.2) = e.attributes.map (·.2) := by
  have hwritten := writeEntries_entriesOfAttributes (declaresNothing_of_readDocument hread he)
  have hplain : ∀ entry ∈ entriesOfAttributes e.attributes, entry.Plain := by
    intro entry hentry
    obtain ⟨a, ha, rfl⟩ := List.mem_map.1 hentry
    exact ⟨hnames a ha, quote_not_mem_escape a.2, solid_nil⟩
  have hpairs : pairs (entriesOfAttributes e.attributes) =
      e.attributes.map fun a => (attributeName a.1, escape a.2) := by
    simp [pairs, entriesOfAttributes]
  have hkeys : ((e.attributes.map fun a => (attributeName a.1, escape a.2)).map (·.1)).Nodup := by
    rwa [List.map_map]
  have hfound : StartTag.attributes ('<' :: name ++ writeAttributes e.attributes ++ ['>']) =
      e.attributes.map fun a => (attributeName a.1, escape a.2) := by
    rw [StartTag.attributes, ← hwritten, findAll_tag_of_plain hname hplain, hpairs,
      Attributes.ofList_of_nodup hkeys]
  refine ⟨hfound, ?_⟩
  rw [hfound, List.map_map]
  exact List.map_congr_left fun a _ => Entity.decode_escape a.2

/-- A document in which an attribute has a prefix, one declares it, and values look like attributes. -/
def attributedSample : Source := .text <|
  "<i xmlns:x='u' x:lang='a=\"b\"' xml:lang=\"c &amp;amp; d='e'\"><p title=' title=&#10;&quot;'/></i>".toList

/-- The attributes of the sample, written with another tag name. -/
theorem written_attributes_are_read_attributedSample :
    ∃ root, readDocument attributedSample = .ok root ∧ root ∈ root.toNode.elements ∧
      (∀ a ∈ root.attributes, IsAttributeName (attributeName a.1)) ∧
      (root.attributes.map fun a => attributeName a.1).Nodup ∧
      (∀ c ∈ "h-1".toList, isTagNameChar c = true) ∧
      (let found := StartTag.attributes ("<h-1".toList ++ writeAttributes root.attributes ++ ['>'])
       found = (root.attributes.map fun a => (attributeName a.1, escape a.2)) ∧
        found.map (fun a => Entity.decode a.2) = root.attributes.map (·.2)) := by
  have hsample : (readDocument attributedSample).toOption.map (fun root => decide
      ((∀ a ∈ root.attributes, IsAttributeName (attributeName a.1)) ∧
        (root.attributes.map fun a => attributeName a.1).Nodup)) = some true := by
    unfold attributedSample
    -- Literals are evaluated faster as lists of characters.
    repeat rewrite [String.toList_ofList]
    decide +kernel
  cases hread : readDocument attributedSample with
  | error fault =>
    rw [hread] at hsample
    cases hsample
  | ok root =>
    rw [hread] at hsample
    obtain ⟨hnames, hdistinct⟩ := of_decide_eq_true (Option.some.inj hsample)
    have hname : ∀ c ∈ "h-1".toList, isTagNameChar c = true := by decide
    have hroot : root ∈ root.toNode.elements := List.mem_cons_self
    exact ⟨root, rfl, hroot, hnames, hdistinct, hname,
      written_attributes_are_read hread hroot hnames hdistinct hname⟩

end Assessment.Xml
