import Mathlib.Data.List.TakeWhile
import Assessment.Proofs.Text.Scan
import Assessment.Xml.Tree

/-!
# Proofs: looking up elements

A name is compared with tags in two ways: with the part of the tag after its last closing brace, and with
the end of the tag. For names without a closing brace both say the same (`isNamed_iff`), so looking up
such a name finds the elements below with that local name and nothing else, whatever namespaces they are
in (`Element.locate_eq_filter`).
-/

namespace Assessment.Xml

/-! ## Local names -/

/-- What follows a closing brace is the local name if it holds no other one. -/
theorem localName_append_brace_of_not_mem {name : List Char} (h : '}' ∉ name) (space : List Char) :
    localName (space ++ '}' :: name) = name := by
  have hall : ∀ c ∈ name.reverse, (c != '}') = true := fun c hc =>
    bne_iff_ne.2 (ne_of_mem_of_not_mem (List.mem_reverse.1 hc) h)
  have hreverse : (space ++ '}' :: name).reverse = name.reverse ++ '}' :: space.reverse := by simp
  rw [localName, hreverse, (Text.span_append_cons hall (by decide) space.reverse).1,
    List.reverse_reverse]

/-- A tag is its local name, or that name after a closing brace. -/
theorem eq_localName_or (tag : List Char) :
    tag = localName tag ∨ ∃ space, tag = space ++ '}' :: localName tag := by
  have hsplit : tag = (tag.reverse.dropWhile (· != '}')).reverse ++ localName tag := by
    rw [localName, ← List.reverse_append, List.takeWhile_append_dropWhile, List.reverse_reverse]
  cases hrest : tag.reverse.dropWhile (· != '}') with
  | nil =>
    rw [hrest] at hsplit
    exact .inl hsplit
  | cons c rest =>
    have hbrace : c = '}' := by
      have hsome : tag.reverse.dropWhile (· != '}') ≠ [] := by simp [hrest]
      have hhead := List.head_dropWhile_not (· != '}') hsome
      simpa [hrest] using hhead
    rw [hrest, hbrace, List.reverse_cons, List.append_assoc] at hsplit
    exact .inr ⟨rest.reverse, hsplit⟩

theorem not_mem_localName (tag : List Char) : '}' ∉ localName tag := by
  intro hmem
  have hne := List.mem_takeWhile_imp (List.mem_reverse.1 hmem)
  exact bne_iff_ne.1 hne rfl

theorem localName_of_not_mem {name : List Char} (h : '}' ∉ name) : localName name = name := by
  rcases eq_localName_or name with heq | ⟨space, heq⟩
  · exact heq.symm
  · refine absurd ?_ h
    rw [heq]
    simp

/-- What stands before a closing brace does not count. -/
theorem localName_append_brace (space tag : List Char) :
    localName (space ++ '}' :: tag) = localName tag := by
  obtain ⟨outer, houter⟩ : ∃ outer, space ++ '}' :: tag = outer ++ '}' :: localName tag := by
    rcases eq_localName_or tag with heq | ⟨inner, heq⟩
    · exact ⟨space, congrArg (space ++ '}' :: ·) heq⟩
    · exact ⟨space ++ '}' :: inner, (congrArg (space ++ '}' :: ·) heq).trans (by simp)⟩
  rw [houter, localName_append_brace_of_not_mem (not_mem_localName tag)]

/-- A local name is its own local name. -/
@[simp] theorem localName_localName (tag : List Char) : localName (localName tag) = localName tag :=
  localName_of_not_mem (not_mem_localName tag)

/-! ## Looking up -/

/-- The two ways to compare a tag with a name agree. -/
theorem isNamed_iff {name : List Char} (h : '}' ∉ name) (tag : List Char) :
    isNamed name tag ↔ localName tag = name := by
  rw [isNamed, Bool.or_eq_true, beq_iff_eq, List.isSuffixOf_iff_suffix]
  constructor
  · rintro (rfl | ⟨space, rfl⟩)
    · exact localName_of_not_mem h
    · exact localName_append_brace_of_not_mem h space
  · rintro rfl
    rcases eq_localName_or tag with heq | ⟨space, heq⟩
    · exact .inl heq
    · exact .inr ⟨space, heq.symm⟩

/-- Looking up a name finds the elements below that are called so, in document order: the second look-up
never adds anything. -/
theorem Element.locate_eq (name : List Char) (e : Element) :
    e.locate name = e.descendants.filter fun d => isNamed name d.tag := by
  unfold locate
  split
  · next hnone =>
    -- An element with the bare name is one in some namespace or in none.
    have hplain : (e.descendants.filter fun d => d.tag == name) = [] := by
      rw [List.filter_eq_nil_iff] at hnone ⊢
      intro d hd htag
      refine hnone d hd ?_
      rw [isNamed, htag, Bool.true_or]
    rw [hnone, hplain]
  · rfl

/-- Looking up a name without a closing brace finds the elements below with that local name. -/
theorem Element.locate_eq_filter {name : List Char} (h : '}' ∉ name) (e : Element) :
    e.locate name = e.descendants.filter fun d => d.name == name := by
  rw [locate_eq]
  refine List.filter_congr fun d _ => ?_
  rw [Bool.eq_iff_iff, isNamed_iff h, beq_iff_eq]
  rfl

end Assessment.Xml
