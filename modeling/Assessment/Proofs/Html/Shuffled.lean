import Mathlib.Data.List.Nodup
import Assessment.Proofs.Html.Printing

/-!
# Proofs: the order of attributes

Attributes are sorted before they are written, so nodes with the same attributes in another order are
written alike (`serialize_of_shuffled`). What changes attributes without looking at their order gives
such nodes again (`shuffledAll_updateAll`).
-/

namespace Assessment

open Assessment.Html Assessment.Text

/-! ## Attributes as maps -/

namespace Attributes

/-- Distinct attributes are found whatever their order. -/
theorem get?_of_perm {attributes other : Attributes} (hperm : attributes.Perm other)
    (h : (attributes.map (·.1)).Nodup) (name : List Char) :
    attributes.get? name = other.get? name := by
  have hother : (other.map (·.1)).Nodup := (hperm.map _).nodup_iff.1 h
  refine Option.ext fun value => ?_
  rw [get?_eq_some_iff h, get?_eq_some_iff hother, hperm.mem_iff]

/-- Distinct attributes that are found alike differ in their order alone. -/
theorem perm_of_get? {attributes other : Attributes} (h : (attributes.map (·.1)).Nodup)
    (hother : (other.map (·.1)).Nodup)
    (hget : ∀ name, attributes.get? name = other.get? name) : attributes.Perm other := by
  refine (List.perm_ext_iff_of_nodup (List.Nodup.of_map _ h) (List.Nodup.of_map _ hother)).2
    fun (name, value) => ?_
  rw [← get?_eq_some_iff h, ← get?_eq_some_iff hother, hget]

theorem mem_put {name value : List Char} {attributes : Attributes} {a : List Char × List Char}
    (h : a ∈ put name value attributes) : a = (name, value) ∨ a ∈ attributes := by
  induction attributes with
  | nil => exact .inl (List.mem_singleton.1 h)
  | cons b attributes ih =>
    obtain ⟨key, old⟩ := b
    rw [put] at h
    split at h
    · next hkey =>
      rcases List.mem_cons.1 h with rfl | h
      · exact .inl (by rw [hkey])
      · exact .inr (List.mem_cons_of_mem _ h)
    · rcases List.mem_cons.1 h with rfl | h
      · exact .inr (by simp)
      · exact (ih h).imp id (List.mem_cons_of_mem _)

/-- Putting a value keeps attributes distinct. -/
theorem nodup_put {name : List Char} (value : List Char) {attributes : Attributes}
    (h : (attributes.map (·.1)).Nodup) : ((put name value attributes).map (·.1)).Nodup := by
  induction attributes with
  | nil => exact List.pairwise_singleton _ _
  | cons b attributes ih =>
    obtain ⟨key, old⟩ := b
    rw [List.map_cons, List.nodup_cons] at h
    rw [put]
    split
    · exact List.nodup_cons.2 h
    · next hkey =>
      refine List.nodup_cons.2 ⟨fun hmem => ?_, ih h.2⟩
      obtain ⟨a, ha, heq⟩ := List.mem_map.1 hmem
      rcases mem_put ha with rfl | ha
      · exact hkey heq.symm
      · exact h.1 (List.mem_map.2 ⟨a, ha, heq⟩)

theorem mem_foldl_put {a : List Char × List Char} {entries : List (List Char × List Char)}
    {start : Attributes}
    (h : a ∈ entries.foldl (fun attributes entry => put entry.1 entry.2 attributes) start) :
    a ∈ start ∨ a ∈ entries := by
  induction entries generalizing start with
  | nil => exact .inl h
  | cons entry entries ih =>
    rcases ih h with hstart | hmem
    · rcases mem_put hstart with rfl | hstart
      · exact .inr List.mem_cons_self
      · exact .inl hstart
    · exact .inr (List.mem_cons_of_mem _ hmem)

theorem mem_ofList {entries : List (List Char × List Char)} {a : List Char × List Char}
    (h : a ∈ ofList entries) : a ∈ entries :=
  (mem_foldl_put h).resolve_left List.not_mem_nil

/-- The names of what a sequence leaves are distinct. -/
theorem nodup_ofList (entries : List (List Char × List Char)) :
    ((ofList entries).map (·.1)).Nodup := by
  have hfold (start : Attributes) (hstart : (start.map (·.1)).Nodup) :
      ((entries.foldl (fun attributes entry => put entry.1 entry.2 attributes) start).map
        (·.1)).Nodup := by
    induction entries generalizing start with
    | nil => exact hstart
    | cons entry entries ih => exact ih _ (nodup_put entry.2 hstart)
  exact hfold [] List.nodup_nil

/-- Putting a value under a name that is there keeps the names. -/
theorem keys_put_of_mem {name : List Char} {attributes : Attributes}
    (h : name ∈ attributes.map (·.1)) (value : List Char) :
    (put name value attributes).map (·.1) = attributes.map (·.1) := by
  induction attributes with
  | nil => cases h
  | cons b attributes ih =>
    obtain ⟨key, old⟩ := b
    rw [put]
    split
    · rfl
    · next hkey =>
      have hrest := (List.mem_cons.1 h).resolve_left (Ne.symm hkey)
      rw [List.map_cons, List.map_cons, ih hrest]

theorem perm_put (name value : List Char) {attributes other : Attributes}
    (hperm : attributes.Perm other) (h : (attributes.map (·.1)).Nodup) :
    (attributes.put name value).Perm (other.put name value) := by
  have hother : (other.map (·.1)).Nodup := (hperm.map _).nodup_iff.1 h
  refine perm_of_get? (nodup_put value h) (nodup_put value hother) fun key => ?_
  rw [get?_put, get?_put, get?_of_perm hperm h]

end Attributes

namespace Html

/-- Putting a value that is no list of words keeps a tag regular. -/
theorem RegularTag.put {tag name : List Char} {attributes : Attributes}
    (h : RegularTag tag attributes) (hname : Markup.isPlainName name)
    (hword : isWordAttribute tag name = false) (value : List Char) :
    RegularTag tag (attributes.put name value) where
  name_plain := h.name_plain
  not_raw := h.not_raw
  not_body := h.not_body
  not_meta := h.not_meta
  distinct := Attributes.nodup_put value h.distinct
  plain a ha := by
    rcases Attributes.mem_put ha with rfl | ha
    · exact hname
    · exact h.plain a ha
  words_spaced a ha hwords := by
    rcases Attributes.mem_put ha with rfl | ha
    · rw [hword] at hwords
      cases hwords
    · exact h.words_spaced a ha hwords

/-! ## Sorting -/

theorem not_lex_iff {a b : List Char} :
    (!b.lex a fun c d => c.toNat < d.toNat) = true ↔ List.le a b := by
  rw [Bool.not_eq_true', ← Bool.not_eq_true, List.lex_eq_true_iff_lex]
  simp only [decide_eq_true_eq]
  rfl

/-- Attributes are sorted by their names. -/
theorem pairwise_sortAttributes (attributes : Attributes) :
    (sortAttributes attributes).Pairwise fun a b => List.le a.1 b.1 := by
  refine (List.pairwise_mergeSort (fun a b c hab hbc => ?_) (fun a b => ?_) attributes).imp
    not_lex_iff.1
  · exact not_lex_iff.2 (List.le_trans (not_lex_iff.1 hab) (not_lex_iff.1 hbc))
  · rw [Bool.or_eq_true, not_lex_iff, not_lex_iff]
    exact List.le_total a.1 b.1

/-- Distinct attributes are sorted alike whatever their order. -/
theorem sortAttributes_of_perm {attributes others : Attributes} (hperm : attributes.Perm others)
    (h : (attributes.map (·.1)).Nodup) : sortAttributes attributes = sortAttributes others := by
  have hsorted : (sortAttributes attributes).Perm (sortAttributes others) :=
    (perm_sortAttributes attributes).trans (hperm.trans (perm_sortAttributes others).symm)
  refine hsorted.eq_of_pairwise (fun a b ha hb hab hba => ?_) (pairwise_sortAttributes attributes)
    (pairwise_sortAttributes others)
  -- Two attributes with one name are the same attribute.
  have ha := (perm_sortAttributes attributes).mem_iff.1 ha
  have hb := hperm.mem_iff.2 ((perm_sortAttributes others).mem_iff.1 hb)
  exact List.inj_on_of_nodup_map h ha hb (List.le_antisymm hab hba)

/-! ## Shuffled nodes -/

mutual

/-- The nodes are equal up to the order of attributes. -/
inductive Shuffled : Node → Node → Prop where
  /-- Text stays. -/
  | text (s : List Char) : Shuffled (.text s) (.text s)
  /-- What is neither text nor an element stays. -/
  | special (kind : Special) (s : List Char) : Shuffled (.special kind s) (.special kind s)
  /-- The attributes of an element may stand in another order. -/
  | element (name : List Char) {attributes others : Attributes} {children changed : List Node}
      (hattributes : attributes.Perm others) (hchildren : ShuffledAll children changed) :
      Shuffled (.element name attributes children) (.element name others changed)

/-- The nodes are equal one by one up to the order of attributes. -/
inductive ShuffledAll : List Node → List Node → Prop where
  /-- There is nothing left. -/
  | nil : ShuffledAll [] []
  /-- The first nodes are equal, and the rest. -/
  | cons {node other : Node} {nodes others : List Node} (h : Shuffled node other)
      (hrest : ShuffledAll nodes others) : ShuffledAll (node :: nodes) (other :: others)

end

open Node

mutual

theorem Shuffled.regular : ∀ {node other : Node}, Shuffled node other → Regular node → Regular other
  | _, _, .text _, _ => trivial
  | _, _, .element _ hattributes hchildren, h => by
    refine ⟨h.1.of_perm hattributes, fun hv => ?_, hchildren.regularAll h.2.2⟩
    have hnil := h.2.1 hv
    subst hnil
    cases hchildren
    rfl

theorem ShuffledAll.regularAll : ∀ {nodes others : List Node}, ShuffledAll nodes others →
    RegularAll nodes → RegularAll others
  | _, _, .nil, _ => trivial
  | _, _, .cons hnode hnodes, h => ⟨hnode.regular h.1, hnodes.regularAll h.2⟩

end

mutual

theorem Shuffled.write_eq (raw : Bool) : ∀ {node other : Node}, Shuffled node other → Regular node →
    write raw node = write raw other
  | _, _, .text _, _ => rfl
  | _, _, .element _ hattributes hchildren, h => by
    have hwritten : writeAttributes _ = writeAttributes _ :=
      congrArg (List.flatMap _) (sortAttributes_of_perm hattributes h.1.distinct)
    have hempty : ∀ {children changed : List Node}, ShuffledAll children changed →
        children.isEmpty = changed.isEmpty := fun h => by cases h <;> rfl
    rw [write, write, hwritten, hchildren.writeAll_eq _ h.2.2, hempty hchildren]

theorem ShuffledAll.writeAll_eq (raw : Bool) : ∀ {nodes others : List Node},
    ShuffledAll nodes others → RegularAll nodes → writeAll raw nodes = writeAll raw others
  | _, _, .nil, _ => rfl
  | _, _, .cons hnode hnodes, h => by
    rw [writeAll, writeAll, hnode.write_eq raw h.1, hnodes.writeAll_eq raw h.2]

end

/-- Regular nodes are written alike whatever the order of their attributes. -/
theorem serialize_of_shuffled {nodes others : List Node} (h : ShuffledAll nodes others)
    (hregular : RegularAll nodes) : serialize nodes = serialize others := by
  rw [serialize, serialize, firstNamedOf?_body hregular,
    firstNamedOf?_body (h.regularAll hregular)]
  exact h.writeAll_eq false hregular

section Updating

variable {σ : Type} {f : σ → List Char → Attributes → Attributes × σ}

mutual

theorem shuffled_update_self (hf : ∀ known name (attributes : Attributes),
      attributes.Perm (f known name attributes).1)
    (known : σ) : ∀ node : Node, Shuffled node (update f known node).1
  | .text s => .text s
  | .special kind s => .special kind s
  | .element name attributes children =>
    .element name (hf known name attributes) (shuffledAll_updateAll_self hf _ children)

/-- Changing the order of attributes shuffles nodes. -/
theorem shuffledAll_updateAll_self
    (hf : ∀ known name (attributes : Attributes),
      attributes.Perm (f known name attributes).1) (known : σ) :
    ∀ nodes : List Node, ShuffledAll nodes (updateAll f known nodes).1
  | [] => .nil
  | node :: nodes => .cons (shuffled_update_self hf known node) (shuffledAll_updateAll_self hf _ nodes)

end

/-- The function does not look at the order of distinct attributes. -/
def Orderless (f : σ → List Char → Attributes → Attributes × σ) : Prop :=
  ∀ known name {attributes others : Attributes}, attributes.Perm others →
    (attributes.map (·.1)).Nodup →
      (f known name attributes).1.Perm (f known name others).1 ∧
        (f known name attributes).2 = (f known name others).2

mutual

theorem shuffled_update (hf : Orderless f) (known : σ) : ∀ {node other : Node},
    Shuffled node other → Regular node →
      Shuffled (update f known node).1 (update f known other).1 ∧
        (update f known node).2 = (update f known other).2
  | _, _, .text s, _ => ⟨.text s, rfl⟩
  | _, _, .element name hattributes hchildren, h => by
    obtain ⟨hperm, hknown⟩ := hf known name hattributes h.1.distinct
    obtain ⟨hinside, hafter⟩ := shuffledAll_updateAll hf (f known name _).2 hchildren h.2.2
    rw [update, update, ← hknown]
    exact ⟨.element name hperm hinside, hafter⟩

/-- What does not look at the order of attributes changes shuffled nodes alike. -/
theorem shuffledAll_updateAll (hf : Orderless f) (known : σ) : ∀ {nodes others : List Node},
    ShuffledAll nodes others → RegularAll nodes →
      ShuffledAll (updateAll f known nodes).1 (updateAll f known others).1 ∧
        (updateAll f known nodes).2 = (updateAll f known others).2
  | _, _, .nil, _ => ⟨.nil, rfl⟩
  | _, _, .cons hnode hnodes, h => by
    obtain ⟨hfirst, hknown⟩ := shuffled_update hf known hnode h.1
    obtain ⟨hrest, hafter⟩ := shuffledAll_updateAll hf (update f known _).2 hnodes h.2
    rw [updateAll, updateAll, ← hknown]
    exact ⟨.cons hfirst hrest, hafter⟩

end

end Updating

theorem shuffledAll_sorted (nodes : List Node) : ShuffledAll nodes (sorted nodes) :=
  shuffledAll_updateAll_self (fun _ _ attributes => (perm_sortAttributes attributes).symm) () nodes

/-- Sorting attributes before they are changed makes no difference to what is written, if the change
does not look at their order. -/
theorem serialize_updateAll_sorted {σ : Type} {f : σ → List Char → Attributes → Attributes × σ}
    (hf : Orderless f) (known : σ) {nodes : List Node} (h : RegularAll nodes)
    (hafter : RegularAll (updateAll f known nodes).1) :
    serialize (updateAll f known (sorted nodes)).1 = serialize (updateAll f known nodes).1 :=
  (serialize_of_shuffled (shuffledAll_updateAll hf known (shuffledAll_sorted nodes) h).1 hafter).symm

end Html

end Assessment
