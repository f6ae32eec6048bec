/-!
# Attribute lists

Attributes are kept in the order in which they were first written, each name once. Putting a value
under a name that is already there keeps its place.
-/

namespace Assessment

/-- Attributes, names and values, in order. -/
abbrev Attributes := List (List Char × List Char)

namespace Attributes

/-- The value under a name. -/
def get? (name : List Char) : Attributes → Option (List Char)
  | [] => none
  | (n, v) :: rest => if n = name then some v else get? name rest

/-- The attributes with a value put under a name: in its place, or at the end if the name is new. -/
def put (name value : List Char) : Attributes → Attributes
  | [] => [(name, value)]
  | (n, v) :: rest => if n = name then (n, value) :: rest else (n, v) :: put name value rest

/-- The attributes that a sequence of names and values leaves, where a later value wins. -/
def ofList (entries : List (List Char × List Char)) : Attributes :=
  entries.foldl (fun attributes (name, value) => put name value attributes) []

/-- What is put under a name is found there, and nothing else changes. -/
theorem get?_put (name other value : List Char) (attributes : Attributes) :
    get? other (put name value attributes) =
      if other = name then some value else get? other attributes := by
  induction attributes with
  | nil => by_cases h : name = other <;> simp [put, get?, h, eq_comm]
  | cons entry rest ih =>
    obtain ⟨n, v⟩ := entry
    by_cases h : n = name
    · subst h
      by_cases h' : n = other
      · simp [put, get?, h']
      · simp [put, get?, h', Ne.symm h']
    · by_cases h' : n = other
      · subst h'
        simp [put, get?, h]
      · simp [put, get?, h, h', ih]

/-- The names with a value are those in the list. -/
theorem isSome_get?_iff {name : List Char} {attributes : Attributes} :
    (attributes.get? name).isSome ↔ name ∈ attributes.map (·.1) := by
  induction attributes with
  | nil => simp [get?]
  | cons entry rest ih =>
    rw [get?, List.map_cons, List.mem_cons]
    split
    · next h => simp [h]
    · next h => rw [ih, or_iff_right (Ne.symm h)]

/-- A value that is found stands in the list. -/
theorem mem_of_get? {attributes : Attributes} {name value : List Char}
    (h : attributes.get? name = some value) : (name, value) ∈ attributes := by
  induction attributes with
  | nil => cases h
  | cons a attributes ih =>
    obtain ⟨key, first⟩ := a
    rw [get?] at h
    split at h
    · next hkey =>
      cases hkey
      cases h
      exact List.mem_cons_self
    · exact List.mem_cons_of_mem _ (ih h)

/-- Attributes with distinct names are all found. -/
theorem get?_eq_some_iff {attributes : Attributes} (h : (attributes.map (·.1)).Nodup)
    {name value : List Char} :
    attributes.get? name = some value ↔ (name, value) ∈ attributes := by
  induction attributes with
  | nil => simp [get?]
  | cons a attributes ih =>
    obtain ⟨key, first⟩ := a
    simp only [List.map_cons, List.nodup_cons] at h
    rw [get?, List.mem_cons, Prod.mk.injEq]
    by_cases hkey : key = name
    · subst hkey
      have hnot : (key, value) ∉ attributes := fun hmem => h.1 (List.mem_map_of_mem hmem)
      simp [hnot, eq_comm]
    · simp [hkey, Ne.symm hkey, ih h.2]

/-- What is put under a new name comes last. -/
theorem put_of_not_mem {name : List Char} (value : List Char) {attributes : Attributes}
    (h : name ∉ attributes.map (·.1)) : put name value attributes = attributes ++ [(name, value)] := by
  induction attributes with
  | nil => rfl
  | cons entry rest ih =>
    rw [List.map_cons, List.mem_cons, not_or] at h
    rw [put, if_neg (Ne.symm h.1), ih h.2, List.cons_append]

/-- Attributes with distinct names are what their sequence leaves. -/
theorem ofList_of_nodup {entries : List (List Char × List Char)} (h : (entries.map (·.1)).Nodup) :
    ofList entries = entries := by
  have hfold (before : Attributes) (hall : ((before ++ entries).map (·.1)).Nodup) :
      entries.foldl (fun attributes entry => put entry.1 entry.2 attributes) before =
        before ++ entries := by
    induction entries generalizing before with
    | nil => exact (List.append_nil before).symm
    | cons entry entries ih =>
      have hnew : entry.1 ∉ before.map (·.1) := by
        rw [List.map_append, List.map_cons, List.nodup_append] at hall
        exact fun hmem => hall.2.2 _ hmem _ List.mem_cons_self rfl
      rw [List.map_cons, List.nodup_cons] at h
      rw [List.foldl_cons, put_of_not_mem _ hnew, ih h.2 _ (by simpa using hall),
        List.append_assoc, List.singleton_append]
  exact hfold [] h

/-- Of attributes with distinct names and one before them, the one before is found only if no other has
its name. -/
theorem get?_ofList_cons {name value : List Char} {entries : List (List Char × List Char)}
    (h : (entries.map (·.1)).Nodup) (other : List Char) :
    (ofList ((name, value) :: entries)).get? other =
      (get? other entries).or (if other = name then some value else none) := by
  have hfold (start : Attributes) :
      (entries.foldl (fun attributes entry => put entry.1 entry.2 attributes) start).get? other =
        (get? other entries).or (start.get? other) := by
    induction entries generalizing start with
    | nil => rfl
    | cons entry entries ih =>
      rw [List.map_cons, List.nodup_cons] at h
      rw [List.foldl_cons, ih h.2, get?_put, get?]
      by_cases hsame : entry.1 = other
      · have hnone : get? other entries = none := by
          rw [← Option.not_isSome_iff_eq_none, isSome_get?_iff, ← hsame]
          exact h.1
        rw [hnone, if_pos hsame, if_pos hsame.symm]
        rfl
      · rw [if_neg hsame, if_neg (Ne.symm hsame)]
  have hstart : get? other [(name, value)] = if other = name then some value else none := by
    simp [get?, eq_comm]
  exact hstart ▸ hfold [(name, value)]

end Attributes

end Assessment
