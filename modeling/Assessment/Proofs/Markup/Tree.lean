import Assessment.Markup.StartTag
import Assessment.Proofs.Markup.Escape
import Assessment.Proofs.Text.Scan

/-!
# Proofs: markup as trees

Markup that is made of text and tags only, with the text and the values of attributes escaped, is the
written form of a tree. What a search for attributes finds in the written form are the attributes of
the tree, from left to right (`findAll_writeAll`): no text and no value looks like an attribute.
-/

namespace Assessment.Markup

open Assessment.Text

/-- The attributes of a tag in the order in which they are written. Some have no value. -/
abbrev Attributed := List (List Char × Option (List Char))

/-- A piece of markup. -/
inductive Tree where
  /-- A run of text, not escaped. -/
  | text (s : List Char)
  /-- A tag that closes itself. -/
  | void (name : List Char) (attributes : Attributed)
  /-- A start tag and an end tag, with what stands between them. -/
  | element (name : List Char) (attributes : Attributed) (children : List Tree)

/-- An attribute as it is written. -/
def writeAttribute : List Char × Option (List Char) → List Char
  | (name, some value) => ' ' :: name ++ "=\"".toList ++ escape value ++ ['\x22']
  | (name, none) => ' ' :: name

/-- Attributes as they are written. -/
def writeAttributes (attributes : Attributed) : List Char := attributes.flatMap writeAttribute

namespace Tree

mutual

/-- The markup as it is written. -/
def write : Tree → List Char
  | .text s => escape s
  | .void name attributes => '<' :: name ++ writeAttributes attributes ++ " />".toList
  | .element name attributes children =>
    '<' :: name ++ writeAttributes attributes ++ '>' :: writeAll children ++ "</".toList ++ name ++
      ['>']

/-- Pieces of markup as they are written, one after the other. -/
def writeAll : List Tree → List Char
  | [] => []
  | tree :: trees => write tree ++ writeAll trees

end

mutual

/-- The attributes with a value, as they are written, from left to right. -/
def valued : Tree → List (List Char × List Char)
  | .text _ => []
  | .void _ attributes => valuedOf attributes
  | .element _ attributes children => valuedOf attributes ++ valuedAll children

/-- The attributes with a value in some pieces of markup. -/
def valuedAll : List Tree → List (List Char × List Char)
  | [] => []
  | tree :: trees => valued tree ++ valuedAll trees

/-- The attributes with a value of one tag. -/
def valuedOf : Attributed → List (List Char × List Char)
  | [] => []
  | (name, some value) :: rest => (name, escape value) :: valuedOf rest
  | (_, none) :: rest => valuedOf rest

end

@[simp] theorem writeAll_append (trees more : List Tree) :
    writeAll (trees ++ more) = writeAll trees ++ writeAll more := by
  induction trees with
  | nil => rfl
  | cons tree trees ih => simp [writeAll, ih]

end Tree

/-! ## Plain names -/

/-- The small letters. -/
def smallLetters : List Char := "abcdefghijklmnopqrstuvwxyz".toList

/-- The characters of plain names: small letters, digits and the hyphen. -/
def plainChars : List Char := smallLetters ++ "0123456789-".toList

/-- A plain name: small letters, digits and hyphens after a small letter. -/
def isPlainName : List Char → Bool
  | [] => false
  | c :: s => smallLetters.contains c && s.all plainChars.contains

theorem mem_plainChars_of_isPlainName {name : List Char} (h : isPlainName name) :
    ∀ c ∈ name, c ∈ plainChars := by
  cases name with
  | nil => cases h
  | cons c s =>
    simp only [isPlainName, Bool.and_eq_true, List.contains_iff_mem, List.all_eq_true] at h
    intro d hd
    rcases List.mem_cons.1 hd with rfl | hd
    · exact List.mem_append_left _ h.1
    · exact h.2 d hd

/-- The names of the attributes are plain. -/
def Attributed.Plain (attributes : Attributed) : Prop := ∀ a ∈ attributes, isPlainName a.1

theorem Attributed.plain_nil : Attributed.Plain [] := by
  intro a ha
  cases ha

theorem Attributed.plain_singleton {name : List Char} (h : isPlainName name)
    (value : Option (List Char)) : Attributed.Plain [(name, value)] := by
  intro a ha
  rw [List.mem_singleton.1 ha]
  exact h

theorem Attributed.plain_append {attributes more : Attributed} (h : attributes.Plain)
    (hmore : more.Plain) : Attributed.Plain (attributes ++ more) := by
  intro a ha
  rcases List.mem_append.1 ha with ha | ha
  · exact h a ha
  · exact hmore a ha

namespace Tree

mutual

/-- All names in the markup are plain. -/
def Plain : Tree → Prop
  | .text _ => True
  | .void name attributes => isPlainName name ∧ attributes.Plain
  | .element name attributes children => isPlainName name ∧ attributes.Plain ∧ PlainAll children

/-- All names in some pieces of markup are plain. -/
def PlainAll : List Tree → Prop
  | [] => True
  | tree :: trees => Plain tree ∧ PlainAll trees

end

end Tree

/-! ## Searching for attributes -/

namespace StartTag

theorem run_quotedAttribute (s : List Char) : quotedAttribute.run s = attribute? s := rfl

/-- No quote comes before the next opening bracket. -/
def Closed : List Char → Prop
  | [] => True
  | c :: s => c = '<' ∨ c ≠ '\x22' ∧ c ≠ '\x27' ∧ Closed s

theorem closed_escape_append (s : List Char) {rest : List Char} (h : Closed rest) :
    Closed (escape s ++ rest) := by
  have hall : ∀ c ∈ escape s, c ≠ '<' ∧ c ≠ '>' ∧ c ≠ '\x22' ∧ c ≠ '\x27' := fun c =>
    ne_of_mem_escape
  generalize escape s = t at hall
  induction t with
  | nil => exact h
  | cons c t ih =>
    have hc := hall c (by simp)
    exact .inr ⟨hc.2.2.1, hc.2.2.2, ih fun d hd => hall d (by simp [hd])⟩

/-- Characters that can stand between the beginning of an attribute and the quote of its value. -/
theorem closed_dropWhile {p : Char → Bool} (hp : p '<' = false) {s : List Char} (h : Closed s) :
    Closed (s.dropWhile p) := by
  induction s with
  | nil => exact h
  | cons c s ih =>
    rw [List.dropWhile_cons]
    split
    · next hc =>
      rcases h with rfl | ⟨-, -, h⟩
      · rw [hp] at hc
        cases hc
      · exact ih h
    · exact h

theorem quotedValue?_of_closed {s : List Char} (h : Closed s) : quotedValue? s = none := by
  unfold quotedValue?
  split
  · rcases h with h | ⟨h, -⟩
    · cases h
    · exact absurd rfl h
  · rcases h with h | ⟨-, h, -⟩
    · cases h
    · exact absurd rfl h
  · rfl

theorem assigned?_of_closed {s : List Char} (h : Closed s) : assigned? s = none := by
  unfold assigned?
  split
  · next rest heq =>
    have hsign : Closed (s.dropWhile isBlank) := closed_dropWhile (by decide) h
    rw [heq] at hsign
    rcases hsign with hsign | ⟨-, -, hrest⟩
    · cases hsign
    · exact quotedValue?_of_closed (closed_dropWhile (by decide) hrest)
  · rfl

/-- Where no quote comes before the next opening bracket, no attribute starts. -/
theorem attribute?_of_closed {s : List Char} (h : Closed s) : attribute? s = none := by
  unfold attribute?
  split
  · rfl
  · next c t =>
    split
    · next hc =>
      have ht : Closed t := by
        rcases h with rfl | ⟨-, -, h⟩
        · exact absurd hc (by decide)
        · exact h
      have hname := assigned?_of_closed (closed_dropWhile (p := isNamePart) (by decide) ht)
      simp [hname]
    · rfl

/-- Text between tags holds no attribute. -/
theorem findAll_escape_append (s : List Char) {rest : List Char} (h : Closed rest) :
    quotedAttribute.findAll (escape s ++ rest) = quotedAttribute.findAll rest := by
  have hclosed := closed_escape_append s h
  have hall : ∀ c ∈ escape s, c ≠ '<' := fun c hc => (ne_of_mem_escape hc).1
  generalize escape s = t at hclosed hall
  induction t with
  | nil => rfl
  | cons c t ih =>
    have hrun : quotedAttribute.run (c :: (t ++ rest)) = none := attribute?_of_closed hclosed
    rw [List.cons_append, quotedAttribute.findAll_of_not_run hrun]
    rcases hclosed with h | ⟨-, -, h⟩
    · exact absurd h (hall c (by simp))
    · exact ih h fun d hd => hall d (by simp [hd])

/-- The text ends a name without being the sign of an attribute. -/
def EndsName (s : List Char) : Prop :=
  (∀ c ∈ s.head?, isNamePart c = false) ∧ assigned? s = none

theorem isNamePart_of_mem_plainChars {c : Char} (h : c ∈ plainChars) : isNamePart c :=
  (by decide : ∀ d ∈ plainChars, isNamePart d) c h

/-- A name that no value follows is passed over. -/
theorem findAll_name_append {name rest : List Char} (hname : ∀ c ∈ name, isNamePart c)
    (hrest : EndsName rest) :
    quotedAttribute.findAll (name ++ rest) = quotedAttribute.findAll rest := by
  induction name with
  | nil => rfl
  | cons c name ih =>
    have hpart : ∀ d ∈ name, isNamePart d := fun d hd => hname d (by simp [hd])
    have hdrop : (name ++ rest).dropWhile isNamePart = rest := (span_append hpart hrest.1).2
    have hrun : attribute? (c :: (name ++ rest)) = none := by
      simp only [attribute?, hdrop, hrest.2, Option.map_none, ite_self]
    rw [List.cons_append, quotedAttribute.findAll_of_not_run hrun, ih hpart]

/-- An attribute in double quotes is found as it is written. -/
theorem findAll_attribute_append {name : List Char} (hname : isPlainName name)
    (value rest : List Char) :
    quotedAttribute.findAll (name ++ "=\"".toList ++ escape value ++ '\x22' :: rest) =
      (name, escape value) :: quotedAttribute.findAll rest := by
  apply quotedAttribute.findAll_of_run
  have hpart : ∀ c ∈ name, isNamePart c := fun c hc =>
    isNamePart_of_mem_plainChars (mem_plainChars_of_isPlainName hname c hc)
  cases name with
  | nil => cases hname
  | cons c name =>
    have hstart : isNameStart c := by
      simp only [isPlainName, Bool.and_eq_true, List.contains_iff_mem] at hname
      exact (by decide : ∀ d ∈ smallLetters, isNameStart d) c hname.1
    have hrest : ∀ d ∈ name, isNamePart d := fun d hd => hpart d (by simp [hd])
    have hassigned : assigned? ('=' :: '\x22' :: (escape value ++ '\x22' :: rest)) =
        some (escape value, rest) :=
      cutAtChar?_append_cons (quote_not_mem_escape value) rest
    obtain ⟨htake, hdrop⟩ := span_append_cons hrest (by decide : isNamePart '=' = false)
      ('\x22' :: (escape value ++ '\x22' :: rest))
    simp [run_quotedAttribute, attribute?, hstart, htake, hdrop, hassigned]

/-- A space passes. -/
theorem findAll_cons_of_not_start {c : Char} (h : isNameStart c = false) (s : List Char) :
    quotedAttribute.findAll (c :: s) = quotedAttribute.findAll s :=
  quotedAttribute.findAll_of_not_run (by simp [run_quotedAttribute, attribute?, h])

/-- The end of a tag ends a name. -/
theorem endsName_bracket (s : List Char) : EndsName ('>' :: s) := ⟨by simp; decide, rfl⟩

theorem endsName_slash (s : List Char) : EndsName (' ' :: '/' :: s) := ⟨by simp; decide, rfl⟩

theorem endsName_name {name : List Char} (h : isPlainName name) (s : List Char) :
    EndsName (' ' :: (name ++ s)) := by
  cases name with
  | nil => cases h
  | cons c name =>
    have hc : c ∈ plainChars := mem_plainChars_of_isPlainName h c (by simp)
    have hblank : isBlank c = false := (by decide : ∀ d ∈ plainChars, isBlank d = false) c hc
    have hsign : c ≠ '=' := (by decide : ∀ d ∈ plainChars, d ≠ '=') c hc
    refine ⟨by simp; decide, ?_⟩
    have hdrop : (' ' :: (c :: name ++ s)).dropWhile isBlank = c :: (name ++ s) := by
      rw [List.dropWhile_cons_of_pos (by decide), List.cons_append,
        List.dropWhile_cons_of_neg (by simp [hblank])]
    unfold assigned?
    split
    · next heq =>
      rw [hdrop] at heq
      exact absurd (List.cons.inj heq).1 hsign
    · rfl

/-- What follows the name of a tag ends it, if what follows the attributes does. -/
theorem endsName_writeAttributes {attributes : Attributed} (h : attributes.Plain) {rest : List Char}
    (hrest : EndsName rest) : EndsName (writeAttributes attributes ++ rest) := by
  cases attributes with
  | nil => exact hrest
  | cons a attributes =>
    obtain ⟨name, value⟩ := a
    have hname : isPlainName name := h (name, value) (by simp)
    cases value with
    | none => simpa [writeAttributes, writeAttribute] using endsName_name hname _
    | some value => simpa [writeAttributes, writeAttribute] using endsName_name hname _

/-- The attributes of a tag are found as they are written. -/
theorem findAll_writeAttributes_append {attributes : Attributed} (h : attributes.Plain)
    {rest : List Char} (hrest : EndsName rest) :
    quotedAttribute.findAll (writeAttributes attributes ++ rest) =
      Tree.valuedOf attributes ++ quotedAttribute.findAll rest := by
  induction attributes with
  | nil => rfl
  | cons a attributes ih =>
    obtain ⟨name, value⟩ := a
    have hname : isPlainName name := h (name, value) (by simp)
    have hplain : Attributed.Plain attributes := fun b hb => h b (by simp [hb])
    have hspace := findAll_cons_of_not_start (c := ' ') (by decide)
    cases value with
    | none =>
      have hpart : ∀ c ∈ name, isNamePart c := fun c hc =>
        isNamePart_of_mem_plainChars (mem_plainChars_of_isPlainName hname c hc)
      have hends := endsName_writeAttributes hplain hrest
      simp only [writeAttributes, List.flatMap_cons, writeAttribute, List.cons_append,
        List.append_assoc, Tree.valuedOf, hspace]
      rw [← writeAttributes, findAll_name_append hpart hends, ih hplain]
    | some value =>
      simp only [writeAttributes, List.flatMap_cons, writeAttribute, List.cons_append,
        List.append_assoc, List.nil_append, Tree.valuedOf, hspace]
      rw [← writeAttributes, ← ih hplain]
      simpa using findAll_attribute_append hname value (writeAttributes attributes ++ rest)

/-- The attributes of a tag are found between its name and its end. -/
theorem findAll_tag_append {name : List Char} {attributes : Attributed} (hname : isPlainName name)
    (h : attributes.Plain) {rest : List Char} (hrest : EndsName rest) :
    quotedAttribute.findAll ('<' :: (name ++ (writeAttributes attributes ++ rest))) =
      Tree.valuedOf attributes ++ quotedAttribute.findAll rest := by
  have hpart : ∀ c ∈ name, isNamePart c := fun c hc =>
    isNamePart_of_mem_plainChars (mem_plainChars_of_isPlainName hname c hc)
  rw [findAll_cons_of_not_start (by decide),
    findAll_name_append hpart (endsName_writeAttributes h hrest),
    findAll_writeAttributes_append h hrest]

theorem findAll_endTag_append {name : List Char} (hname : isPlainName name) (rest : List Char) :
    quotedAttribute.findAll ('<' :: '/' :: (name ++ '>' :: rest)) =
      quotedAttribute.findAll rest := by
  have hpart : ∀ c ∈ name, isNamePart c := fun c hc =>
    isNamePart_of_mem_plainChars (mem_plainChars_of_isPlainName hname c hc)
  rw [findAll_cons_of_not_start (by decide), findAll_cons_of_not_start (by decide),
    findAll_name_append hpart (endsName_bracket rest), findAll_cons_of_not_start (by decide)]

mutual

theorem closed_write_append {rest : List Char} (h : Closed rest) :
    ∀ tree : Tree, Closed (tree.write ++ rest)
  | .text s => closed_escape_append s h
  | .void _ _ => .inl rfl
  | .element _ _ _ => .inl rfl

theorem closed_writeAll_append {rest : List Char} (h : Closed rest) :
    ∀ trees : List Tree, Closed (Tree.writeAll trees ++ rest)
  | [] => h
  | tree :: trees => by
    simpa [Tree.writeAll] using closed_write_append (closed_writeAll_append h trees) tree

end

mutual

theorem findAll_write_append {rest : List Char} (hrest : Closed rest) :
    ∀ {tree : Tree}, tree.Plain →
      quotedAttribute.findAll (tree.write ++ rest) = tree.valued ++ quotedAttribute.findAll rest
  | .text s, _ => by simpa [Tree.write, Tree.valued] using findAll_escape_append s hrest
  | .void name attributes, h => by
    have hslash := findAll_tag_append h.1 h.2 (endsName_slash ('>' :: rest))
    simp only [Tree.write, Tree.valued, List.cons_append, List.append_assoc]
    refine hslash.trans ?_
    rw [findAll_cons_of_not_start (by decide), findAll_cons_of_not_start (by decide),
      findAll_cons_of_not_start (by decide)]
  | .element name attributes children, h => by
    have hend : Closed ("</".toList ++ (name ++ '>' :: rest)) := .inl rfl
    have htag := findAll_tag_append h.1 h.2.1
      (endsName_bracket (Tree.writeAll children ++ ("</".toList ++ (name ++ '>' :: rest))))
    have hinside := findAll_writeAll_append hend h.2.2
    simp only [Tree.write, Tree.valued, List.cons_append, List.append_assoc, List.nil_append]
    refine htag.trans ?_
    rw [findAll_cons_of_not_start (by decide), hinside]
    congr 2
    exact findAll_endTag_append h.1 rest

/-- The attributes found in written markup are those of the tree, from left to right. -/
theorem findAll_writeAll_append {rest : List Char} (hrest : Closed rest) :
    ∀ {trees : List Tree}, Tree.PlainAll trees →
      quotedAttribute.findAll (Tree.writeAll trees ++ rest) =
        Tree.valuedAll trees ++ quotedAttribute.findAll rest
  | [], _ => rfl
  | tree :: trees, h => by
    rw [Tree.writeAll, List.append_assoc,
      findAll_write_append (closed_writeAll_append hrest trees) h.1,
      findAll_writeAll_append hrest h.2, Tree.valuedAll, List.append_assoc]

end

theorem findAll_writeAll {trees : List Tree} (h : Tree.PlainAll trees) :
    quotedAttribute.findAll (Tree.writeAll trees) = Tree.valuedAll trees := by
  simpa using @findAll_writeAll_append [] trivial _ h

end StartTag

end Assessment.Markup
