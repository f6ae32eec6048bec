import Assessment.Proofs.Markup.Shown

/-!
# Proofs: finding tags of one name

A search for the tags of one name looks at the tags of HTML one by one: whether a tag is found depends
on that tag alone (`startTag?_append`), and everything else is passed over. `MadeOf` says of HTML that
all its tags have a property.
-/

namespace Assessment.Text

theorem atWordEnd_append_cons {c : Char} (h : isWord c = false) (s rest : List Char) :
    atWordEnd (s ++ c :: rest) = atWordEnd s := by
  cases s with
  | nil => simp [atWordEnd, h]
  | cons d s => rfl

/-- The text begins with a name, up to the end of a word. -/
def beginsWord (name s : List Char) : Bool :=
  match after? name s with
  | some t => atWordEnd t
  | none => false

theorem beginsWord_append_cons {name : List Char} {c : Char} (hname : c ∉ name)
    (hc : isWord c = false) (s rest : List Char) :
    beginsWord name (s ++ c :: rest) = beginsWord name s := by
  unfold beginsWord
  rw [after?_append_cons hname]
  cases after? name s with
  | none => rfl
  | some t => exact atWordEnd_append_cons hc t rest

/-- A text that begins with a name as a word begins with it. -/
theorem exists_of_beginsWord {name s : List Char} (h : beginsWord name s = true) :
    startsWith name s = true ∧ ∃ rest, s = name ++ rest := by
  unfold beginsWord at h
  split at h
  · next rest hafter =>
    refine ⟨?_, rest, after?_eq_some_iff.1 hafter⟩
    rw [startsWith, hafter]
    rfl
  · cases h

end Assessment.Text

namespace Assessment.Markup

open Assessment.Text

/-! ## Tags of one name -/

/-- The tag is a start tag of the name, as a search takes it: other characters of a tag name may
follow it. -/
def isStart (name : String) (tag : List Char) : Bool := (RawTag.startTag? name tag).isSome

/-- A tag is looked for at its start, and found up to its end. -/
theorem tag?_isTag {name inside : List Char} (hname : '>' ∉ name) (h : Unbracketed inside)
    (rest : List Char) :
    RawTag.tag? ('<' :: name) ('<' :: inside ++ ['>'] ++ rest) =
      if beginsWord name inside then some ('<' :: inside ++ ['>'], rest) else none := by
  have hword : isWord '>' = false := by decide +kernel
  have hafter : after? ('<' :: name) ('<' :: inside ++ ['>'] ++ rest) =
      (after? name inside).map (· ++ '>' :: rest) := by
    rw [← after?_append_cons hname]
    simp [after?]
  unfold RawTag.tag? beginsWord
  rw [hafter]
  cases hinside : after? name inside with
  | none => rfl
  | some t =>
    have ht : inside = name ++ t := after?_eq_some_iff.1 hinside
    have hcut : cutAtChar? '>' (t ++ '>' :: rest) = some (t, rest) := by
      refine cutAtChar?_append_cons (fun hmem => ?_) rest
      exact (h '>' (ht ▸ List.mem_append_right _ hmem)).2 rfl
    simp only [Option.map_some, atWordEnd_append_cons hword, hcut, ht, List.cons_append,
      List.append_assoc]

/-- A tag is a start tag of a name if what is between its brackets begins with it, up to the end of a
word. -/
theorem isStart_eq {name : String} {inside : List Char} (hname : '>' ∉ name.toList)
    (h : Unbracketed inside) :
    isStart name ('<' :: inside ++ ['>']) = beginsWord name.toList inside := by
  have hself := tag?_isTag hname h []
  rw [List.append_nil] at hself
  unfold isStart RawTag.startTag?
  rw [hself]
  by_cases hbegins : beginsWord name.toList inside
  · simp [hbegins]
  · simp [hbegins]

/-- Whether a start tag of a name is found at a tag depends on the tag alone. -/
theorem startTag?_append {name : String} {tag : List Char} (hname : '>' ∉ name.toList)
    (h : IsTag tag) (rest : List Char) :
    RawTag.startTag? name (tag ++ rest) = if isStart name tag then some (tag, rest) else none := by
  obtain ⟨hinside⟩ := h
  rw [isStart_eq hname hinside]
  exact tag?_isTag hname hinside rest

/-! ## Searching behind a closing bracket -/

/-- What is found before a closing bracket ends there at the latest, whatever follows. -/
theorem tag?_append_cons {opening : List Char} (hopening : '>' ∉ opening) (s rest : List Char) :
    RawTag.tag? opening (s ++ '>' :: rest) =
      (RawTag.tag? opening (s ++ ['>'])).map fun (tag, r) => (tag, r ++ rest) := by
  have hword : isWord '>' = false := by decide +kernel
  unfold RawTag.tag?
  rw [after?_append_cons hopening, after?_append_cons hopening]
  cases after? opening s with
  | none => rfl
  | some t =>
    simp only [Option.map_some, atWordEnd_append_cons hword]
    split
    · by_cases hmem : '>' ∈ t
      · obtain ⟨inside, r, rfl, hinside⟩ := List.eq_append_cons_of_mem hmem
        rw [List.append_assoc, List.append_assoc, List.cons_append, List.cons_append,
          cutAtChar?_append_cons hinside, cutAtChar?_append_cons hinside]
        simp
      · rw [cutAtChar?_append_cons hmem, cutAtChar?_append_cons hmem]
        rfl
    · rfl

/-- A search begins anew behind a closing bracket. -/
theorem pieces_startTag_append_cons {name : String} (hname : '>' ∉ name.toList) (s rest : List Char) :
    (RawTag.startTag name).pieces (s ++ '>' :: rest) =
      (RawTag.startTag name).pieces (s ++ ['>']) ++ (RawTag.startTag name).pieces rest := by
  have hopening : '>' ∉ '<' :: name.toList := by simpa using hname
  induction hn : s.length using Nat.strongRecOn generalizing s with
  | ind n ih =>
    have happend := tag?_append_cons hopening s rest
    cases hrun : RawTag.tag? ('<' :: name.toList) (s ++ ['>']) with
    | none =>
      rw [hrun, Option.map_none] at happend
      cases s with
      | nil =>
        have hfirst : (RawTag.startTag name).run ('>' :: rest) = none := happend
        have hself : (RawTag.startTag name).run ['>'] = none := hrun
        rw [List.nil_append, List.nil_append, Recognizer.pieces_of_not_run _ hfirst,
          Recognizer.pieces_of_not_run _ hself, Recognizer.pieces_nil]
        rfl
      | cons c s =>
        have hfirst : (RawTag.startTag name).run (c :: (s ++ '>' :: rest)) = none := happend
        have hself : (RawTag.startTag name).run (c :: (s ++ ['>'])) = none := hrun
        rw [List.cons_append, List.cons_append, Recognizer.pieces_of_not_run _ hfirst,
          Recognizer.pieces_of_not_run _ hself, ih s.length (by simp [← hn]) s rfl, List.cons_append]
    | some found =>
      obtain ⟨tag, r⟩ := found
      rw [hrun, Option.map_some] at happend
      have hfirst : (RawTag.startTag name).run (s ++ '>' :: rest) = some (tag, r ++ rest) := happend
      have hself : (RawTag.startTag name).run (s ++ ['>']) = some (tag, r) := hrun
      rw [Recognizer.pieces_of_run _ hfirst, Recognizer.pieces_of_run _ hself, List.cons_append]
      -- What is left of the text in front ends with the bracket too, unless the tag took it.
      cases r with
      | nil => rw [List.nil_append, Recognizer.pieces_nil, List.nil_append]
      | cons d r =>
        obtain ⟨before, hbefore, hs⟩ :=
          exists_of_append_eq_concat (RawTag.tag?_append hrun).symm (List.cons_ne_nil d r)
        have hlength := RawTag.length_of_tag? hrun
        rw [hbefore, List.append_assoc, List.singleton_append, ih before.length ?_ before rfl]
        rw [hbefore] at hlength
        simp at hlength
        omega

/-! ## HTML with known tags -/

/-- The HTML is made of tags that have a property, and of text without angle brackets. -/
inductive MadeOf (P : List Char → Prop) : List Char → Prop where
  | nil : MadeOf P []
  | char {c : Char} {html : List Char} (h1 : c ≠ '<') (h2 : c ≠ '>') (h : MadeOf P html) :
      MadeOf P (c :: html)
  | tag {tag html : List Char} (htag : IsTag tag) (hP : P tag) (h : MadeOf P html) :
      MadeOf P (tag ++ html)

namespace MadeOf

variable {P : List Char → Prop}

theorem append {html more : List Char} (h : MadeOf P html) (hmore : MadeOf P more) :
    MadeOf P (html ++ more) := by
  induction h with
  | nil => exact hmore
  | char h1 h2 _ ih => exact .char h1 h2 ih
  | tag htag hP _ ih =>
    rw [List.append_assoc]
    exact .tag htag hP ih

theorem of_isTag {tag : List Char} (htag : IsTag tag) (hP : P tag) : MadeOf P tag := by
  simpa using MadeOf.tag htag hP .nil

theorem of_unbracketed {s : List Char} (h : Unbracketed s) : MadeOf P s := by
  induction s with
  | nil => exact .nil
  | cons c s ih =>
    obtain ⟨hc, hs⟩ := List.forall_mem_cons.1 h
    exact .char hc.1 hc.2 (ih hs)

end MadeOf

/-! ## Searching for one tag -/

/-- A tag at which nothing is recognised is passed over. -/
theorem pieces_tag_append {α : Type} {p : Recognizer α} {tag s : List Char}
    (hp : ∀ {c : Char} {s : List Char}, c ≠ '<' → p.run (c :: s) = none) (htag : IsTag tag)
    (hrun : p.run (tag ++ s) = none) : p.pieces (tag ++ s) = tag.map .char ++ p.pieces s := by
  obtain ⟨tail, rfl, htail⟩ := htag.exists_tail
  rw [List.cons_append] at hrun ⊢
  rw [p.pieces_of_not_run hrun, p.pieces_append_of_starts hp htail]
  rfl

/-- A search for a tag passes over every other tag. -/
theorem IsTag.cutAt?_tag_append {mark tag : List Char} (hmark : IsTag mark) (htag : IsTag tag)
    (hne : tag ≠ mark) (s : List Char) :
    cutAt? mark (tag ++ s) = (cutAt? mark s).map fun (before, rest) => (tag ++ before, rest) := by
  have hafter : after? mark (tag ++ s) = none := by
    cases hfound : after? mark (tag ++ s) with
    | none => rfl
    | some rest => exact absurd (htag.append_inj hmark (after?_eq_some_iff.1 hfound)).1 hne
  obtain ⟨tail, rfl, htail⟩ := htag.exists_tail
  rw [List.cons_append] at hafter ⊢
  rw [cutAt?_cons_of_after? hafter, hmark.cutAt?_append htail, Option.map_map]
  rfl

/-- HTML without a tag is cut at that tag where it comes next. -/
theorem MadeOf.cutAt?_append {mark html : List Char} (hmark : IsTag mark)
    (h : MadeOf (· ≠ mark) html) (rest : List Char) :
    cutAt? mark (html ++ mark ++ rest) = some (html, rest) := by
  induction h with
  | nil => exact cutAt?_of_after? (after?_eq_some_iff.2 rfl)
  | @char c html h1 h2 _ ih =>
    have hc : ∀ d ∈ [c], d ≠ '<' := by simpa using h1
    rw [← List.singleton_append, List.append_assoc, List.append_assoc, hmark.cutAt?_append hc,
      ← List.append_assoc, ih]
    rfl
  | tag htag hne _ ih =>
    rw [List.append_assoc, List.append_assoc, hmark.cutAt?_tag_append htag hne,
      ← List.append_assoc, ih]
    rfl

end Assessment.Markup
