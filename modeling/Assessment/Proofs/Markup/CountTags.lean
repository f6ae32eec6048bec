import Mathlib.Algebra.GroupWithZero.Nat
import Mathlib.Data.List.Infix
import Assessment.Proofs.Markup.Shown

/-!
# Proofs: counting the tags of HTML

How often one tag stands in HTML is added up over the parts of the HTML (`Counts.append`). So a
replacement that loses some of these tags at each match loses as many of them altogether
(`Whole.counts_replace`).
-/

namespace Assessment.Text

/-- A piece as it is written, with `f` for what was recognised. -/
def Piece.write {α : Type} (f : α → List Char) : Piece α → List Char
  | .char c => [c]
  | .found a => f a

namespace Recognizer

variable {α : Type} {p : Recognizer α}

theorem replace_eq (f : α → List Char) (s : List Char) :
    p.replace f s = (p.pieces s).flatMap (Piece.write f) := rfl

/-- Replacing each match by what it was found in changes nothing. -/
theorem replace_source {source : α → List Char}
    (hsource : ∀ {s rest : List Char} {a : α}, p.run s = some (a, rest) → s = source a ++ rest)
    (s : List Char) : p.replace source s = s := by
  induction s using pieces.induct p with
  | case1 => simp [replace]
  | case2 c s a rest hrun ih => rw [replace_of_run source hrun, ih, ← hsource hrun]
  | case3 c s hrun ih =>
    have hpieces : p.pieces (c :: s) = [c].map .char ++ p.pieces s := p.pieces_of_not_run hrun
    rw [replace_of_pieces source hpieces, ih, List.singleton_append]

end Recognizer

end Assessment.Text

namespace Assessment.Markup

open Assessment.Text

/-! ## Counting -/

/-- How often a tag stands in a text. -/
def countTag (tag s : List Char) : Nat := (anyTag.findAll s).count tag

variable {tag : List Char}

@[simp] theorem countTag_nil (tag : List Char) : countTag tag [] = 0 := by
  simp [countTag]

theorem countTag_cons {c : Char} (h : c ≠ '<') (s : List Char) :
    countTag tag (c :: s) = countTag tag s := by
  rw [countTag, anyTag.findAll_of_not_run (anyTag?_cons h s), countTag]

theorem countTag_isTag_append {other : List Char} (h : IsTag other) (s : List Char) :
    countTag tag (other ++ s) = countTag tag s + if other = tag then 1 else 0 := by
  rw [countTag, anyTag.findAll_of_run (anyTag?_append h s), List.count_cons, countTag]
  simp

theorem countTag_append {html text : List Char} (h : Shows html text) (more : List Char) :
    countTag tag (html ++ more) = countTag tag html + countTag tag more := by
  induction h with
  | nil => simp
  | char h1 _ _ ih => rw [List.cons_append, countTag_cons h1, countTag_cons h1, ih]
  | tag htag _ ih =>
    rw [List.append_assoc, countTag_isTag_append htag, countTag_isTag_append htag, ih]
    omega

/-- Text without an opening bracket holds no tag. -/
theorem countTag_of_forall {s : List Char} (h : ∀ c ∈ s, c ≠ '<') : countTag tag s = 0 := by
  induction s with
  | nil => exact countTag_nil tag
  | cons c s ih =>
    obtain ⟨hc, hs⟩ := List.forall_mem_cons.1 h
    rw [countTag_cons hc, ih hs]

/-- The text is HTML, and a tag stands `n` times in it. -/
structure Counts (tag html : List Char) (n : Nat) : Prop where
  /-- The text is HTML. -/
  shows : ∃ text, Shows html text
  /-- The tag stands so many times in it. -/
  count : countTag tag html = n

namespace Counts

theorem of_shows {html text : List Char} (h : Shows html text) :
    Counts tag html (countTag tag html) := ⟨⟨text, h⟩, rfl⟩

theorem of_unbracketed {s : List Char} (h : Unbracketed s) : Counts tag s 0 where
  shows := ⟨s, .of_unbracketed h⟩
  count := countTag_of_forall fun c hc => (h c hc).1

theorem nil : Counts tag [] 0 := of_unbracketed fun _ hc => absurd hc List.not_mem_nil

theorem append {html more : List Char} {m n : Nat} (h : Counts tag html m)
    (hmore : Counts tag more n) : Counts tag (html ++ more) (m + n) := by
  obtain ⟨⟨text, hshows⟩, rfl⟩ := h
  obtain ⟨⟨others, hothers⟩, rfl⟩ := hmore
  exact ⟨⟨_, hshows.append hothers⟩, countTag_append hshows more⟩

/-- Every tag stands once in itself. -/
theorem self (h : IsTag tag) : Counts tag tag 1 where
  shows := ⟨[], .of_isTag h⟩
  count := by
    have hself := @countTag_isTag_append tag _ h []
    rwa [List.append_nil, countTag_nil, if_pos rfl] at hself

/-- A tag does not stand in another. -/
theorem of_ne {other : List Char} (h : IsTag other) (hne : other ≠ tag) : Counts tag other 0 where
  shows := ⟨[], .of_isTag h⟩
  count := by
    have hother := @countTag_isTag_append tag _ h []
    rwa [List.append_nil, countTag_nil, if_neg hne] at hother

/-- Other tags around HTML do not count. -/
theorem between {opening closing html : List Char} {n : Nat} (hopening : Counts tag opening 0)
    (hclosing : Counts tag closing 0) (h : Counts tag html n) :
    Counts tag (opening ++ (html ++ closing)) n := by
  simpa using hopening.append (h.append hclosing)

end Counts

/-! ## Occurrences -/

/-- The number of places at which a text occurs in another. -/
def occurrences (mark s : List Char) : Nat := s.tails.countP (startsWith mark)

theorem occurrences_cons (mark : List Char) (c : Char) (s : List Char) :
    occurrences mark (c :: s) =
      occurrences mark s + if startsWith mark (c :: s) then 1 else 0 := by
  rw [occurrences, List.tails_cons, List.countP_cons, occurrences]

/-- A tag occurs only where there is an opening bracket. -/
theorem occurrences_append_of_forall {mark before : List Char} (hmark : IsTag mark)
    (h : ∀ c ∈ before, c ≠ '<') (s : List Char) :
    occurrences mark (before ++ s) = occurrences mark s := by
  induction before with
  | nil => rfl
  | cons c before ih =>
    obtain ⟨hc, hbefore⟩ := List.forall_mem_cons.1 h
    obtain ⟨tail, rfl, -⟩ := hmark.exists_tail
    have hnone : startsWith ('<' :: tail) (c :: (before ++ s)) = false := by
      simp [startsWith, after?, Ne.symm hc]
    rw [List.cons_append, occurrences_cons, hnone, ih hbefore]
    rfl

/-- In HTML, a tag occurs where it stands as a tag, and nowhere else. -/
theorem occurrences_eq_countTag {mark html text : List Char} (hmark : IsTag mark)
    (h : Shows html text) : occurrences mark html = countTag mark html := by
  induction h with
  | nil =>
    obtain ⟨tail, rfl, -⟩ := hmark.exists_tail
    rw [countTag_nil]
    rfl
  | @char c html _ h1 _ _ ih =>
    have hc : ∀ d ∈ [c], d ≠ '<' := by simpa using h1
    rw [countTag_cons h1, ← ih]
    exact occurrences_append_of_forall hmark hc html
  | @tag other html _ htag _ ih =>
    have hfirst : startsWith mark (other ++ html) = true ↔ other = mark := by
      rw [startsWith, Option.isSome_iff_exists]
      constructor
      · rintro ⟨rest, hrest⟩
        exact (htag.append_inj hmark (after?_eq_some_iff.1 hrest)).1
      · rintro rfl
        exact ⟨html, after?_eq_some_iff.2 rfl⟩
    obtain ⟨tail, rfl, htail⟩ := htag.exists_tail
    rw [countTag_isTag_append htag, ← ih]
    rw [List.cons_append] at hfirst ⊢
    rw [occurrences_cons, occurrences_append_of_forall hmark htail]
    simp only [hfirst]

/-! ## Replacing -/

section Replacing

variable {α : Type} {p : Recognizer α} {Q : α → List Char → Prop}

/-- What is known of every match in any text is known of the matches in HTML. -/
theorem Whole.and {R : α → Prop} (hp : Whole p Q)
    (hR : ∀ {s rest : List Char} {a : α}, p.run s = some (a, rest) → R a) :
    Whole p fun a shown => Q a shown ∧ R a where
  starts := hp.starts
  splits h hrun := by
    obtain ⟨shown, left, htext, ha, hrest⟩ := hp.splits h hrun
    exact ⟨shown, left, htext, ⟨ha, hR hrun⟩, hrest⟩

/-- With `f a` in place of a match `a` that was found in `source a`, `lost a` of the tags are lost. -/
def Loses (tag : List Char) (source f : α → List Char) (lost : α → Nat) (a : α) : Prop :=
  ∃ left, Counts tag (f a) left ∧ Counts tag (source a) (left + lost a)

theorem PiecesShow.counts {pieces : List (Piece α)} {text : List Char} (h : PiecesShow Q pieces text)
    {source f : α → List Char} {lost : α → Nat}
    (hf : ∀ a ∈ pieces.filterMap Piece.found?, ∀ {shown : List Char}, Q a shown →
      Loses tag source f lost a) :
    ∃ left, Counts tag (pieces.flatMap (Piece.write f)) left ∧
      Counts tag (pieces.flatMap (Piece.write source))
        (left + ((pieces.filterMap Piece.found?).map lost).sum) := by
  induction h with
  | nil => exact ⟨0, .nil, .nil⟩
  | @char c pieces _ h1 h2 _ ih =>
    obtain ⟨left, htarget, hsource⟩ := ih hf
    have hc : Counts tag [c] 0 := .of_unbracketed (.cons h1 h2 fun _ hd => absurd hd List.not_mem_nil)
    refine ⟨0 + left, hc.append htarget, ?_⟩
    rw [List.filterMap_cons_none rfl, Nat.add_assoc]
    exact hc.append hsource
  | @tag other pieces _ htag _ ih =>
    have hother : Counts tag other (countTag tag other) := .of_shows (.of_isTag htag)
    have hwrite : ∀ g : α → List Char,
        (other.map Piece.char ++ pieces).flatMap (Piece.write g) =
          other ++ pieces.flatMap (Piece.write g) := by
      intro g
      rw [List.flatMap_append, List.flatMap_map]
      simp [Piece.write]
    have hfound : (other.map Piece.char ++ pieces).filterMap (@Piece.found? α) =
        pieces.filterMap Piece.found? := by
      rw [List.filterMap_append, List.filterMap_map]
      simp [Function.comp_def, Piece.found?]
    rw [hfound] at hf
    obtain ⟨left, htarget, hsource⟩ := ih hf
    refine ⟨countTag tag other + left, ?_, ?_⟩
    · rw [hwrite]
      exact hother.append htarget
    · rw [hwrite, hfound, Nat.add_assoc]
      exact hother.append hsource
  | @found a pieces _ _ ha _ ih =>
    have hfound : (Piece.found a :: pieces).filterMap Piece.found? =
        a :: pieces.filterMap Piece.found? := List.filterMap_cons_some rfl
    rw [hfound] at hf
    obtain ⟨hhere, hrest⟩ := List.forall_mem_cons.1 hf
    obtain ⟨leftHere, htargetHere, hsourceHere⟩ := hhere ha
    obtain ⟨left, htarget, hsource⟩ := ih hrest
    refine ⟨leftHere + left, htargetHere.append htarget, ?_⟩
    rw [hfound, List.map_cons, List.sum_cons, Nat.add_add_add_comm]
    exact hsourceHere.append hsource

/-- A replacement loses as many tags as it loses at all matches together. -/
theorem Whole.counts_replace (hp : Whole p Q) {source f : α → List Char} {lost : α → Nat}
    (hsource : ∀ {s rest : List Char} {a : α}, p.run s = some (a, rest) → s = source a ++ rest)
    {html : List Char} {n : Nat} (h : Counts tag html n)
    (hf : ∀ a ∈ p.findAll html, ∀ {shown : List Char}, Q a shown → Loses tag source f lost a) :
    ∃ left, Counts tag (p.replace f html) left ∧ left + ((p.findAll html).map lost).sum = n := by
  obtain ⟨⟨text, hshows⟩, rfl⟩ := h
  obtain ⟨left, htarget, hbefore⟩ := (hp.piecesShow hshows).counts hf
  rw [← Recognizer.replace_eq, Recognizer.replace_source hsource] at hbefore
  exact ⟨left, htarget, hbefore.count.symm⟩

/-- A replacement that loses no tag at any match loses none. -/
theorem Whole.counts_replace_of_keeps (hp : Whole p Q) {source f : α → List Char}
    (hsource : ∀ {s rest : List Char} {a : α}, p.run s = some (a, rest) → s = source a ++ rest)
    (hf : ∀ {a : α} {shown : List Char}, Q a shown → Loses tag source f (fun _ => 0) a)
    {html : List Char} {n : Nat} (h : Counts tag html n) : Counts tag (p.replace f html) n := by
  obtain ⟨left, htarget, hleft⟩ := hp.counts_replace hsource h fun _ _ => hf
  have hnone : ((p.findAll html).map fun _ => 0).sum = 0 := by
    simp [List.map_const']
  rw [hnone, Nat.add_zero] at hleft
  exact hleft ▸ htarget

end Replacing

end Assessment.Markup
