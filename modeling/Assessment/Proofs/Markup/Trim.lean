import Assessment.Proofs.Markup.Tree
import Assessment.Text.Inline

/-!
# Proofs: trimming written markup

Trimming the written form of some pieces of markup is trimming the pieces: no tag and no reference
starts or ends with white space, so only runs of text get shorter. Both edges are treated at once: the
pieces are given from the edge on, and a text is read from there.
-/

namespace Assessment.Markup

open Assessment.Text

/-- A text as it is read from its start, or backward from its end. -/
def along (backward : Bool) (s : List Char) : List Char := if backward then s.reverse else s

theorem mem_along {backward : Bool} {c : Char} {s : List Char} : c ∈ along backward s ↔ c ∈ s := by
  cases backward <;> simp [along]

theorem along_along (backward : Bool) (s : List Char) : along backward (along backward s) = s := by
  cases backward <;> simp [along]

namespace Tree

/-- The white space at an edge of some pieces of markup. -/
def edgeBlanks (backward : Bool) : List Tree → List Char
  | .text s :: trees =>
    if isBlankText s then along backward s ++ edgeBlanks backward trees
    else (along backward s).takeWhile isBlank
  | _ => []

/-- Some pieces of markup without the white space at an edge. -/
def dropEdge (backward : Bool) : List Tree → List Tree
  | .text s :: trees =>
    if isBlankText s then dropEdge backward trees
    else .text (along backward ((along backward s).dropWhile isBlank)) :: trees
  | trees => trees

/-- Some pieces of markup without the white space at an edge, if that holds no line break. -/
def trimEdge (backward : Bool) (trees : List Tree) : List Tree :=
  if (edgeBlanks backward trees).any isLineBreak then trees else dropEdge backward trees

/-- Some pieces of markup without the white space they start with, if that holds no line break. -/
def trimStart (trees : List Tree) : List Tree := trimEdge false trees

/-- Some pieces of markup without the white space they end with, if that holds no line break. -/
def trimEnd (trees : List Tree) : List Tree := (trimEdge true trees.reverse).reverse

/-- The written form of some pieces of markup, given from an edge on and read from there. -/
def writeFrom (backward : Bool) (trees : List Tree) : List Char :=
  trees.flatMap fun tree => along backward tree.write

theorem writeFrom_false (trees : List Tree) : writeFrom false trees = writeAll trees := by
  induction trees with
  | nil => rfl
  | cons tree trees ih => simpa [writeFrom, writeAll, along] using ih

theorem writeFrom_true (trees : List Tree) :
    writeFrom true trees = (writeAll trees.reverse).reverse := by
  induction trees with
  | nil => rfl
  | cons tree trees ih =>
    have : writeFrom true (tree :: trees) = tree.write.reverse ++ writeFrom true trees := rfl
    rw [this, ih]
    simp [writeAll]

end Tree

theorem escapeChar_of_isBlank {c : Char} (h : isBlank c) : escapeChar c = [c] := by
  have hne : ∀ d : Char, isBlank d = false → c ≠ d := by
    rintro d hd rfl
    rw [h] at hd
    cases hd
  simp [escapeChar, hne '&' (by decide), hne '<' (by decide), hne '>' (by decide),
    hne '\x22' (by decide), hne '\x27' (by decide)]

/-- A character that is no white space is written with none at either end. -/
theorem exists_along_escapeChar (backward : Bool) {c : Char} (h : isBlank c = false) :
    ∃ d t, along backward (escapeChar c) = d :: t ∧ isBlank d = false := by
  unfold escapeChar
  split
  · cases backward
    · exact ⟨'&', "amp;".toList, rfl, by decide⟩
    · exact ⟨';', "pma&".toList, rfl, by decide⟩
  split
  · cases backward
    · exact ⟨'&', "lt;".toList, rfl, by decide⟩
    · exact ⟨';', "tl&".toList, rfl, by decide⟩
  split
  · cases backward
    · exact ⟨'&', "gt;".toList, rfl, by decide⟩
    · exact ⟨';', "tg&".toList, rfl, by decide⟩
  split
  · cases backward
    · exact ⟨'&', "quot;".toList, rfl, by decide⟩
    · exact ⟨';', "touq&".toList, rfl, by decide⟩
  split
  · cases backward
    · exact ⟨'&', "#x27;".toList, rfl, by decide⟩
    · exact ⟨';', "72x#&".toList, rfl, by decide⟩
  · exact ⟨c, [], by cases backward <;> rfl, h⟩

theorem along_escape (backward : Bool) (s : List Char) :
    along backward (escape s) =
      (along backward s).flatMap fun c => along backward (escapeChar c) := by
  cases backward with
  | false => rfl
  | true => simp [along, escape, List.reverse_flatMap]; rfl

theorem flatMap_escape_of_blank (backward : Bool) {s : List Char} (h : ∀ c ∈ s, isBlank c) :
    (s.flatMap fun c => along backward (escapeChar c)) = s := by
  induction s with
  | nil => rfl
  | cons c s ih =>
    have hc : along backward [c] = [c] := by cases backward <;> rfl
    rw [List.flatMap_cons, escapeChar_of_isBlank (h c (by simp)), ih fun d hd => h d (by simp [hd]),
      hc]
    rfl

/-- The white space at the edge of an escaped text is that of the text. -/
theorem span_flatMap_escape (backward : Bool) (s : List Char) (hs : ∃ c ∈ s, isBlank c = false)
    (rest : List Char) :
    ((s.flatMap fun c => along backward (escapeChar c)) ++ rest).takeWhile isBlank =
        s.takeWhile isBlank ∧
      ((s.flatMap fun c => along backward (escapeChar c)) ++ rest).dropWhile isBlank =
        ((s.dropWhile isBlank).flatMap fun c => along backward (escapeChar c)) ++ rest := by
  induction s with
  | nil => simp at hs
  | cons c s ih =>
    by_cases hc : isBlank c
    · have hone : along backward [c] = [c] := by cases backward <;> rfl
      obtain ⟨h1, h2⟩ := ih (by
        obtain ⟨d, hd, hb⟩ := hs
        rcases List.mem_cons.1 hd with rfl | hd
        · rw [hc] at hb
          cases hb
        · exact ⟨d, hd, hb⟩)
      rw [List.flatMap_cons, escapeChar_of_isBlank hc, hone, List.singleton_append,
        List.cons_append, List.takeWhile_cons_of_pos hc, List.dropWhile_cons_of_pos hc,
        List.takeWhile_cons_of_pos hc, List.dropWhile_cons_of_pos hc]
      exact ⟨by rw [h1], h2⟩
    · obtain ⟨d, t, hd, hb⟩ := exists_along_escapeChar backward (c := c) (by simpa using hc)
      have hb' : ¬ isBlank d = true := by simp [hb]
      rw [List.takeWhile_cons_of_neg hc, List.dropWhile_cons_of_neg hc, List.flatMap_cons, hd]
      simp [hb]

namespace Tree

theorem head_write {tree : Tree} (h : ∀ s, tree ≠ .text s) (backward : Bool) :
    ∃ c t, along backward tree.write = c :: t ∧ isBlank c = false := by
  cases tree with
  | text s => exact absurd rfl (h s)
  | void name attributes =>
    cases backward with
    | false => exact ⟨'<', _, rfl, by decide⟩
    | true => exact ⟨'>', _, by simp [along, write]; rfl, by decide⟩
  | element name attributes children =>
    cases backward with
    | false => exact ⟨'<', _, rfl, by decide⟩
    | true => exact ⟨'>', _, by simp [along, write]; rfl, by decide⟩

/-- White space at the edge of written markup is white space at the edge of the pieces. -/
theorem span_writeFrom (backward : Bool) : ∀ trees : List Tree,
    (writeFrom backward trees).takeWhile isBlank = edgeBlanks backward trees ∧
      (writeFrom backward trees).dropWhile isBlank = writeFrom backward (dropEdge backward trees)
  | [] => ⟨rfl, rfl⟩
  | .text s :: trees => by
    have hwrite : writeFrom backward (.text s :: trees) =
        ((along backward s).flatMap fun c => along backward (escapeChar c)) ++
          writeFrom backward trees := by
      rw [← along_escape]
      rfl
    by_cases hs : isBlankText s
    · have hall : ∀ c ∈ along backward s, isBlank c := fun c hc =>
        List.all_eq_true.1 hs c (mem_along.1 hc)
      obtain ⟨h1, h2⟩ := span_writeFrom backward trees
      rw [hwrite, flatMap_escape_of_blank backward hall, edgeBlanks, dropEdge, if_pos hs, if_pos hs,
        List.takeWhile_append_of_pos hall, List.dropWhile_append_of_pos hall, h1, h2]
      exact ⟨rfl, rfl⟩
    · have hsome : ∃ c ∈ along backward s, isBlank c = false := by
        have hnot : s.all isBlank = false := by simpa [isBlankText] using hs
        obtain ⟨c, hc, hb⟩ := List.all_eq_false.1 hnot
        exact ⟨c, mem_along.2 hc, by simpa using hb⟩
      obtain ⟨h1, h2⟩ := span_flatMap_escape backward _ hsome (writeFrom backward trees)
      rw [hwrite, edgeBlanks, dropEdge, if_neg hs, if_neg hs, h1, h2]
      refine ⟨rfl, ?_⟩
      show _ = along backward (escape _) ++ _
      rw [along_escape, along_along]
      rfl
  | .void name attributes :: trees => by
    obtain ⟨c, t, ht, hc⟩ := @head_write (.void name attributes) (by simp) backward
    have hwrite : writeFrom backward (.void name attributes :: trees) =
        c :: (t ++ writeFrom backward trees) := by rw [← List.cons_append, ← ht]; rfl
    simp [edgeBlanks, dropEdge, hwrite, hc]
  | .element name attributes children :: trees => by
    obtain ⟨c, t, ht, hc⟩ := @head_write (.element name attributes children) (by simp) backward
    have hwrite : writeFrom backward (.element name attributes children :: trees) =
        c :: (t ++ writeFrom backward trees) := by rw [← List.cons_append, ← ht]; rfl
    simp [edgeBlanks, dropEdge, hwrite, hc]

theorem trimInlineStart_writeFrom (backward : Bool) (trees : List Tree) :
    trimInlineStart (writeFrom backward trees) = writeFrom backward (trimEdge backward trees) := by
  obtain ⟨h1, h2⟩ := span_writeFrom backward trees
  unfold trimInlineStart trimEdge
  rw [h1, h2]
  split <;> rfl

theorem trimInlineStart_writeAll (trees : List Tree) :
    trimInlineStart (writeAll trees) = writeAll (trimStart trees) := by
  rw [← writeFrom_false, trimInlineStart_writeFrom, writeFrom_false, trimStart]

theorem trimInlineEnd_writeAll (trees : List Tree) :
    trimInlineEnd (writeAll trees) = writeAll (trimEnd trees) := by
  have h : (writeAll trees).reverse = writeFrom true trees.reverse := by
    rw [writeFrom_true, List.reverse_reverse]
  rw [trimInlineEnd, h, trimInlineStart_writeFrom, writeFrom_true, List.reverse_reverse, trimEnd]

/-! ## What trimming keeps -/

/-- The piece is no text. -/
def isTag : Tree → Bool
  | .text _ => false
  | _ => true

/-- The pieces that are no text. -/
def tags (trees : List Tree) : List Tree := trees.filter isTag

theorem tags_dropEdge (backward : Bool) (trees : List Tree) :
    tags (dropEdge backward trees) = tags trees := by
  induction trees with
  | nil => rfl
  | cons tree trees ih =>
    cases tree with
    | text s =>
      rw [dropEdge]
      split
      · exact ih
      · rfl
    | void name attributes => rfl
    | element name attributes children => rfl

theorem tags_trimEdge (backward : Bool) (trees : List Tree) :
    tags (trimEdge backward trees) = tags trees := by
  unfold trimEdge
  split
  · rfl
  · exact tags_dropEdge backward trees

/-- Trimming takes away text only. -/
theorem tags_trimStart (trees : List Tree) : tags (trimStart trees) = tags trees :=
  tags_trimEdge false trees

theorem tags_trimEnd (trees : List Tree) : tags (trimEnd trees) = tags trees := by
  have h := tags_trimEdge true trees.reverse
  simp only [tags, List.filter_reverse] at h
  rw [tags, trimEnd, List.filter_reverse, h, List.reverse_reverse, tags]

theorem valuedAll_tags (trees : List Tree) : valuedAll (tags trees) = valuedAll trees := by
  induction trees with
  | nil => rfl
  | cons tree trees ih =>
    cases tree with
    | text s => exact ih
    | void name attributes => exact congrArg (valuedOf attributes ++ ·) ih
    | element name attributes children =>
      exact congrArg (valuedOf attributes ++ valuedAll children ++ ·) ih

theorem plainAll_tags (trees : List Tree) : PlainAll (tags trees) ↔ PlainAll trees := by
  induction trees with
  | nil => exact Iff.rfl
  | cons tree trees ih =>
    cases tree with
    | text s => simpa [tags, isTag, PlainAll, Plain] using ih
    | void name attributes => exact and_congr_right fun _ => ih
    | element name attributes children => exact and_congr_right fun _ => ih

end Tree

end Assessment.Markup
