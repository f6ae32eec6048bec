import Mathlib.Data.List.Forall2
import Mathlib.Data.List.DropRight
import Assessment.Item.Rubric
import Assessment.Proofs.Text.Scan

/-!
# Proofs: markers of rubric lines

What a line of the rubric is worth. `Numeral.marker` writes the marker of a numeral, so that a line
is marked if, without the white space around it, it is a marker with something after it. `ReadAs`
says from this alone which points and which text a line has.

Main statements: `marker?_eq_some_iff`, which says that a marker is found just where one is written,
and `rubric_lines_are_read`, which says how the lines of every rubric are read. A marker counts only
in front of a single line: `broken_line_loses_points` is a marked line that is worth nothing.
-/

namespace Assessment.Item

open Assessment.Text Assessment.Xml

/-! ## Markers as they are written -/

/-- The numeral can stand in a marker: it is made of digits, and some stand before the point. -/
structure Numeral.WellFormed (n : Numeral) : Prop where
  whole_ne : n.whole ≠ []
  whole : ∀ c ∈ n.whole, isDigit c = true
  fraction : ∀ c ∈ n.fraction, isDigit c = true

/-- The numeral as it is written: there is no point without digits after it. -/
def Numeral.write (n : Numeral) : List Char :=
  n.whole ++ (if n.fraction = [] then [] else '.' :: n.fraction)

/-- The marker of a numeral. -/
def Numeral.marker (n : Numeral) : List Char := '[' :: n.write ++ [']']

/-- The numeral that a text starts with is well formed, and the text is the numeral and the rest. -/
theorem numeral?_append {s rest : List Char} {n : Numeral} (h : numeral? s = some (n, rest)) :
    n.WellFormed ∧ s = n.write ++ rest := by
  have hsplit : s.takeWhile isDigit ++ s.dropWhile isDigit = s := List.takeWhile_append_dropWhile
  have hwhole : ∀ c ∈ s.takeWhile isDigit, isDigit c = true := fun c hc => List.mem_takeWhile_imp hc
  simp only [numeral?] at h
  split at h
  · cases h
  · next hne =>
    rw [List.isEmpty_iff] at hne
    split at h
    · next afterPoint hafter =>
      have hsplit' : afterPoint.takeWhile isDigit ++ afterPoint.dropWhile isDigit = afterPoint :=
        List.takeWhile_append_dropWhile
      split at h
      · cases h
        exact ⟨⟨hne, hwhole, by simp⟩, by simp [Numeral.write]⟩
      · next hfraction =>
        cases h
        rw [List.isEmpty_iff] at hfraction
        refine ⟨⟨hne, hwhole, fun c hc => List.mem_takeWhile_imp hc⟩, ?_⟩
        rw [Numeral.write, if_neg hfraction, List.append_assoc, List.cons_append, hsplit', ← hafter,
          hsplit]
    · cases h
      exact ⟨⟨hne, hwhole, by simp⟩, by simp [Numeral.write]⟩

/-- A numeral with a bracket after it is read as a whole. -/
theorem numeral?_write {n : Numeral} (h : n.WellFormed) (rest : List Char) :
    numeral? (n.write ++ ']' :: rest) = some (n, ']' :: rest) := by
  have hbracket : isDigit ']' = false := by decide
  have hpoint : isDigit '.' = false := by decide
  have hwhole : n.whole.isEmpty = false := by
    simpa using h.whole_ne
  by_cases hfraction : n.fraction = []
  · have hn : (⟨n.whole, []⟩ : Numeral) = n := by rw [← hfraction]
    simp [numeral?, Numeral.write, hfraction, span_append_cons h.whole hbracket, hwhole, hn]
  · have hsome : n.fraction.isEmpty = false := by simpa using hfraction
    simp [numeral?, Numeral.write, hfraction, span_append_cons h.whole hpoint,
      span_append_cons h.fraction hbracket, hwhole, hsome]

/-- A line has a marker just if it is that marker with the rest after it. -/
theorem marker?_eq_some_iff {line rest : List Char} {n : Numeral} :
    marker? line = some (n, rest) ↔ n.WellFormed ∧ line = n.marker ++ rest := by
  constructor
  · intro h
    unfold marker? at h
    split at h
    · next s =>
      split at h
      · next hread =>
        cases h
        obtain ⟨hn, rfl⟩ := numeral?_append hread
        exact ⟨hn, by simp [Numeral.marker]⟩
      · cases h
    · cases h
  · rintro ⟨hn, rfl⟩
    simp [marker?, Numeral.marker, numeral?_write hn]

theorem marker?_eq_none_iff {line : List Char} :
    marker? line = none ↔ ∀ n rest, n.WellFormed → line ≠ Numeral.marker n ++ rest := by
  rw [Option.eq_none_iff_forall_not_mem]
  constructor
  · intro h n rest hn hline
    exact h (n, rest) (marker?_eq_some_iff.2 ⟨hn, hline⟩)
  · rintro h ⟨n, rest⟩ hsome
    obtain ⟨hn, hline⟩ := marker?_eq_some_iff.1 hsome
    exact h n rest hn hline

/-! ## Lines of a rubric -/

/-- The points and the text of a line, by what the line is without the white space around it. -/
inductive ReadAs (line : List Char) : Float → List Char → Prop where
  /-- A marker in front of a single line gives its number and is left out of the text. -/
  | marked {n : Numeral} {rest : List Char} (hn : n.WellFormed) (hline : trim line = n.marker ++ rest)
      (hrest : '\n' ∉ trimStart rest) : ReadAs line n.value (trim rest)
  /-- A marker in front of several lines is text like the rest. -/
  | broken {n : Numeral} {rest : List Char} (hn : n.WellFormed) (hline : trim line = n.marker ++ rest)
      (hrest : '\n' ∈ trimStart rest) : ReadAs line 0 (trim line)
  /-- A line without a marker is text and is worth nothing. -/
  | unmarked (hline : ∀ n rest, n.WellFormed → trim line ≠ Numeral.marker n ++ rest) :
      ReadAs line 0 (trim line)

theorem trim_trimStart (s : List Char) : trim (trimStart s) = trim s := by
  rw [trim, trim, trimStart, trimStart, List.dropWhile_idempotent]

/-- A line is read just as its marker says. -/
theorem readLine_eq_iff {line : List Char} {points : Float} {text : List Char} :
    readLine line = (points, text) ↔ ReadAs line points text := by
  constructor
  · intro h
    simp only [readLine] at h
    split at h
    · next n rest hmarker =>
      obtain ⟨hn, hline⟩ := marker?_eq_some_iff.1 hmarker
      rw [trim_trimStart] at h
      split at h
      · next hbreak =>
        cases h
        exact .broken hn hline (by simpa using hbreak)
      · next hbreak =>
        cases h
        exact .marked hn hline (by simpa using hbreak)
    · next hmarker =>
      cases h
      exact .unmarked (marker?_eq_none_iff.1 hmarker)
  · intro h
    cases h with
    | marked hn hline hrest =>
      simp [readLine, marker?_eq_some_iff.2 ⟨hn, hline⟩, hrest, trim_trimStart]
    | broken hn hline hrest => simp [readLine, marker?_eq_some_iff.2 ⟨hn, hline⟩, hrest]
    | unmarked hline => simp [readLine, marker?_eq_none_iff.2 hline]

/-- The lines of the first rubric block for scorers. -/
def rubricLines (body : Element) : List Element :=
  (((body.locate "qti-rubric-block".toList).find? fun block =>
    block.attribute? "view" == some "scorer".toList).map (·.locate "qti-p".toList)).getD []

theorem criteria_eq (body : Element) : criteria body = criteriaFrom 1 (rubricLines body) := by
  unfold criteria rubricLines
  split
  · next h =>
    rw [h]
    rfl
  · next h =>
    rw [h]
    rfl

/-- The criterion numbered `index` is what its line says. -/
def CriterionOf (index : Nat) (line : Element) (criterion : Criterion) : Prop :=
  criterion.index = index ∧ ReadAs line.content criterion.points criterion.text

theorem criteriaFrom_forall₂ (index : Nat) (lines : List Element) :
    List.Forall₂ (fun line criterion => CriterionOf line.2 line.1 criterion)
      (lines.zipIdx index) (criteriaFrom index lines) := by
  induction lines generalizing index with
  | nil => exact .nil
  | cons line lines ih =>
    rw [List.zipIdx_cons, criteriaFrom]
    exact .cons ⟨rfl, readLine_eq_iff.1 rfl⟩ (ih (index + 1))

/-- Two rubrics have the same criteria if their lines are read alike, one by one. -/
theorem criteriaFrom_eq_iff {lines lines' : List Element} (index : Nat) :
    criteriaFrom index lines = criteriaFrom index lines' ↔
      lines.map (fun line => readLine line.content) =
        lines'.map fun line => readLine line.content := by
  induction lines generalizing index lines' with
  | nil => cases lines' <;> simp [criteriaFrom]
  | cons line lines ih =>
    cases lines' with
    | nil => simp [criteriaFrom]
    | cons line' lines' =>
      rw [criteriaFrom, criteriaFrom, List.cons_eq_cons, ih, Criterion.mk.injEq, List.map_cons,
        List.map_cons, List.cons_eq_cons, Prod.ext_iff]
      simp only [true_and]

theorem length_criteriaFrom (index : Nat) (lines : List Element) :
    (criteriaFrom index lines).length = lines.length := by
  induction lines generalizing index with
  | nil => rfl
  | cons line lines ih => rw [criteriaFrom, List.length_cons, List.length_cons, ih]

/-- How the lines of a rubric are read. Every text is read as its marker says, and in no other way. The
criteria of an item are the lines of its first rubric for scorers, each as it is read, numbered from
one. -/
theorem rubric_lines_are_read (line : List Char) (points : Float) (text : List Char)
    (body : Element) :
    (readLine line = (points, text) ↔ ReadAs line points text) ∧
      List.Forall₂ (fun line criterion => CriterionOf line.2 line.1 criterion)
        ((rubricLines body).zipIdx 1) (criteria body) := by
  refine ⟨readLine_eq_iff, ?_⟩
  rw [criteria_eq]
  exact criteriaFrom_forall₂ 1 (rubricLines body)

example : readLine " [1.5]  Names the base case\n".toList = (1.5, "Names the base case".toList) := rfl

/-- The points of a marked line are lost where the line is broken behind its marker: it is worth
nothing, and its text keeps the marker. -/
theorem broken_line_loses_points :
    ¬ ∀ (line : List Char) (n : Numeral) (rest : List Char), n.WellFormed →
      trim line = n.marker ++ rest → readLine line = (n.value, trim rest) := by
  intro h
  have hread : readLine "[2] a\nb".toList = (0, "[2] a\nb".toList) :=
    readLine_eq_iff.2 (@ReadAs.broken _ ⟨['2'], []⟩ " a\nb".toList
      ⟨by decide, by decide, by decide⟩ (by decide) (by decide))
  have hclaim := h "[2] a\nb".toList ⟨['2'], []⟩ " a\nb".toList ⟨by decide, by decide, by decide⟩
    (by decide)
  rw [hread] at hclaim
  exact absurd (congrArg Prod.snd hclaim) (by decide)

end Assessment.Item
