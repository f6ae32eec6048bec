import Assessment.Proofs.Text.Blank
import Assessment.Proofs.Text.Scan
import Assessment.Text.Inline

/-!
# Proofs: trimming on a line

The white space at an edge of a text is a longest run (`Edge.IsRun`), which trimming takes away whole or
leaves whole (`Edge.trimInline_of_isRun`). Both edges are treated at once, a text being a run attached to
a rest that shows no white space at that edge. What one edge loses is nothing to the other one, unless
the text is a single run, which is then lost or kept by both (`trimInline_comm`).
-/

namespace Assessment.Text

/-! ## Runs -/

/-- An edge of a text. -/
inductive Edge where
  /-- Where the text starts. -/
  | start
  /-- Where the text ends. -/
  | finish
  deriving DecidableEq, Repr

namespace Edge

/-- Two texts joined, the first of them at the edge. -/
def attach : Edge → List Char → List Char → List Char
  | start, run, rest => run ++ rest
  | finish, run, rest => rest ++ run

/-- The character at the edge. -/
def char? : Edge → List Char → Option Char
  | start, s => s.head?
  | finish, s => s.getLast?

/-- The text without the white space at the edge, if that holds no line break. -/
def trimInline : Edge → List Char → List Char
  | start, s => trimInlineStart s
  | finish, s => trimInlineEnd s

/-- A text is cut into the longest run of white space at an edge and the rest. -/
structure IsRun (edge : Edge) (s run rest : List Char) : Prop where
  /-- Together they are the text. -/
  parts : s = edge.attach run rest
  /-- The run is white space. -/
  blank : isBlankText run
  /-- No longer piece of the text at the edge is white space. -/
  longest : ∀ longer left, s = edge.attach longer left → isBlankText longer →
    longer.length ≤ run.length

/-- Behind the longest run comes no white space. -/
theorem IsRun.char?_rest {edge : Edge} {s run rest : List Char} (h : edge.IsRun s run rest) :
    ∀ c ∈ edge.char? rest, isBlank c = false := by
  intro c hc
  by_contra hblank
  rw [Bool.not_eq_false] at hblank
  cases edge with
  | start =>
    obtain ⟨t, rfl⟩ := List.head?_eq_some_iff.1 hc
    have hlonger : isBlankText (run ++ [c]) := by
      rw [isBlankText, List.all_append, ← isBlankText, h.blank]
      simp [hblank]
    have hle := h.longest (run ++ [c]) t (by rw [h.parts]; simp [attach]) hlonger
    simp only [List.length_append, List.length_cons, List.length_nil] at hle
    omega
  | finish =>
    obtain ⟨t, rfl⟩ := List.getLast?_eq_some_iff.1 hc
    have hlonger : isBlankText (c :: run) := by
      rw [isBlankText, List.all_cons, ← isBlankText, h.blank]
      simp [hblank]
    have hle := h.longest (c :: run) t (by rw [h.parts]; simp [attach]) hlonger
    simp only [List.length_cons] at hle
    omega

/-- Every text has a longest run of white space at an edge. -/
theorem exists_isRun (edge : Edge) (s : List Char) : ∃ run rest, edge.IsRun s run rest := by
  have hstart (t : List Char) : start.IsRun t (t.takeWhile isBlank) (t.dropWhile isBlank) :=
    { parts := List.takeWhile_append_dropWhile.symm
      blank := List.all_takeWhile
      longest := fun longer left heq hblank => by
        subst heq
        rw [attach, List.takeWhile_append_of_pos (List.all_eq_true.1 hblank), List.length_append]
        exact Nat.le_add_right _ _ }
  cases edge with
  | start => exact ⟨_, _, hstart s⟩
  | finish =>
    have hback := hstart s.reverse
    refine ⟨(s.reverse.takeWhile isBlank).reverse, (s.reverse.dropWhile isBlank).reverse, ?_, ?_, ?_⟩
    · rw [attach, ← List.reverse_append, List.takeWhile_append_dropWhile, List.reverse_reverse]
    · rw [isBlankText, List.all_reverse]
      exact hback.blank
    · intro longer left heq hblank
      have hle := hback.longest longer.reverse left.reverse (by rw [heq]; simp [attach])
        (by rwa [isBlankText, List.all_reverse])
      simpa using hle

end Edge

/-! ## Trimming -/

/-- What trimming leaves of a run of white space: all of it if there is a line break in it, and nothing
otherwise. -/
def keptBlanks (run : List Char) : List Char := if run.any isLineBreak then run else []

theorem keptBlanks_keptBlanks (run : List Char) : keptBlanks (keptBlanks run) = keptBlanks run := by
  by_cases h : run.any isLineBreak
  · have hkept : keptBlanks run = run := if_pos h
    rw [hkept, hkept]
  · have hkept : keptBlanks run = [] := if_neg h
    rw [hkept]
    rfl

theorem isBlankText_keptBlanks {run : List Char} (h : isBlankText run) :
    isBlankText (keptBlanks run) := by
  unfold keptBlanks
  split
  · exact h
  · rfl

theorem keptBlanks_reverse (run : List Char) : keptBlanks run.reverse = (keptBlanks run).reverse := by
  unfold keptBlanks
  rw [List.any_reverse]
  split <;> rfl

theorem trimInlineStart_append {run rest : List Char} (hrun : isBlankText run)
    (hrest : ∀ c ∈ rest.head?, isBlank c = false) :
    trimInlineStart (run ++ rest) = keptBlanks run ++ rest := by
  obtain ⟨htake, hdrop⟩ := span_append (List.all_eq_true.1 hrun) hrest
  rw [trimInlineStart, htake, hdrop, keptBlanks]
  split <;> rfl

namespace Edge

/-- A run of white space at an edge is left or taken away, and the rest stays. -/
theorem trimInline_attach (edge : Edge) {run rest : List Char} (hrun : isBlankText run)
    (hrest : ∀ c ∈ edge.char? rest, isBlank c = false) :
    edge.trimInline (edge.attach run rest) = edge.attach (keptBlanks run) rest := by
  cases edge with
  | start => exact trimInlineStart_append hrun hrest
  | finish =>
    have hback : isBlankText run.reverse := by rwa [isBlankText, List.all_reverse]
    have hhead : ∀ c ∈ rest.reverse.head?, isBlank c = false := by
      rw [List.head?_reverse]
      exact hrest
    rw [trimInline, attach, trimInlineEnd, List.reverse_append, trimInlineStart_append hback hhead,
      keptBlanks_reverse, ← List.reverse_append, List.reverse_reverse, attach]

/-- The longest run of white space at an edge is taken away, unless there is a line break in it. -/
theorem trimInline_of_isRun {edge : Edge} {s run rest : List Char} (h : edge.IsRun s run rest) :
    edge.trimInline s = if '\n' ∈ run ∨ '\r' ∈ run then s else rest := by
  have hbreak : run.any isLineBreak ↔ '\n' ∈ run ∨ '\r' ∈ run := by
    simp [isLineBreak, and_or_left, exists_or]
  rw [h.parts, trimInline_attach edge h.blank h.char?_rest, keptBlanks, if_congr hbreak rfl rfl]
  split
  · rfl
  · cases edge with
    | start => rfl
    | finish => exact List.append_nil rest

theorem trimInline_trimInline (edge : Edge) (s : List Char) :
    edge.trimInline (edge.trimInline s) = edge.trimInline s := by
  obtain ⟨run, rest, h⟩ := exists_isRun edge s
  rw [h.parts, trimInline_attach edge h.blank h.char?_rest,
    trimInline_attach edge (isBlankText_keptBlanks h.blank) h.char?_rest, keptBlanks_keptBlanks]

/-- A text that is white space alone is the run at either edge. -/
theorem trimInline_of_isBlankText (edge : Edge) {s : List Char} (h : isBlankText s) :
    edge.trimInline s = keptBlanks s := by
  have htrim := @trimInline_attach edge s [] h (by cases edge <;> simp [char?])
  cases edge with
  | start => simpa [attach] using htrim
  | finish => simpa [attach] using htrim

end Edge

/-- A text that is not white space alone is a trimmed text between runs of white space. -/
theorem exists_trimmed {s : List Char} (h : ¬ isBlankText s) :
    ∃ lead core trail, s = lead ++ core ++ trail ∧ isBlankText lead ∧ Trimmed core ∧
      isBlankText trail := by
  have hlead : isBlankText (s.takeWhile isBlank) := List.all_takeWhile
  have hparts : s.takeWhile isBlank ++ trimStart s = s := List.takeWhile_append_dropWhile
  obtain ⟨trail, htrail, hblank⟩ := exists_trimEnd (trimStart s)
  have hcore : trim s ≠ [] := by
    intro hnil
    rw [trim] at hnil
    rw [hnil, List.nil_append] at htrail
    rw [← hparts, htrail, isBlankText, List.all_append, Bool.and_eq_true] at h
    exact h ⟨hlead, hblank⟩
  refine ⟨s.takeWhile isBlank, trim s, trail, ?_, hlead, Trimmed.of_trim hcore, hblank⟩
  rw [List.append_assoc, trim, ← htrail, hparts]

/-- The two edges of a text can be trimmed in either order. -/
theorem trimInline_comm (s : List Char) :
    Edge.start.trimInline (Edge.finish.trimInline s) =
      Edge.finish.trimInline (Edge.start.trimInline s) := by
  by_cases h : isBlankText s
  · have hkept := isBlankText_keptBlanks h
    rw [Edge.trimInline_of_isBlankText _ h, Edge.trimInline_of_isBlankText _ h,
      Edge.trimInline_of_isBlankText _ hkept, Edge.trimInline_of_isBlankText _ hkept]
  · obtain ⟨lead, core, trail, rfl, hlead, hcore, htrail⟩ := exists_trimmed h
    obtain ⟨c, t, hfirst, hc⟩ := hcore.first
    obtain ⟨u, d, hlast, hd⟩ := hcore.last
    have hstart (after : List Char) : Edge.start.trimInline (lead ++ core ++ after) =
        keptBlanks lead ++ core ++ after := by
      rw [List.append_assoc, List.append_assoc]
      exact Edge.trimInline_attach .start hlead (by simpa [Edge.char?, hfirst] using hc)
    have hfinish (before : List Char) : Edge.finish.trimInline (before ++ core ++ trail) =
        before ++ core ++ keptBlanks trail :=
      Edge.trimInline_attach .finish htrail (by simpa [Edge.char?, hlast] using hd)
    rw [hfinish, hstart, hstart, hfinish]

end Assessment.Text
