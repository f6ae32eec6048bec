/-!
# Cutting texts

Cutting a text after a known beginning, at the first place where another text occurs, and at every
place where a character occurs.

Main statements: `after?_eq_some_iff` and `cutAt?_append`, which say that cutting loses nothing.
-/

namespace Assessment.Text

/-- What follows the beginning `start`, if the text starts so. -/
def after? : List Char → List Char → Option (List Char)
  | [], s => some s
  | _ :: _, [] => none
  | a :: start, b :: s => if a = b then after? start s else none

/-- The text starts with `start`. -/
def startsWith (start s : List Char) : Bool := (after? start s).isSome

/-- The text before the first occurrence of `mark`, and the text after it. -/
def cutAt? (mark : List Char) : List Char → Option (List Char × List Char)
  | [] => if mark.isEmpty then some ([], []) else none
  | c :: s =>
    match after? mark (c :: s) with
    | some rest => some ([], rest)
    | none => (cutAt? mark s).map fun (before, rest) => (c :: before, rest)

/-- The text occurs in the other one. -/
def occursIn (mark s : List Char) : Bool := (cutAt? mark s).isSome

/-- The text before the first occurrence of a character, and the text after it. -/
def cutAtChar? (mark : Char) : List Char → Option (List Char × List Char)
  | [] => none
  | c :: s =>
    if c = mark then some ([], s)
    else (cutAtChar? mark s).map fun (before, rest) => (c :: before, rest)

/-- The text before the first place at which the rest of the text starts as `p` says, and what follows
that start. -/
def cutWhere? (p : List Char → Option (List Char)) : List Char → Option (List Char × List Char)
  | [] => none
  | c :: s =>
    match p (c :: s) with
    | some rest => some ([], rest)
    | none => (cutWhere? p s).map fun (before, rest) => (c :: before, rest)

/-- The text before the first place at which the rest of the text is as `p` says, and that rest. -/
def splitWhere? (p : List Char → Bool) : List Char → Option (List Char × List Char)
  | [] => none
  | c :: s =>
    if p (c :: s) then some ([], c :: s)
    else (splitWhere? p s).map fun (before, rest) => (c :: before, rest)

/-- The text before the first occurrence of a character, or the whole text. -/
def beforeChar (mark : Char) (s : List Char) : List Char := s.takeWhile (· != mark)

/-- The parts of a text between the occurrences of a character. -/
def splitOn (mark : Char) : List Char → List (List Char)
  | [] => [[]]
  | c :: s =>
    if c = mark then [] :: splitOn mark s
    else
      match splitOn mark s with
      | [] => [[c]]
      | part :: parts => (c :: part) :: parts

/-- Texts joined by a separator. -/
def joinWith (separator : List Char) : List (List Char) → List Char
  | [] => []
  | [s] => s
  | s :: t :: rest => s ++ separator ++ joinWith separator (t :: rest)

/-- The text with every occurrence of one character replaced by a text. -/
def replaceChar (mark : Char) (replacement : List Char) (s : List Char) : List Char :=
  s.flatMap fun c => if c = mark then replacement else [c]

/-- A text starts with another exactly when it is that other text and the rest. -/
theorem after?_eq_some_iff {start s r : List Char} :
    after? start s = some r ↔ s = start ++ r := by
  induction start generalizing s with
  | nil => simp [after?, eq_comm]
  | cons a start ih =>
    cases s with
    | nil => simp [after?]
    | cons b s =>
      by_cases h : a = b
      · simp [after?, h, ih]
      · simp [after?, h, Ne.symm h]

theorem length_of_after? {start s r : List Char} (h : after? start s = some r) :
    s.length = start.length + r.length := by
  rw [after?_eq_some_iff.1 h, List.length_append]

/-- What is cut at a mark is the text before it, the mark and the text after it. -/
theorem cutAt?_append {mark s before rest : List Char}
    (h : cutAt? mark s = some (before, rest)) : s = before ++ mark ++ rest := by
  induction s generalizing before with
  | nil =>
    simp only [cutAt?] at h
    split at h
    · next hm =>
      cases h
      simp [List.isEmpty_iff.1 hm]
    · cases h
  | cons c s ih =>
    simp only [cutAt?] at h
    split at h
    · next r hr =>
      cases h
      simpa using after?_eq_some_iff.1 hr
    · obtain ⟨⟨b, r⟩, hbr, hp⟩ := Option.map_eq_some_iff.1 h
      cases hp
      simp [ih hbr]

/-- What is cut at a character is the text before it, the character and the text after it. -/
theorem cutAtChar?_append {mark : Char} {s before rest : List Char}
    (h : cutAtChar? mark s = some (before, rest)) : s = before ++ mark :: rest := by
  induction s generalizing before with
  | nil => cases h
  | cons c s ih =>
    simp only [cutAtChar?] at h
    split at h
    · next hc =>
      cases h
      simp [hc]
    · obtain ⟨⟨b, r⟩, hbr, hp⟩ := Option.map_eq_some_iff.1 h
      cases hp
      simp [ih hbr]

theorem length_of_cutWhere? {p : List Char → Option (List Char)}
    (hp : ∀ {s rest : List Char}, p s = some rest → rest.length ≤ s.length)
    {s before rest : List Char} (h : cutWhere? p s = some (before, rest)) :
    rest.length ≤ s.length := by
  induction s generalizing before with
  | nil => cases h
  | cons c s ih =>
    simp only [cutWhere?] at h
    split at h
    · next r hr =>
      cases h
      exact hp hr
    · obtain ⟨⟨b, r⟩, hbr, hpair⟩ := Option.map_eq_some_iff.1 h
      cases hpair
      exact Nat.le_succ_of_le (ih hbr)

/-- A split text is what comes before the place and what comes from it on. -/
theorem splitWhere?_append {p : List Char → Bool} {s before rest : List Char}
    (h : splitWhere? p s = some (before, rest)) : s = before ++ rest := by
  induction s generalizing before with
  | nil => cases h
  | cons c s ih =>
    simp only [splitWhere?] at h
    split at h
    · cases h
      rfl
    · obtain ⟨⟨b, r⟩, hbr, hpair⟩ := Option.map_eq_some_iff.1 h
      cases hpair
      simp [ih hbr]

theorem length_of_cutAt? {mark s before rest : List Char}
    (h : cutAt? mark s = some (before, rest)) :
    s.length = before.length + mark.length + rest.length := by
  have := congrArg List.length (cutAt?_append h)
  simp only [List.length_append] at this
  exact this

theorem length_of_cutAtChar? {mark : Char} {s before rest : List Char}
    (h : cutAtChar? mark s = some (before, rest)) :
    s.length = before.length + rest.length + 1 := by
  have := congrArg List.length (cutAtChar?_append h)
  simp only [List.length_append, List.length_cons] at this
  omega

end Assessment.Text
