import Assessment.Scoring.Item

/-!
# Sessions of the scoring view

Several things rendered one after the other, with one numbering of blanks through all of them.
-/

namespace Assessment.Scoring

open Assessment.Item Assessment.Xml

/-- One thing to do in a session. -/
inductive Step where
  /-- Render nodes. -/
  | nodes (spacing : Spacing) (nodes : List Node)
  /-- Take the next number for a blank. -/
  | next
  /-- Render the explanation of an item. -/
  | explanation (root : Element)

/-- What came of it. -/
inductive Outcome where
  /-- HTML. -/
  | html (s : List Char)
  /-- The number of a blank. -/
  | index (n : Nat)
  /-- The item has no explanation. -/
  | nothing

namespace Step

/-- Does one thing. `blanks` is the number of blanks so far, and the new number is returned. -/
def run (options : Options) (blanks : Nat) : Step → Outcome × Nat
  | nodes spacing ns =>
    let shown := renderNodes options spacing blanks ns
    (.html shown.html, shown.blanks)
  | next => (.index (blanks + 1), blanks + 1)
  | explanation root =>
    match renderExplanation options blanks root with
    | (some html, after) => (.html html, after)
    | (none, after) => (.nothing, after)

end Step

/-- Does several things. Each outcome comes with the number of blanks after it. -/
def run (options : Options) (blanks : Nat) : List Step → List (Outcome × Nat)
  | [] => []
  | step :: steps =>
    let first := step.run options blanks
    first :: run options first.2 steps

end Assessment.Scoring
