import Assessment.Proofs.Scoring.BlankPlaces
import Assessment.Proofs.Scoring.Trees
import Assessment.Scoring.Session

/-!
# Proofs: numbering blanks through a session

The numbers that are handed out while something is rendered, in the order in which that happens, are
followed along the counter of the renderer (`handedNodes`). They are the numbers in the holes of the
layout (`handedNodes_eq_numbersOf`), so they run on from the count without a gap, and how many there are
depends on the nodes alone. A session hands out `1, 2, 3, …` through all its steps.
-/

namespace Assessment.Scoring

open Assessment.Item Assessment.Markup Assessment.Text Assessment.Xml

/-! ## The numbers handed out -/

mutual

/-- The numbers handed out while a node is rendered, in that order. -/
def handedNode (options : Options) (spacing : Spacing) (blanks : Nat) : Node → List Nat
  | .text _ => []
  | .comment _ => []
  | .element tag _ children =>
    match Rule.ofName (localName tag) with
    | .wrap _ => handedNodes options spacing blanks children
    | .link => handedNodes options spacing blanks children
    | .code => handedNodes options spacing.keeping blanks children
    | .pre => handedPre options false blanks children
    | .orderedList => handedNodes options spacing blanks children
    | .image => []
    | .line => []
    | .blank => [blanks + 1]
    | .extendedText => []
    | .choices => handedChoices options blanks children
    | .hidden => []
    | .transparent => handedNodes options spacing blanks children

/-- The numbers handed out while nodes are rendered, one after the other. -/
def handedNodes (options : Options) (spacing : Spacing) (blanks : Nat) : List Node → List Nat
  | [] => []
  | node :: nodes =>
    handedNode options spacing blanks node ++
      handedNodes options spacing (renderNode options spacing blanks node).blanks nodes

/-- The numbers handed out while the children of a preformatted block are rendered. -/
def handedPre (options : Options) (afterBlank : Bool) (blanks : Nat) : List Node → List Nat
  | [] => []
  | .comment _ :: nodes => handedPre options afterBlank blanks nodes
  | .text s :: nodes =>
    if isBlankText s then handedPre options afterBlank blanks nodes
    else handedPre options false blanks nodes
  | .element tag attributes children :: nodes =>
    if localName tag == codeName then
      handedNodes options Spacing.pre.keeping blanks children ++
        handedPre options false (renderNodes options Spacing.pre.keeping blanks children).blanks nodes
    else
      handedNode options Spacing.pre blanks (.element tag attributes children) ++
        handedPre options (localName tag == blankName)
          (renderNode options Spacing.pre blanks (.element tag attributes children)).blanks nodes

/-- The numbers handed out while the choices at and below a node are rendered. -/
def handedChoicesOf (options : Options) (blanks : Nat) : Node → List Nat
  | .element tag _ children =>
    if localName tag == choiceName then
      handedNodes options Spacing.root blanks children ++
        handedChoices options (renderNodes options Spacing.root blanks children).blanks children
    else handedChoices options blanks children
  | _ => []

/-- The numbers handed out while the choices at and below some nodes are rendered. -/
def handedChoices (options : Options) (blanks : Nat) : List Node → List Nat
  | [] => []
  | node :: nodes =>
    handedChoicesOf options blanks node ++
      handedChoices options (renderChoicesOf options blanks node).blanks nodes

end

/-! ## They are the holes of the layout -/

open Layout

/-- The numbers in the holes of layouts that are numbered after a count. -/
def numbersOf {β : Type} (blanks : Nat) (layouts : List (Layout β)) : List Nat :=
  holesAll (numberAll blanks layouts).1

theorem numbersOf_append {β : Type} (options : Options) (blanks : Nat) (l m : List (Layout β)) :
    numbersOf blanks (l ++ m) =
      numbersOf blanks l ++ numbersOf (Layout.shown options blanks l).blanks m := by
  simp [numbersOf, Layout.shown]

theorem numbersOf_box {β : Type} (blanks : Nat) (around : Box) (inside : List (Layout β)) :
    numbersOf blanks [.box around inside] = numbersOf blanks inside := by
  simp [numbersOf, numberAll, number, holesAll, holes]

theorem numbersOf_code {β : Type} (blanks : Nat) (afterBlank beforeBlank : Bool)
    (inside : List (Layout β)) :
    numbersOf blanks [.code afterBlank beforeBlank inside] = numbersOf blanks inside := by
  simp [numbersOf, numberAll, number, holesAll, holes]

mutual

theorem handedNode_eq_numbersOf (options : Options) (spacing : Spacing) (blanks : Nat)
    (place : Place) : ∀ node : Node,
      handedNode options spacing blanks node = numbersOf blanks (layoutNode spacing place node)
  | .text s => by
    rw [handedNode, layoutNode]
    split <;> rfl
  | .comment _ => by
    rw [handedNode, layoutNode]
    rfl
  | .element tag attributes children => by
    have hnodes := handedNodes_eq_numbersOf options spacing blanks place 0 children
    rw [handedNode, layoutNode]
    cases Rule.ofName (localName tag) with
    | wrap name => rw [numbersOf_box, hnodes]
    | link => rw [numbersOf_box, hnodes]
    | code =>
      rw [numbersOf_code]
      exact handedNodes_eq_numbersOf options spacing.keeping blanks place 0 children
    | pre =>
      rw [numbersOf_box]
      exact handedPre_eq_numbersOf options false blanks place 0 children
    | orderedList => rw [numbersOf_box, hnodes]
    | image => rfl
    | line => rfl
    | blank => rfl
    | extendedText => rfl
    | choices =>
      rw [numbersOf_box]
      exact handedChoices_eq_numbersOf options blanks place 0 children
    | hidden => rfl
    | transparent => exact hnodes

/-- The numbers handed out while nodes are rendered are those in the holes of their layout. -/
theorem handedNodes_eq_numbersOf (options : Options) (spacing : Spacing) (blanks : Nat)
    (parent : Place) (i : Nat) : ∀ nodes : List Node,
      handedNodes options spacing blanks nodes =
        numbersOf blanks (layoutNodes spacing parent i nodes)
  | [] => by
    rw [handedNodes, layoutNodes]
    rfl
  | node :: nodes => by
    rw [handedNodes, layoutNodes, numbersOf_append options,
      handedNode_eq_numbersOf options spacing blanks (parent ++ [i]) node,
      handedNodes_eq_numbersOf options spacing _ parent (i + 1) nodes,
      renderNode_eq_shown options spacing blanks (parent ++ [i]) node]

theorem handedPre_eq_numbersOf (options : Options) (afterBlank : Bool) (blanks : Nat)
    (parent : Place) (i : Nat) : ∀ nodes : List Node,
      handedPre options afterBlank blanks nodes =
        numbersOf blanks (layoutPre afterBlank parent i nodes)
  | [] => by
    rw [handedPre, layoutPre]
    rfl
  | .comment _ :: nodes => by
    rw [handedPre, layoutPre]
    exact handedPre_eq_numbersOf options afterBlank blanks parent (i + 1) nodes
  | .text s :: nodes => by
    rw [handedPre, layoutPre]
    split
    · exact handedPre_eq_numbersOf options afterBlank blanks parent (i + 1) nodes
    · exact handedPre_eq_numbersOf options false blanks parent (i + 1) nodes
  | .element tag attributes children :: nodes => by
    rw [handedPre, layoutPre]
    split
    · rw [← List.singleton_append, numbersOf_append options, numbersOf_code, shown_code,
        ← renderNodes_eq_shown options Spacing.pre.keeping blanks (parent ++ [i]) 0 children,
        handedNodes_eq_numbersOf options Spacing.pre.keeping blanks (parent ++ [i]) 0 children,
        handedPre_eq_numbersOf options false _ parent (i + 1) nodes]
    · rw [numbersOf_append options,
        ← renderNode_eq_shown options Spacing.pre blanks (parent ++ [i])
          (.element tag attributes children),
        handedNode_eq_numbersOf options Spacing.pre blanks (parent ++ [i])
          (.element tag attributes children),
        handedPre_eq_numbersOf options _ _ parent (i + 1) nodes]

theorem handedChoicesOf_eq_numbersOf (options : Options) (blanks : Nat) (place : Place) :
    ∀ node : Node,
      handedChoicesOf options blanks node = numbersOf blanks (layoutChoicesOf place node)
  | .text _ => by
    rw [handedChoicesOf, layoutChoicesOf]
    · rfl
    all_goals simp
  | .comment _ => by
    rw [handedChoicesOf, layoutChoicesOf]
    · rfl
    all_goals simp
  | .element tag attributes children => by
    rw [handedChoicesOf, layoutChoicesOf]
    split
    · rw [← List.singleton_append, numbersOf_append options, numbersOf_box, shown_box,
        ← renderNodes_eq_shown options Spacing.root blanks place 0 children,
        handedNodes_eq_numbersOf options Spacing.root blanks place 0 children,
        handedChoices_eq_numbersOf options _ place 0 children]
      rfl
    · exact handedChoices_eq_numbersOf options blanks place 0 children

theorem handedChoices_eq_numbersOf (options : Options) (blanks : Nat) (parent : Place) (i : Nat) :
    ∀ nodes : List Node,
      handedChoices options blanks nodes = numbersOf blanks (layoutChoices parent i nodes)
  | [] => by
    rw [handedChoices, layoutChoices]
    rfl
  | node :: nodes => by
    rw [handedChoices, layoutChoices, numbersOf_append options,
      handedChoicesOf_eq_numbersOf options blanks (parent ++ [i]) node,
      handedChoices_eq_numbersOf options _ parent (i + 1) nodes,
      renderChoicesOf_eq_shown options blanks (parent ++ [i]) node]

end

/-! ## How many there are -/

/-- The number of blanks that are shown of some nodes. -/
def blanksIn (nodes : List Node) : Nat := (holesAll (layoutNodes Spacing.root [] 0 nodes)).length

/-- Rendering nodes hands out the numbers that follow the count, and as many as there are blanks. -/
theorem handedNodes_eq_range' (options : Options) (spacing : Spacing) (blanks : Nat)
    (nodes : List Node) :
    handedNodes options spacing blanks nodes = List.range' (blanks + 1) (blanksIn nodes) := by
  rw [handedNodes_eq_numbersOf options spacing blanks [] 0 nodes, numbersOf,
    (holesAll_number blanks _).1, holes_layoutNodes spacing Spacing.root [] 0 nodes, blanksIn]

/-- The count after nodes are rendered. -/
theorem blanks_renderNodes (options : Options) (spacing : Spacing) (blanks : Nat)
    (nodes : List Node) :
    (renderNodes options spacing blanks nodes).blanks = blanks + blanksIn nodes := by
  rw [renderNodes_eq_shown options spacing blanks [] 0 nodes, Layout.shown,
    (holesAll_number blanks _).2, holes_layoutNodes spacing Spacing.root [] 0 nodes, blanksIn]

/-- With the default options, the numbers in the HTML of nodes are those handed out for it. -/
theorem blankNumbers_renderNodes (spacing : Spacing) (blanks : Nat) (nodes : List Node) :
    blankNumbers
        (StartTag.quotedAttribute.findAll (renderNodes {} spacing blanks nodes).html) =
      (handedNodes {} spacing blanks nodes).map Number.decimal := by
  rw [handedNodes_eq_numbersOf {} spacing blanks [] 0 nodes,
    renderNodes_eq_shown {} spacing blanks [] 0 nodes]
  exact blankNumbers_writeAll (taggedAll_numberAll blanks (taggedAll_layoutNodes spacing [] 0 nodes))

/-! ## Sessions -/

namespace Step

/-- The numbers that one step hands out. -/
def handed (options : Options) (blanks : Nat) : Step → List Nat
  | nodes spacing ns => handedNodes options spacing blanks ns
  | next => [blanks + 1]
  | explanation root =>
    match explanationNodes root with
    | some ns => handedNodes options Spacing.root blanks ns
    | none => []

/-- How many numbers one step hands out. -/
def size : Step → Nat
  | nodes _ ns => blanksIn ns
  | next => 1
  | explanation root => ((explanationNodes root).map blanksIn).getD 0

/-- One step hands out the numbers that follow the count. -/
theorem handed_eq_range' (options : Options) (blanks : Nat) (step : Step) :
    step.handed options blanks = List.range' (blanks + 1) step.size := by
  cases step with
  | nodes spacing ns => exact handedNodes_eq_range' options spacing blanks ns
  | next => rfl
  | explanation root =>
    simp only [handed, size]
    cases explanationNodes root with
    | none => rfl
    | some ns => exact handedNodes_eq_range' options Spacing.root blanks ns

/-- The count after one step. -/
theorem run_snd (options : Options) (blanks : Nat) (step : Step) :
    (step.run options blanks).2 = blanks + step.size := by
  cases step with
  | nodes spacing ns => exact blanks_renderNodes options spacing blanks ns
  | next => rfl
  | explanation root =>
    simp only [run, renderExplanation, size]
    cases explanationNodes root with
    | none => rfl
    | some ns => exact blanks_renderNodes options Spacing.root blanks ns

end Step

/-- The numbers of blanks that an outcome holds, as they are written. -/
def Outcome.numbers : Outcome → List (List Char)
  | html s => blankNumbers (StartTag.quotedAttribute.findAll s)
  | index n => [Number.decimal n]
  | nothing => []

/-- With the default options, the outcome of one step holds the numbers that the step hands out. -/
theorem Step.numbers_run (blanks : Nat) (step : Step) :
    (step.run {} blanks).1.numbers = (step.handed {} blanks).map Number.decimal := by
  cases step with
  | nodes spacing ns => exact blankNumbers_renderNodes spacing blanks ns
  | next => rfl
  | explanation root =>
    simp only [run, renderExplanation, handed]
    cases explanationNodes root with
    | none => rfl
    | some ns => exact blankNumbers_renderNodes Spacing.root blanks ns

/-- The numbers that each step of a session hands out. -/
def handedSteps (options : Options) (blanks : Nat) : List Step → List (List Nat)
  | [] => []
  | step :: steps =>
    step.handed options blanks :: handedSteps options (step.run options blanks).2 steps

theorem length_handedSteps (options : Options) (blanks : Nat) (steps : List Step) :
    (handedSteps options blanks steps).map List.length = steps.map Step.size := by
  induction steps generalizing blanks with
  | nil => rfl
  | cons step steps ih =>
    rw [handedSteps, List.map_cons, List.map_cons, ih, Step.handed_eq_range', List.length_range']

/-- The numbers handed out by a session run on from the count. -/
theorem flatten_handedSteps (options : Options) (blanks : Nat) (steps : List Step) :
    (handedSteps options blanks steps).flatten =
      List.range' (blanks + 1) (handedSteps options blanks steps).flatten.length := by
  induction steps generalizing blanks with
  | nil => rfl
  | cons step steps ih =>
    have hnext : blanks + step.size + 1 = blanks + 1 + step.size := by omega
    rw [handedSteps, List.flatten_cons, List.length_append, Step.handed_eq_range', Step.run_snd, ih,
      List.length_range', List.length_range', hnext, List.range'_append_1]

/-- The count after each step is the number of numbers handed out by then. -/
theorem counts_run (options : Options) (blanks : Nat) (steps : List Step) :
    (run options blanks steps).map (·.2) =
      (List.range steps.length).map fun k =>
        blanks + ((handedSteps options blanks steps).take (k + 1)).flatten.length := by
  induction steps generalizing blanks with
  | nil => rfl
  | cons step steps ih =>
    have hsize : (step.handed options blanks).length = step.size := by
      rw [Step.handed_eq_range', List.length_range']
    rw [run, List.map_cons, ih, List.length_cons, List.range_succ_eq_map, List.map_cons,
      List.map_map, Step.run_snd]
    refine List.cons_eq_cons.2 ⟨?_, List.map_congr_left fun k _ => ?_⟩
    · simp [handedSteps, hsize]
    · simp only [Function.comp_apply, handedSteps, List.take_succ_cons, List.flatten_cons,
        List.length_append, hsize, Step.run_snd, Nat.succ_eq_add_one]
      omega

/-- With the default options, the outcomes hold the numbers that the steps hand out. -/
theorem numbers_run (blanks : Nat) (steps : List Step) :
    (run {} blanks steps).map (·.1.numbers) =
      (handedSteps {} blanks steps).map (·.map Number.decimal) := by
  induction steps generalizing blanks with
  | nil => rfl
  | cons step steps ih => rw [run, handedSteps, List.map_cons, List.map_cons, ih, Step.numbers_run]

theorem pairwise_handedSteps (options : Options) (blanks : Nat) (steps : List Step) :
    ∀ numbers ∈ handedSteps options blanks steps, numbers.Pairwise (· < ·) := by
  induction steps generalizing blanks with
  | nil =>
    intro numbers h
    cases h
  | cons step steps ih =>
    intro numbers h
    rcases List.mem_cons.1 h with rfl | h
    · rw [Step.handed_eq_range']
      exact List.pairwise_lt_range'
    · exact ih _ numbers h

/-- Whatever a session does, it hands out the numbers `1, 2, 3, …` in this order; the count after each
step is how many were handed out by then; how many a step hands out is read off its nodes; and with the
default options the numbers in the HTML of a step are those that the step hands out, in increasing
order. -/
theorem session_numbers_blanks (options : Options) (steps : List Step) :
    (handedSteps options 0 steps).flatten =
        List.range' 1 (handedSteps options 0 steps).flatten.length ∧
      (run options 0 steps).map (·.2) = (List.range steps.length).map (fun k =>
        ((handedSteps options 0 steps).take (k + 1)).flatten.length) ∧
      (handedSteps options 0 steps).map List.length = steps.map Step.size ∧
      (run {} 0 steps).map (·.1.numbers) =
        (handedSteps {} 0 steps).map (·.map Number.decimal) ∧
      ∀ numbers ∈ handedSteps {} 0 steps, numbers.Pairwise (· < ·) := by
  refine ⟨?_, ?_, length_handedSteps options 0 steps, numbers_run 0 steps,
    pairwise_handedSteps {} 0 steps⟩
  · exact flatten_handedSteps options 0 steps
  · simpa using counts_run options 0 steps

end Assessment.Scoring
