import Assessment.Proofs.Scoring.Wrappers
import Assessment.Proofs.Text.Inline

/-!
# Proofs: code is trimmed beside blanks

Inside a preformatted block, code is trimmed on a side exactly if its nearest sibling there is a blank
(`BlankBeside`). What is rendered of the nodes before is handed on as one bit, whether the last of them
that counts was a blank (`blankBehind`), and of the nodes after as another, so the block is what comes
before the code, the trimmed code and what comes after it (`renderPre_code`).
-/

namespace Assessment.Scoring

open Assessment.Item Assessment.Text Assessment.Xml

/-! ## The nearest sibling -/

/-- The siblings of a node on a side of it, from the nearest one on. -/
def siblings (before after : List Node) : Edge → List Node
  | .start => before.reverse
  | .finish => after

/-- The nearest sibling of a node on a side is a blank. White space and comments do not count. -/
def BlankBeside (before after : List Node) (side : Edge) : Prop :=
  ∃ layout blank rest, siblings before after side = layout ++ blank :: rest ∧
    (∀ node ∈ layout, isPreContent node = false) ∧ blank.isElement blankName

theorem isPreContent_of_isElement {name : List Char} {node : Node} (h : node.isElement name) :
    isPreContent node := by
  cases node with
  | text s => cases h
  | comment s => cases h
  | element tag attributes children => rfl

theorem startsWithBlank_siblings_iff {before after : List Node} {side : Edge} :
    startsWithBlank (siblings before after side) ↔ BlankBeside before after side := by
  unfold startsWithBlank BlankBeside
  constructor
  · split
    · next node hfind =>
      intro hblank
      obtain ⟨-, layout, rest, hsplit, hlayout⟩ := List.find?_eq_some_iff_append.1 hfind
      exact ⟨layout, node, rest, hsplit, by simpa using hlayout, hblank⟩
    · intro hnone
      cases hnone
  · rintro ⟨layout, blank, rest, hsplit, hlayout, hblank⟩
    have hfind : (siblings before after side).find? isPreContent = some blank :=
      List.find?_eq_some_iff_append.2
        ⟨isPreContent_of_isElement hblank, layout, rest, hsplit, by simpa using hlayout⟩
    rw [hfind]
    exact hblank

instance (before after : List Node) (side : Edge) : Decidable (BlankBeside before after side) :=
  decidable_of_iff _ startsWithBlank_siblings_iff

/-! ## What is handed on -/

/-- The last of some nodes that counts is a blank. If none of them counts, it is as it was before. -/
def blankBehind (afterBlank : Bool) : List Node → Bool
  | [] => afterBlank
  | node :: nodes =>
    blankBehind (if isPreContent node then node.isElement blankName else afterBlank) nodes

theorem startsWithBlank_cons (node : Node) (nodes : List Node) :
    startsWithBlank (node :: nodes) =
      if isPreContent node then node.isElement blankName else startsWithBlank nodes := by
  unfold startsWithBlank
  rw [List.find?_cons]
  cases isPreContent node <;> rfl

theorem blankBehind_concat (afterBlank : Bool) (nodes : List Node) (node : Node) :
    blankBehind afterBlank (nodes ++ [node]) =
      if isPreContent node then node.isElement blankName else blankBehind afterBlank nodes := by
  induction nodes generalizing afterBlank with
  | nil => rfl
  | cons first nodes ih => exact ih _

/-- Handed on from the start is whether the nodes, read backward, start with a blank. -/
theorem blankBehind_false (nodes : List Node) :
    blankBehind false nodes = startsWithBlank nodes.reverse := by
  induction nodes using List.reverseRecOn with
  | nil => rfl
  | append_singleton nodes node ih =>
    rw [blankBehind_concat, List.reverse_concat, startsWithBlank_cons, ih]

theorem startsWithBlank_append {after : List Node} (h : startsWithBlank after = false)
    (nodes : List Node) : startsWithBlank (nodes ++ after) = startsWithBlank nodes := by
  induction nodes with
  | nil => exact h
  | cons node nodes ih => rw [List.cons_append, startsWithBlank_cons, startsWithBlank_cons, ih]

/-- In a preformatted block, nodes are shown as they are by themselves if no blank follows them, and what
follows them learns whether a blank came before. -/
theorem renderPre_append (options : Options) {after : List Node} (h : startsWithBlank after = false)
    (afterBlank : Bool) (blanks : Nat) (before : List Node) :
    renderPre options afterBlank blanks (before ++ after) =
      (renderPre options afterBlank blanks before).followedBy fun count =>
        renderPre options (blankBehind afterBlank before) count after := by
  induction before generalizing afterBlank blanks with
  | nil => rfl
  | cons node before ih =>
    cases node with
    | comment s => exact ih afterBlank blanks
    | text s =>
      have hcounts : isPreContent (.text s) = !isBlankText s := rfl
      rw [List.cons_append, renderPre, renderPre, blankBehind, hcounts]
      by_cases hs : isBlankText s
      · rw [if_pos hs, if_pos hs, hs]
        exact ih afterBlank blanks
      · rw [if_neg hs, if_neg hs, eq_false_of_ne_true hs]
        simp only [ih, Shown.followedBy, List.append_assoc]
        rfl
    | element tag attributes children =>
      have hhere : blankBehind afterBlank (.element tag attributes children :: before) =
          blankBehind (localName tag == blankName) before := rfl
      rw [List.cons_append, renderPre, renderPre, hhere]
      by_cases hcode : localName tag == codeName
      · have hother : (localName tag == blankName) = false := by
          rw [eq_of_beq hcode]
          decide
        rw [if_pos hcode, if_pos hcode, hother, startsWithBlank_append h]
        simp only [ih, Shown.followedBy, List.append_assoc]
      · rw [if_neg hcode, if_neg hcode]
        simp only [ih, Shown.followedBy, List.append_assoc]

/-! ## Code between its siblings -/

/-- The inside of code with the given siblings, trimmed on the sides on which a blank is nearest. -/
def trimmedBetween (before after : List Node) (html : List Char) : List Char :=
  let started := if BlankBeside before after .start then Edge.start.trimInline html else html
  if BlankBeside before after .finish then Edge.finish.trimInline started else started

theorem trimBesideBlanks_eq (before after : List Node) (html : List Char) :
    trimBesideBlanks (blankBehind false before) (startsWithBlank after) html =
      trimmedBetween before after html := by
  have hstart : blankBehind false before ↔ BlankBeside before after .start := by
    rw [blankBehind_false]
    exact @startsWithBlank_siblings_iff before after .start
  have hfinish : startsWithBlank after ↔ BlankBeside before after .finish :=
    @startsWithBlank_siblings_iff before after .finish
  rw [trimBesideBlanks, trimmedBetween, if_congr hstart rfl rfl, if_congr hfinish rfl rfl]
  rfl

/-- Code with the given siblings in a preformatted block. -/
def codeBetween (options : Options) (before after children : List Node) (blanks : Nat) : Shown :=
  let inside := renderNodes options Spacing.pre.keeping blanks children
  ⟨Layout.codeHtml (trimmedBetween before after inside.html), inside.blanks⟩

/-- The inside of a preformatted block is what stands before a piece of code in it, the code, trimmed
beside blanks, and what stands after it. -/
theorem renderPre_code (options : Options) (blanks : Nat) {tag : List Char}
    (hcode : localName tag = codeName) (attributes : Attributes)
    (before children after : List Node) :
    renderPre options false blanks (before ++ .element tag attributes children :: after) =
      (renderPre options false blanks before).followedBy fun count =>
        (codeBetween options before after children count).followedBy fun count =>
          renderPre options false count after := by
  have hnoBlank : startsWithBlank (.element tag attributes children :: after) = false := by
    rw [startsWithBlank_cons, Node.isElement, hcode]
    rfl
  rw [renderPre_append options hnoBlank]
  congr 1
  funext count
  rw [renderPre, if_pos (beq_iff_eq.2 hcode)]
  simp only [trimBesideBlanks_eq]
  rfl

/-- Trimming an edge of a text takes away the longest run of white space there if no line ends in it, and
nothing otherwise. It does so once and for all, and the edges can be trimmed in either order. Code in a
preformatted block is trimmed on the sides on which its nearest sibling is a blank, white space apart,
and on no other side, whatever the nodes before and after it are. -/
theorem code_is_trimmed_beside_blanks (options : Options) (spacing : Spacing) (blanks : Nat)
    {blockTag tag : List Char} (hblock : localName blockTag = preName) (hcode : localName tag = codeName)
    (blockAttributes attributes : Attributes) (before children after : List Node) :
    (∀ (edge : Edge) (s : List Char),
        (∃ run rest, edge.IsRun s run rest ∧
          edge.trimInline s = if '\n' ∈ run ∨ '\r' ∈ run then s else rest) ∧
        edge.trimInline (edge.trimInline s) = edge.trimInline s) ∧
      (∀ s : List Char, Edge.start.trimInline (Edge.finish.trimInline s) =
        Edge.finish.trimInline (Edge.start.trimInline s)) ∧
      renderNode options spacing blanks (.element blockTag blockAttributes
          (before ++ .element tag attributes children :: after)) =
        ((renderPre options false blanks before).followedBy fun count =>
          (codeBetween options before after children count).followedBy fun count =>
            renderPre options false count after).within
          (preStart options (before ++ .element tag attributes children :: after)) "pre".toList := by
  refine ⟨fun edge s => ⟨?_, edge.trimInline_trimInline s⟩, trimInline_comm, ?_⟩
  · obtain ⟨run, rest, hrun⟩ := edge.exists_isRun s
    exact ⟨run, rest, hrun, Edge.trimInline_of_isRun hrun⟩
  · have hrule : Rule.ofName (localName blockTag) = .pre := by
      rw [hblock]
      decide
    rw [renderNode, hrule]
    simp only [renderPre_code options blanks hcode]

/-- A blank, and the white space and the comment after it that do not count. -/
def blankAndLayout : List Node :=
  [.text "x".toList, .element blankName [] [], .text " \n".toList, .comment "c".toList]

theorem code_is_trimmed_beside_blankAndLayout :
    localName "{u}qti-pre".toList = preName ∧ localName "{u}qti-code".toList = codeName ∧
      trimmedBetween blankAndLayout [.text " ".toList] " \t= ".toList = "= ".toList ∧
      (∀ (edge : Edge) (s : List Char),
        (∃ run rest, edge.IsRun s run rest ∧
          edge.trimInline s = if '\n' ∈ run ∨ '\r' ∈ run then s else rest) ∧
        edge.trimInline (edge.trimInline s) = edge.trimInline s) ∧
      (∀ s : List Char, Edge.start.trimInline (Edge.finish.trimInline s) =
        Edge.finish.trimInline (Edge.start.trimInline s)) ∧
      renderNode {} Spacing.root 0 (.element "{u}qti-pre".toList [] (blankAndLayout ++
          .element "{u}qti-code".toList [] [.text " \t= ".toList] :: [.text " ".toList])) =
        ((renderPre {} false 0 blankAndLayout).followedBy fun count =>
          (codeBetween {} blankAndLayout [.text " ".toList] [.text " \t= ".toList] count).followedBy
            fun count => renderPre {} false count [.text " ".toList]).within
          (preStart {} (blankAndLayout ++
            .element "{u}qti-code".toList [] [.text " \t= ".toList] :: [.text " ".toList]))
          "pre".toList :=
  ⟨by decide, by decide, by decide,
    code_is_trimmed_beside_blanks {} Spacing.root 0 (by decide) (by decide) [] [] blankAndLayout
      [.text " \t= ".toList] [.text " ".toList]⟩

end Assessment.Scoring
