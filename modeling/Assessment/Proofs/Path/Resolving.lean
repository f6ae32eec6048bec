import Assessment.Path
import Assessment.Proofs.Text.Blank
import Assessment.Proofs.Text.Split

/-!
# Proofs: references inside a package

A walk inside a package (`walkInside`) has a stack of segments and stops at the first step that leaves
the package. Resolving walks on, keeps the steps up that it cannot take, and looks at the walked path
only at the end. The two agree because a step up that was kept stays at the bottom of the stack
(`walk_of_left`), where the walked path begins.
-/

namespace Assessment.Path

open Assessment.Text

/-! ## Walking -/

/-- Walks segments from a stack of segments, the last first. There is no stack once a step up finds
nothing to take away. -/
def walkInside (stack : List (List Char)) : List (List Char) → Option (List (List Char))
  | [] => some stack
  | segment :: segments =>
    if segment.isEmpty || segment == here then walkInside stack segments
    else if segment == up then
      match stack with
      | [] => none
      | _ :: below => walkInside below segments
    else walkInside (segment :: stack) segments

/-- The segment leads to a file or directory of its own: it is not empty, and no step that leads nowhere
or up. -/
def IsStep (segment : List Char) : Prop := segment ≠ [] ∧ segment ≠ here ∧ segment ≠ up

/-- A segment is skipped, leads up, or is a step. -/
theorem segment_cases (segment : List Char) :
    (segment.isEmpty || segment == here) = true ∨
      (segment.isEmpty || segment == here) = false ∧ segment = up ∨
      (segment.isEmpty || segment == here) = false ∧ (segment == up) = false ∧ IsStep segment := by
  by_cases hskip : (segment.isEmpty || segment == here) = true
  · exact .inl hskip
  · have hkeep := eq_false_of_ne_true hskip
    by_cases hup : segment = up
    · exact .inr (.inl ⟨hkeep, hup⟩)
    · rw [Bool.or_eq_false_iff] at hkeep
      have hstep : IsStep segment :=
        ⟨fun hnil => by simp [hnil] at hkeep, fun hhere => by simp [hhere] at hkeep, hup⟩
      exact .inr (.inr ⟨eq_false_of_ne_true hskip, beq_false_of_ne hup, hstep⟩)

section Walking

variable {rooted : Bool} {stack below : List (List Char)} {top segment : List Char}
  {segments : List (List Char)}

theorem walkInside_skip (h : (segment.isEmpty || segment == here) = true) :
    walkInside stack (segment :: segments) = walkInside stack segments := if_pos h

theorem walkInside_up_cons : walkInside (top :: below) (up :: segments) = walkInside below segments :=
  rfl

theorem walkInside_step (hkeep : (segment.isEmpty || segment == here) = false)
    (hup : (segment == up) = false) :
    walkInside stack (segment :: segments) = walkInside (segment :: stack) segments :=
  (if_neg (ne_true_of_eq_false hkeep)).trans (if_neg (ne_true_of_eq_false hup))

theorem walk_skip (h : (segment.isEmpty || segment == here) = true) :
    walk rooted stack (segment :: segments) = walk rooted stack segments := if_pos h

theorem walk_up_nil :
    walk rooted [] (up :: segments) = walk rooted (if rooted then [] else [up]) segments := rfl

theorem walk_up_cons :
    walk rooted (top :: below) (up :: segments) =
      walk rooted (if top == up then up :: top :: below else below) segments := rfl

theorem walk_step (hkeep : (segment.isEmpty || segment == here) = false)
    (hup : (segment == up) = false) :
    walk rooted stack (segment :: segments) = walk rooted (segment :: stack) segments :=
  (if_neg (ne_true_of_eq_false hkeep)).trans (if_neg (ne_true_of_eq_false hup))

end Walking

/-- A walk that leaves the package does so whatever follows. -/
theorem walkInside_append (stack front back : List (List Char)) :
    walkInside stack (front ++ back) = (walkInside stack front).bind (walkInside · back) := by
  induction front generalizing stack with
  | nil => rfl
  | cons segment front ih =>
    rw [List.cons_append]
    rcases segment_cases segment with hskip | ⟨-, rfl⟩ | ⟨hkeep, hup, -⟩
    · rw [walkInside_skip hskip, walkInside_skip hskip, ih]
    · cases stack with
      | nil => rfl
      | cons top below => rw [walkInside_up_cons, walkInside_up_cons, ih]
    · rw [walkInside_step hkeep hup, walkInside_step hkeep hup, ih]

/-- A step up that was kept is never taken away. -/
theorem walk_of_kept (segments above : List (List Char)) :
    ∃ more, walk false (above ++ [up]) segments = more ++ [up] := by
  induction segments generalizing above with
  | nil => exact ⟨above, rfl⟩
  | cons segment segments ih =>
    rcases segment_cases segment with hskip | ⟨-, rfl⟩ | ⟨hkeep, hup, -⟩
    · rw [walk_skip hskip]
      exact ih above
    · cases above with
      | nil => exact ih [up]
      | cons top above =>
        rw [List.cons_append, walk_up_cons]
        split
        · exact ih (up :: top :: above)
        · exact ih above
    · rw [walk_step hkeep hup]
      exact ih (segment :: above)

/-- The path that a walk ends in, beside the end of the walk inside the package: the same steps, or a path
with a step up at the bottom. -/
def EndsBeside : Option (List (List Char)) → List (List Char) → Prop
  | some inside, walked => walked = inside ∧ ∀ segment ∈ inside, IsStep segment
  | none, walked => ∃ above, walked = above ++ [up]

theorem endsBeside_walk {stack : List (List Char)} (hstack : ∀ segment ∈ stack, IsStep segment)
    (segments : List (List Char)) :
    EndsBeside (walkInside stack segments) (walk false stack segments) := by
  induction segments generalizing stack with
  | nil => exact ⟨rfl, hstack⟩
  | cons segment segments ih =>
    rcases segment_cases segment with hskip | ⟨-, rfl⟩ | ⟨hkeep, hup, hstep⟩
    · rw [walkInside_skip hskip, walk_skip hskip]
      exact ih hstack
    · cases stack with
      | nil => exact walk_of_kept segments []
      | cons top below =>
        obtain ⟨htop, hbelow⟩ := List.forall_mem_cons.1 hstack
        have hne : ¬ (top == up) = true := fun heq => htop.2.2 (eq_of_beq heq)
        rw [walkInside_up_cons, walk_up_cons, if_neg hne]
        exact ih hbelow
    · rw [walkInside_step hkeep hup, walk_step hkeep hup]
      exact ih (List.forall_mem_cons.2 ⟨hstep, hstack⟩)

/-- A walk that stays inside the package is made of steps alone, and is what the other walk gives. -/
theorem walk_of_inside {segments walked : List (List Char)} (h : walkInside [] segments = some walked) :
    walk false [] segments = walked ∧ ∀ segment ∈ walked, IsStep segment := by
  have hends := endsBeside_walk (fun _ hmem => absurd hmem List.not_mem_nil) segments
  rwa [h] at hends

/-- A walk that leaves the package has a step up at the bottom in the end. -/
theorem walk_of_left {segments : List (List Char)} (h : walkInside [] segments = none) :
    ∃ above, walk false [] segments = above ++ [up] := by
  have hends := endsBeside_walk (fun _ hmem => absurd hmem List.not_mem_nil) segments
  rwa [h] at hends

/-- A walk goes through segments that it had on its stack, that it was given, or that lead up. -/
theorem mem_walk {rooted : Bool} {stack segments : List (List Char)} {segment : List Char}
    (h : segment ∈ walk rooted stack segments) :
    segment ∈ stack ∨ segment ∈ segments ∨ segment = up := by
  induction segments generalizing stack with
  | nil => exact .inl h
  | cons next segments ih =>
    have hlater {stack' : List (List Char)} (h : segment ∈ walk rooted stack' segments) :
        segment ∈ stack' ∨ segment ∈ next :: segments ∨ segment = up :=
      (ih h).imp_right (Or.imp_left (List.mem_cons_of_mem next))
    rcases segment_cases next with hskip | ⟨-, rfl⟩ | ⟨hkeep, hup, -⟩
    · rw [walk_skip hskip] at h
      exact hlater h
    · cases stack with
      | nil =>
        rw [walk_up_nil] at h
        rcases hlater h with hstack | hlater
        · split at hstack
          · cases hstack
          · exact .inr (.inr (List.mem_singleton.1 hstack))
        · exact .inr hlater
      | cons top below =>
        rw [walk_up_cons] at h
        rcases hlater h with hstack | hlater
        · split at hstack
          · exact (List.mem_cons.1 hstack).symm.imp_right fun heq => .inr heq
          · exact .inl (List.mem_cons_of_mem top hstack)
        · exact .inr hlater
    · rw [walk_step hkeep hup] at h
      rcases hlater h with hstack | hlater
      · exact (List.mem_cons.1 hstack).symm.imp_right fun heq => .inl (List.mem_cons.2 (.inl heq))
      · exact .inr hlater

/-! ## Segments -/

/-- The segments of a path that are not empty. -/
def segmentsOf (path : List Char) : List (List Char) := (splitOn '/' path).filter (!·.isEmpty)

theorem segmentsOf_append_cons (path more : List Char) :
    segmentsOf (path ++ '/' :: more) = segmentsOf path ++ segmentsOf more := by
  rw [segmentsOf, splitOn_append_cons, List.filter_append, segmentsOf, segmentsOf]

theorem segmentsOf_append_slash (path : List Char) : segmentsOf (path ++ ['/']) = segmentsOf path := by
  rw [segmentsOf_append_cons]
  exact List.append_nil _

/-- Empty segments do not count in a walk. -/
theorem walk_filter (rooted : Bool) (stack segments : List (List Char)) :
    walk rooted stack (segments.filter (!·.isEmpty)) = walk rooted stack segments := by
  induction segments generalizing stack with
  | nil => rfl
  | cons segment segments ih =>
    cases segment with
    | nil => exact ih stack
    | cons c segment =>
      rw [List.filter_cons_of_pos rfl]
      rcases segment_cases (c :: segment) with hskip | ⟨-, hup⟩ | ⟨hkeep, hup, -⟩
      · rw [walk_skip hskip, walk_skip hskip, ih]
      · rw [hup]
        cases stack with
        | nil => rw [walk_up_nil, walk_up_nil, ih]
        | cons top below => rw [walk_up_cons, walk_up_cons, ih]
      · rw [walk_step hkeep hup, walk_step hkeep hup, ih]

/-- The slashes that a path ends with do not count. -/
theorem segmentsOf_withoutSlashes (path : List Char) :
    segmentsOf (withoutSlashes path) = segmentsOf path := by
  obtain ⟨reversed, rfl⟩ : ∃ reversed, path = reversed.reverse := ⟨path.reverse, by simp⟩
  induction reversed with
  | nil => rfl
  | cons c reversed ih =>
    rw [withoutSlashes, List.reverse_reverse] at ih ⊢
    by_cases hc : c = '/'
    · rw [hc, List.dropWhile_cons_of_pos (by decide), ih, List.reverse_cons, segmentsOf_append_slash]
    · rw [List.dropWhile_cons_of_neg (by simpa using hc)]

/-- The directory of a file has the segments of the file but the last. -/
theorem segmentsOf_directory (path : List Char) :
    segmentsOf (directory path) = ((splitOn '/' path).dropLast).filter (!·.isEmpty) := by
  obtain ⟨start, last, hpath, hstart, hlast, hshape⟩ := exists_last_part '/' path
  have hdirectory : segmentsOf (directory path) = segmentsOf start := by
    rw [directory, hstart]
    split
    · rfl
    · exact segmentsOf_withoutSlashes start
  rw [hdirectory, hpath]
  rcases hshape with rfl | ⟨before, rfl⟩
  · rw [List.nil_append, splitOn_of_not_mem hlast]
    rfl
  · rw [segmentsOf_append_slash, List.append_assoc, List.singleton_append, splitOn_append_cons,
      splitOn_of_not_mem hlast, List.dropLast_concat, segmentsOf]

theorem segmentsOf_join {directory path : List Char} (hpath : path.head? ≠ some '/') :
    segmentsOf (join directory path) = segmentsOf directory ++ segmentsOf path := by
  have hhead : ¬ (path.head? == some '/') = true := fun heq => hpath (eq_of_beq heq)
  rw [join, if_neg hhead]
  split
  · next hdirectory =>
    simp only [Bool.or_eq_true, List.isEmpty_iff, beq_iff_eq] at hdirectory
    rcases hdirectory with rfl | hlast
    · rfl
    · obtain ⟨before, rfl⟩ := List.getLast?_eq_some_iff.1 hlast
      rw [List.append_assoc, List.singleton_append, segmentsOf_append_cons, segmentsOf_append_slash]
  · exact segmentsOf_append_cons directory path

/-! ## Where a path begins -/

theorem prefix_directory (path : List Char) : directory path <+: path := by
  obtain ⟨start, last, hpath, hstart, -, -⟩ := exists_last_part '/' path
  have hshorter : withoutSlashes start <+: start := by
    rw [← List.reverse_suffix, withoutSlashes, List.reverse_reverse]
    exact List.dropWhile_suffix _
  have hwhole : start <+: path := hpath ▸ List.prefix_append start last
  rw [directory, hstart]
  split
  · exact hwhole
  · exact hshorter.trans hwhole

/-- A path that starts inside a directory that is not rooted is not rooted. -/
theorem head?_join_ne {file path : List Char} (hfile : file.head? ≠ some '/')
    (hpath : path.head? ≠ some '/') : (join (directory file) path).head? ≠ some '/' := by
  have hhead : ¬ (path.head? == some '/') = true := fun heq => hpath (eq_of_beq heq)
  obtain ⟨last, hlast⟩ := prefix_directory file
  rw [join, if_neg hhead]
  cases hdirectory : directory file with
  | nil => exact hpath
  | cons c rest =>
    have hc : c ≠ '/' := by
      rintro rfl
      rw [hdirectory] at hlast
      exact hfile (hlast ▸ rfl)
    split
    · simpa using hc
    · simpa using hc

theorem root_eq_nil {path : List Char} (h : path.head? ≠ some '/') : root path = [] := by
  cases path with
  | nil => rfl
  | cons c path =>
    have hc : c ≠ '/' := fun heq => h (congrArg some heq)
    unfold root
    split
    · next heq => exact absurd (List.cons.inj heq).1 hc
    · next heq => exact absurd (List.cons.inj heq).1 hc
    · next heq => exact absurd (List.cons.inj heq).1 hc
    · rfl

/-- The path of some segments. Without segments it means the same directory. -/
def pathOf (segments : List (List Char)) : List Char :=
  let path := joinWith ['/'] segments
  if path.isEmpty then here else path

theorem pathOf_of_ne_nil {segments : List (List Char)} (h : joinWith ['/'] segments ≠ []) :
    pathOf segments = joinWith ['/'] segments :=
  if_neg (mt List.isEmpty_iff.1 h)

/-- A path without NUL that is not rooted is walked segment by segment. -/
theorem normalize_of_unrooted {path : List Char} (hroot : path.head? ≠ some '/')
    (hnul : '\x00' ∉ path) :
    normalize path = pathOf (walk false [] (segmentsOf path)).reverse := by
  have hwalk : walk false [] (splitOn '/' path) = walk false [] (segmentsOf path) :=
    (walk_filter false [] _).symm
  have hclean : '\x00' ∉ joinWith ['/'] (walk false [] (segmentsOf path)).reverse := by
    have hall : ∀ c ∈ joinWith ['/'] (walk false [] (segmentsOf path)).reverse, c ≠ '\x00' := by
      refine forall_mem_joinWith (by decide) fun segment hsegment c hc => ?_
      rcases mem_walk (List.mem_reverse.1 hsegment) with hstack | hgiven | rfl
      · cases hstack
      · exact ne_of_mem_of_not_mem (mem_of_mem_splitOn (List.mem_filter.1 hgiven).1 hc).1 hnul
      · rintro rfl
        exact absurd hc (by decide)
    exact fun hmem => hall _ hmem rfl
  have hhead : (path.head? == some '\x00') = false := by
    refine beq_false_of_ne fun heq => hnul ?_
    exact List.mem_of_head? heq
  rw [normalize, root_eq_nil hroot]
  simp only [List.isEmpty_nil, Bool.not_true, List.nil_append, hwalk, beforeChar_of_not_mem hclean,
    hhead, Bool.or_false, pathOf]

/-! ## Inside and outside -/

/-- A path that begins with a step up leads out of the package. -/
theorem isOutside_up (segments : List (List Char)) : isOutside (pathOf (up :: segments)) = true := by
  cases segments with
  | nil => rfl
  | cons segment segments => rfl

/-- A path made of steps stays in the package, and its segments are these steps. -/
theorem isOutside_steps {segments : List (List Char)} (hsome : segments ≠ [])
    (hsteps : ∀ segment ∈ segments, IsStep segment) (hslash : ∀ segment ∈ segments, '/' ∉ segment) :
    pathOf segments = joinWith ['/'] segments ∧ isOutside (joinWith ['/'] segments) = false := by
  have hsplit := splitOn_joinWith hsome hslash
  have hnot {path : List Char} {segment : List Char} (hpath : joinWith ['/'] segments = path)
      (hsegment : segment ∈ splitOn '/' path) : IsStep segment := by
    rw [← hpath, hsplit] at hsegment
    exact hsteps segment hsegment
  refine ⟨pathOf_of_ne_nil fun hnil => ?_, ?_⟩
  · exact (hnot hnil (List.mem_singleton.2 rfl : [] ∈ splitOn '/' [])).1 rfl
  · rw [isOutside, Bool.or_eq_false_iff, Bool.or_eq_false_iff]
    refine ⟨⟨beq_false_of_ne fun heq => ?_, ?_⟩, beq_false_of_ne fun heq => ?_⟩
    · exact (hnot heq (List.mem_singleton.2 rfl : up ∈ splitOn '/' up)).2.2 rfl
    · cases hstart : after? (up ++ ['/']) (joinWith ['/'] segments) with
      | none => rw [startsWith, hstart]; rfl
      | some rest =>
        have hpath := after?_eq_some_iff.1 hstart
        rw [List.append_assoc, List.singleton_append] at hpath
        have hfirst : up ∈ splitOn '/' (up ++ '/' :: rest) := by
          rw [splitOn_append_cons]
          exact List.mem_append_left _ (List.mem_singleton.2 rfl)
        exact absurd rfl (hnot hpath hfirst).2.2
    · exact (hnot heq (List.mem_singleton.2 rfl : here ∈ splitOn '/' here)).2.1 rfl

/-! ## Resolving -/

/-- The segments that a reference in a file is resolved by: those of the file but the last, and then its
own. -/
def walkedSegments (file src : List Char) : List (List Char) :=
  (splitOn '/' (withSlashes file)).dropLast ++ splitOn '/' (reference src)

/-- The path to where a walk inside the package ends, unless it leaves the package or ends where it
began. -/
def pathInside (segments : List (List Char)) : Option (List Char) :=
  match walkInside [] segments with
  | none | some [] => none
  | some stack => some (joinWith ['/'] stack.reverse)

theorem slash_not_mem_walkedSegments {file src segment : List Char}
    (h : segment ∈ walkedSegments file src) : '/' ∉ segment := by
  intro hmem
  rcases List.mem_append.1 h with hfile | hsrc
  · exact (mem_of_mem_splitOn ((List.dropLast_sublist _).subset hfile) hmem).2 rfl
  · exact (mem_of_mem_splitOn hsrc hmem).2 rfl

/-- A walk inside the package ends in a path made of the steps that are left of it. -/
theorem path_of_inside {segments : List (List Char)} (hslash : ∀ segment ∈ segments, '/' ∉ segment)
    {top : List Char} {below : List (List Char)} (h : walkInside [] segments = some (top :: below)) :
    pathOf (walk false [] segments).reverse = joinWith ['/'] (top :: below).reverse ∧
      isOutside (joinWith ['/'] (top :: below).reverse) = false ∧
      ∀ segment ∈ splitOn '/' (joinWith ['/'] (top :: below).reverse), IsStep segment := by
  obtain ⟨hwalk, hsteps⟩ := walk_of_inside h
  have hreversed : ∀ segment ∈ (top :: below).reverse, IsStep segment := fun segment hsegment =>
    hsteps segment (List.mem_reverse.1 hsegment)
  have hclean : ∀ segment ∈ (top :: below).reverse, '/' ∉ segment := by
    intro segment hsegment
    rw [← hwalk, List.mem_reverse] at hsegment
    rcases mem_walk hsegment with hstack | hgiven | rfl
    · cases hstack
    · exact hslash segment hgiven
    · decide
  have hsome : (top :: below).reverse ≠ [] := by simp
  obtain ⟨hpath, hinside⟩ := isOutside_steps hsome hreversed hclean
  rw [hwalk, splitOn_joinWith hsome hclean]
  exact ⟨hpath, hinside, hreversed⟩

theorem nul_not_mem_withSlashes {s : List Char} (h : '\x00' ∉ s) : '\x00' ∉ withSlashes s := by
  have hall : ∀ c ∈ withSlashes s, c ≠ '\x00' :=
    forall_mem_replaceChar (by decide) fun c hc _ => ne_of_mem_of_not_mem hc h
  exact fun hmem => hall _ hmem rfl

theorem nul_not_mem_reference {src : List Char} (h : '\x00' ∉ src) : '\x00' ∉ reference src := by
  intro hmem
  have htrimmed : '\x00' ∉ withSlashes (trim src) :=
    nul_not_mem_withSlashes fun hmem => h (trim_subset src hmem)
  exact htrimmed ((List.takeWhile_sublist _).subset ((List.takeWhile_sublist _).subset hmem))

theorem nul_not_mem_join {directory path : List Char} (hdirectory : '\x00' ∉ directory)
    (hpath : '\x00' ∉ path) : '\x00' ∉ join directory path := by
  unfold join
  split
  · exact hpath
  · split
    · simp [hdirectory, hpath]
    · simp [hdirectory, hpath]

section Resolving

variable {file src : List Char} (hfile : '\x00' ∉ file) (hsrc : '\x00' ∉ src)
  (hfileRoot : (withSlashes file).head? ≠ some '/') (hsrcRoot : (reference src).head? ≠ some '/')

include hfile hsrc hfileRoot hsrcRoot

/-- The path that a reference leads to before it is looked at whether it is in the package. -/
theorem normalize_reference :
    normalize (join (directory (withSlashes file)) (reference src)) =
      pathOf (walk false [] (walkedSegments file src)).reverse := by
  have hnul : '\x00' ∉ join (directory (withSlashes file)) (reference src) :=
    nul_not_mem_join
      (fun hmem => nul_not_mem_withSlashes hfile ((prefix_directory _).subset hmem))
      (nul_not_mem_reference hsrc)
  have hsegments : segmentsOf (join (directory (withSlashes file)) (reference src)) =
      (walkedSegments file src).filter (!·.isEmpty) := by
    rw [segmentsOf_join hsrcRoot, segmentsOf_directory, walkedSegments, List.filter_append, segmentsOf]
  rw [normalize_of_unrooted (head?_join_ne hfileRoot hsrcRoot) hnul, hsegments, walk_filter]

/-- A reference that is not empty leads to where the walk inside the package ends. -/
theorem resolve_of_ne_nil (hsome : reference src ≠ []) :
    resolve file src = pathInside (walkedSegments file src) := by
  have hempty : ¬ (reference src).isEmpty = true := by simpa using hsome
  rw [resolve]
  dsimp only
  rw [if_neg hempty, normalize_reference hfile hsrc hfileRoot hsrcRoot, pathInside]
  cases hinside : walkInside [] (walkedSegments file src) with
  | none =>
    obtain ⟨above, hwalk⟩ := walk_of_left hinside
    rw [hwalk, List.reverse_concat, isOutside_up, if_pos rfl]
  | some stack =>
    cases stack with
    | nil =>
      rw [(walk_of_inside hinside).1]
      rfl
    | cons top below =>
      obtain ⟨hpath, hin, -⟩ :=
        path_of_inside (fun _ => slash_not_mem_walkedSegments) hinside
      rw [hpath, hin, if_neg Bool.false_ne_true]

end Resolving

/-- The segments of a path inside the package are steps. -/
theorem isStep_of_pathInside {file src path : List Char}
    (h : pathInside (walkedSegments file src) = some path) :
    ∀ segment ∈ splitOn '/' path, IsStep segment := by
  rw [pathInside] at h
  cases hinside : walkInside [] (walkedSegments file src) with
  | none =>
    rw [hinside] at h
    cases h
  | some stack =>
    rw [hinside] at h
    cases stack with
    | nil => cases h
    | cons top below =>
      cases h
      exact (path_of_inside (fun _ => slash_not_mem_walkedSegments) hinside).2.2

/-- A walk that leaves the package ends in no path, also if it comes back. -/
theorem pathInside_of_left {front : List (List Char)} (h : walkInside [] front = none)
    (back : List (List Char)) : pathInside (front ++ back) = none := by
  rw [pathInside, walkInside_append, h]
  rfl

/-- References are resolved by a walk inside the package: there is no path for an empty reference, for a
walk that leaves the package at any point, and for one that ends where it began; else the path is what is
left on the stack. -/
theorem references_stay_inside {file src : List Char} (hfile : '\x00' ∉ file) (hsrc : '\x00' ∉ src)
    (hfileRoot : (withSlashes file).head? ≠ some '/') (hsrcRoot : (reference src).head? ≠ some '/') :
    resolve file src =
        (if reference src = [] then none else pathInside (walkedSegments file src)) ∧
      (∀ path, resolve file src = some path → ∀ segment ∈ splitOn '/' path,
        segment ≠ [] ∧ segment ≠ here ∧ segment ≠ up) ∧
      ∀ front back, walkedSegments file src = front ++ back → walkInside [] front = none →
        resolve file src = none := by
  have hresolve : resolve file src =
      if reference src = [] then none else pathInside (walkedSegments file src) := by
    split
    · next hnil =>
      rw [resolve, hnil]
      rfl
    · next hsome => exact resolve_of_ne_nil hfile hsrc hfileRoot hsrcRoot hsome
  rw [hresolve]
  refine ⟨rfl, fun path hpath => ?_, fun front back hsegments hleft => ?_⟩
  · exact isStep_of_pathInside (Option.ite_none_left_eq_some.1 hpath).2
  · rw [hsegments, pathInside_of_left hleft, ite_self]

/-- A reference out of the directory of the file and into another one. -/
theorem references_stay_inside_sibling :
    ('\x00' ∉ "items/q.xml".toList ∧ '\x00' ∉ "../img//a.png?v=1".toList ∧
        (withSlashes "items/q.xml".toList).head? ≠ some '/' ∧
        (reference "../img//a.png?v=1".toList).head? ≠ some '/') ∧
      resolve "items/q.xml".toList "../img//a.png?v=1".toList = some "img/a.png".toList :=
  ⟨by decide, (references_stay_inside (by decide) (by decide) (by decide) (by decide)).1.trans
    (by decide)⟩

end Assessment.Path
