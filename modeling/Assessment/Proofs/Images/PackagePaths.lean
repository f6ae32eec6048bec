import Assessment.Proofs.Images.Redirecting
import Assessment.Proofs.Path.Resolving

/-!
# Proofs: which paths leave the package

Whether a source is external is asked of the source as it is written. It is resolved without the white
space around it and with slashes for backslashes, so a source can be rooted for the second reader that was
not for the first (`HidesRoot`). These sources, and no others, are resolved to a rooted path, and every
path that an address is made for has this form (`unexternal_sources_lead_inside`). A step up is left in a
path only where the reference goes on with a NUL after it.
-/

namespace Assessment.Path

open Assessment.Text

/-! ## Rooted references -/

/-- The source is rooted for a reader that skips the white space in front of it and takes backslashes for
slashes. -/
def IsRooted (src : List Char) : Prop := (trim src).head? = some '/' ∨ (trim src).head? = some '\\'

/-- The source does not begin with a slash, but is rooted for a reader that skips the white space in front
of it and takes backslashes for slashes. -/
def HidesRoot (src : List Char) : Prop :=
  ∃ c rest, src = c :: rest ∧ (c = '\\' ∨ isBlank c = true ∧ IsRooted rest)

theorem head?_withSlashes {s : List Char} :
    (withSlashes s).head? = some '/' ↔ s.head? = some '/' ∨ s.head? = some '\\' := by
  cases s with
  | nil => exact ⟨nofun, fun h => h.elim nofun nofun⟩
  | cons c s =>
    rw [withSlashes, replaceChar, List.flatMap_cons]
    by_cases hc : c = '\\'
    · rw [if_pos hc, hc]
      exact iff_of_true rfl (.inr rfl)
    · have hne : ¬ some c = some '\\' := fun heq => hc (Option.some.inj heq)
      rw [if_neg hc, List.singleton_append, List.head?_cons, List.head?_cons, or_iff_left hne]

theorem head?_reference {src : List Char} : (reference src).head? = some '/' ↔ IsRooted src := by
  rw [reference, head?_beforeChar (by decide), head?_beforeChar (by decide), head?_withSlashes, IsRooted]

theorem isRooted_cons_of_isBlank {c : Char} (hc : isBlank c = true) (src : List Char) :
    IsRooted (c :: src) ↔ IsRooted src := by
  rw [IsRooted, IsRooted, trim, trimStart, List.dropWhile_cons_of_pos hc]
  rfl

theorem isRooted_cons_of_not_isBlank {c : Char} (hc : isBlank c = false) (src : List Char) :
    IsRooted (c :: src) ↔ c = '/' ∨ c = '\\' := by
  obtain ⟨blanks, htrim, hblanks⟩ := exists_trimEnd (c :: src)
  have hhead : (trim (c :: src)).head? = some c := by
    rw [trim, trimStart, List.dropWhile_cons_of_neg (ne_true_of_eq_false hc)]
    cases hend : trimEnd (c :: src) with
    | nil =>
      have hblank := List.all_eq_true.1 hblanks c (by rw [← List.nil_append blanks, ← hend, ← htrim]; simp)
      exact absurd hblank (ne_true_of_eq_false hc)
    | cons d rest =>
      rw [hend] at htrim
      rw [List.head?_cons, (List.cons.inj htrim).1]
  rw [IsRooted, hhead, Option.some_inj, Option.some_inj]

/-- A source that is not external is rooted only in a hidden way. -/
theorem isRooted_iff_hidesRoot {src : List Char} (h : isExternal src = false) :
    IsRooted src ↔ HidesRoot src := by
  have hslash : startsWith ['/'] src = false := (Bool.or_eq_false_iff.1 h).2
  cases src with
  | nil => exact iff_of_false (fun hroot => hroot.elim nofun nofun) fun ⟨_, _, hnil, _⟩ => nomatch hnil
  | cons c rest =>
    have hc : c ≠ '/' := by
      rintro rfl
      exact absurd hslash Bool.true_eq_false.mp
    have hhides : HidesRoot (c :: rest) ↔ c = '\\' ∨ isBlank c = true ∧ IsRooted rest := by
      constructor
      · rintro ⟨d, other, heq, hroot⟩
        obtain ⟨rfl, rfl⟩ := List.cons.inj heq
        exact hroot
      · exact fun hroot => ⟨c, rest, rfl, hroot⟩
    rw [hhides]
    cases hblank : isBlank c with
    | true =>
      have hback : c ≠ '\\' := by
        rintro rfl
        exact absurd hblank (by decide)
      rw [isRooted_cons_of_isBlank hblank, or_iff_right hback, and_iff_right rfl]
    | false => rw [isRooted_cons_of_not_isBlank hblank, or_iff_right hc, or_iff_left (by simp)]

/-! ## What a walk leaves -/

/-- A walk leaves steps, after steps up if nothing is the root. -/
theorem exists_steps_walk (rooted : Bool) {stack : List (List Char)} {n : Nat}
    (hroot : rooted = true → n = 0) (hstack : ∀ segment ∈ stack, IsStep segment)
    (segments : List (List Char)) :
    ∃ steps m, walk rooted (stack ++ List.replicate n up) segments = steps ++ List.replicate m up ∧
      (∀ segment ∈ steps, IsStep segment) ∧ (rooted = true → m = 0) := by
  induction segments generalizing stack n with
  | nil => exact ⟨stack, n, rfl, hstack, hroot⟩
  | cons segment segments ih =>
    rcases segment_cases segment with hskip | ⟨-, rfl⟩ | ⟨hkeep, hup, hstep⟩
    · rw [walk_skip hskip]
      exact ih hroot hstack
    · cases stack with
      | cons top below =>
        obtain ⟨htop, hbelow⟩ := List.forall_mem_cons.1 hstack
        have hne : ¬ (top == up) = true := fun heq => htop.2.2 (eq_of_beq heq)
        rw [List.cons_append, walk_up_cons, if_neg hne]
        exact ih hroot hbelow
      | nil =>
        cases n with
        | zero =>
          rw [List.replicate_zero, List.append_nil, walk_up_nil]
          cases rooted with
          | true => exact ih (n := 0) (fun _ => rfl) hstack
          | false => exact ih (n := 1) nofun hstack
        | succ n =>
          have hunrooted : rooted = false := eq_false_of_ne_true fun h => nomatch hroot h
          rw [List.nil_append, List.replicate_succ, walk_up_cons, if_pos (beq_self_eq_true up)]
          exact ih (n := n + 2) (fun h => by rw [hunrooted] at h; cases h) hstack
    · rw [walk_step hkeep hup]
      have hsteps : ∀ other ∈ segment :: stack, IsStep other := List.forall_mem_cons.2 ⟨hstep, hstack⟩
      exact ih hroot hsteps

theorem not_isOutside_of_resolve {file src path : List Char} (h : resolve file src = some path) :
    path = normalize (join (directory (withSlashes file)) (reference src)) ∧ isOutside path = false := by
  rw [resolve] at h
  dsimp only at h
  obtain ⟨-, h⟩ := Option.ite_none_left_eq_some.1 h
  obtain ⟨hinside, h⟩ := Option.ite_none_left_eq_some.1 h
  cases h
  exact ⟨rfl, eq_false_of_ne_true hinside⟩

/-- A path that begins with a step up is outside, also if it ends early. -/
theorem isOutside_beforeChar_up (segments : List (List Char)) :
    isOutside (beforeChar '\x00' (joinWith ['/'] (up :: segments))) = true := by
  cases segments with
  | nil => rfl
  | cons segment segments => rfl

/-- The root of a path, and the steps from there. -/
theorem exists_steps_of_inside {path : List Char} (h : isOutside (normalize path) = false) :
    ∃ steps, walk (!(root path).isEmpty) [] (splitOn '/' path) = steps ∧
      (∀ segment ∈ steps, IsStep segment) ∧
      normalize path = beforeChar '\x00' (root path ++ joinWith ['/'] steps.reverse) := by
  have hnone : ∀ segment ∈ ([] : List (List Char)), IsStep segment := fun _ hnil =>
    absurd hnil List.not_mem_nil
  obtain ⟨steps, m, hwalk, hsteps, hm⟩ := exists_steps_walk (!(root path).isEmpty)
    (n := 0) (fun _ => rfl) hnone (splitOn '/' path)
  rw [List.replicate_zero, List.append_nil] at hwalk
  unfold normalize at h ⊢
  dsimp only at h ⊢
  have hnormal : ¬ ((beforeChar '\x00' (root path ++ joinWith ['/']
      (walk (!(root path).isEmpty) [] (splitOn '/' path)).reverse)).isEmpty ||
        path.head? == some '\x00') = true := by
    intro hhere
    rw [if_pos hhere] at h
    cases h
  rw [if_neg hnormal] at h ⊢
  rw [hwalk] at h ⊢
  cases m with
  | zero => exact ⟨steps, List.append_nil steps, hsteps, by rw [List.replicate_zero, List.append_nil]⟩
  | succ m =>
    exfalso
    have hroot : root path = [] := by
      cases hcase : root path with
      | nil => rfl
      | cons c rest => cases hm (by rw [hcase]; rfl)
    rw [hroot, List.replicate_succ', ← List.append_assoc, List.reverse_concat, List.nil_append,
      isOutside_beforeChar_up] at h
    cases h

/-! ## Where a resolved path begins -/

theorem exists_cons_root {path : List Char} (h : path.head? = some '/') :
    ∃ rest, root path = '/' :: rest := by
  cases path with
  | nil => cases h
  | cons c path =>
    cases Option.some.inj h
    unfold root
    split
    · exact ⟨_, rfl⟩
    · exact ⟨_, rfl⟩
    · exact ⟨_, rfl⟩
    · next hne => exact absurd rfl (hne path)

/-- A path of segments begins with the first of them. -/
theorem head?_joinWith_ne {parts : List (List Char)} (h : ∀ part ∈ parts, part ≠ [] ∧ '/' ∉ part) :
    (joinWith ['/'] parts).head? ≠ some '/' := by
  cases parts with
  | nil => exact nofun
  | cons part parts =>
    obtain ⟨hne, hslash⟩ := h part List.mem_cons_self
    obtain ⟨c, rest, rfl⟩ := List.exists_cons_of_ne_nil hne
    have hc : some c ≠ some '/' := fun heq => hslash (by simp [Option.some.inj heq])
    cases parts with
    | nil => exact hc
    | cons next parts => exact hc

/-- A path that is inside is rooted if it was so before its steps were taken. -/
theorem head?_normalize {path : List Char} (h : isOutside (normalize path) = false) :
    (normalize path).head? = some '/' ↔ path.head? = some '/' := by
  obtain ⟨steps, hwalk, hsteps, hnormal⟩ := exists_steps_of_inside h
  rw [hnormal, head?_beforeChar (by decide)]
  by_cases hroot : path.head? = some '/'
  · obtain ⟨rest, hrest⟩ := exists_cons_root hroot
    rw [hrest]
    exact iff_of_true rfl hroot
  · rw [root_eq_nil hroot, List.nil_append]
    refine iff_of_false (head?_joinWith_ne fun segment hsegment => ?_) hroot
    have hwalked := List.mem_reverse.1 hsegment
    refine ⟨(hsteps segment hwalked).1, fun hslash => ?_⟩
    rw [← hwalk] at hwalked
    rcases mem_walk hwalked with hstack | hgiven | rfl
    · cases hstack
    · exact (mem_of_mem_splitOn hgiven hslash).2 rfl
    · exact absurd hslash (by decide)

/-! ## Steps up -/

theorem mem_splitOn_root {path part : List Char} {parts : List (List Char)}
    (hslash : ∀ part ∈ parts, '/' ∉ part)
    (h : part ∈ splitOn '/' (root path ++ joinWith ['/'] parts)) : part = [] ∨ part ∈ parts := by
  have hparts : part ∈ splitOn '/' (joinWith ['/'] parts) → part = [] ∨ part ∈ parts := by
    intro hmem
    by_cases hsome : parts = []
    · rw [hsome] at hmem
      exact .inl (List.mem_singleton.1 hmem)
    · rw [splitOn_joinWith hsome hslash] at hmem
      exact .inr hmem
  have hempty (s : List Char) (hmem : part ∈ splitOn '/' ('/' :: s)) :
      part = [] ∨ part ∈ splitOn '/' s := by
    rw [splitOn, if_pos rfl] at hmem
    exact List.mem_cons.1 hmem
  unfold root at h
  split at h
  · exact (hempty _ h).elim .inl hparts
  · exact (hempty _ h).elim .inl fun h => (hempty _ h).elim .inl hparts
  · exact (hempty _ h).elim .inl hparts
  · exact hparts h

/-- A step up is left in a path that is inside only where the path was cut at a NUL after it. -/
theorem exists_cut_of_up_mem {path : List Char} (h : isOutside (normalize path) = false)
    (hup : up ∈ splitOn '/' (normalize path)) :
    ∃ segment ∈ splitOn '/' path, up ++ ['\x00'] <+: segment := by
  obtain ⟨steps, hwalk, hsteps, hnormal⟩ := exists_steps_of_inside h
  have hgiven : ∀ segment ∈ steps, segment ∈ splitOn '/' path := by
    intro segment hsegment
    have hwalked := hsegment
    rw [← hwalk] at hwalked
    rcases mem_walk hwalked with hstack | hgiven | hsame
    · cases hstack
    · exact hgiven
    · exact absurd hsame (hsteps segment hsegment).2.2
  have hslash : ∀ segment ∈ steps.reverse, '/' ∉ segment := fun segment hsegment hmem =>
    (mem_of_mem_splitOn (hgiven segment (List.mem_reverse.1 hsegment)) hmem).2 rfl
  have hnul : '\x00' ≠ '/' := by decide
  obtain ⟨n, hparts⟩ := splitOn_beforeChar hnul (root path ++ joinWith ['/'] steps.reverse)
  rw [hnormal, hparts, List.mem_map] at hup
  obtain ⟨whole, hwhole, hcut⟩ := hup
  rcases mem_splitOn_root hslash (List.mem_of_mem_take hwhole) with rfl | hstep
  · cases hcut
  · have hmem := List.mem_reverse.1 hstep
    exact ⟨whole, hgiven whole hmem, prefix_of_beforeChar hcut (hsteps whole hmem).2.2⟩

/-- The segments of what a reference is joined to are walked. -/
theorem mem_walkedSegments {file src segment : List Char} (hsome : segment ≠ [])
    (h : segment ∈ splitOn '/' (join (directory (withSlashes file)) (reference src))) :
    segment ∈ walkedSegments file src := by
  by_cases hroot : (reference src).head? = some '/'
  · rw [join, if_pos (beq_iff_eq.2 hroot)] at h
    exact List.mem_append_right _ h
  · have hsegment : segment ∈ segmentsOf (join (directory (withSlashes file)) (reference src)) :=
      List.mem_filter.2 ⟨h, by simpa using hsome⟩
    rw [segmentsOf_join hroot, segmentsOf_directory, segmentsOf, ← List.filter_append] at hsegment
    exact (List.mem_filter.1 hsegment).1

/-! ## Sources that are not external -/

/-- What is known of the path that a source in a file is resolved to: it is rooted if the source was rooted
in a hidden way, and a step up in it was cut off from a NUL. -/
structure LeadsInside (file src path : List Char) : Prop where
  /-- It is rooted if the source was so. -/
  rooted : path.head? = some '/' ↔ HidesRoot src
  /-- It has no step up, but for what was cut at a NUL. -/
  up : up ∈ splitOn '/' path → ∃ segment ∈ walkedSegments file src, up ++ ['\x00'] <+: segment

theorem leadsInside_of_resolve {file src path : List Char}
    (hfile : file.head? ≠ some '/' ∧ file.head? ≠ some '\\') (hsrc : isExternal src = false)
    (h : resolve file src = some path) : LeadsInside file src path := by
  obtain ⟨rfl, hinside⟩ := not_isOutside_of_resolve h
  have hfileRoot : (withSlashes file).head? ≠ some '/' := fun hhead =>
    (head?_withSlashes.1 hhead).elim hfile.1 hfile.2
  constructor
  · rw [head?_normalize hinside, ← isRooted_iff_hidesRoot hsrc, ← head?_reference]
    constructor
    · exact fun hhead => not_not.1 fun hsrcRoot => head?_join_ne hfileRoot hsrcRoot hhead
    · intro hhead
      rw [join, if_pos (beq_iff_eq.2 hhead)]
      exact hhead
  · intro hup
    obtain ⟨segment, hsegment, hcut⟩ := exists_cut_of_up_mem hinside hup
    have hsome : segment ≠ [] := by
      rintro rfl
      exact absurd (List.prefix_nil.1 hcut) (by decide)
    exact ⟨segment, mem_walkedSegments hsome hsegment, hcut⟩

end Assessment.Path

namespace Assessment.Images

open Assessment.Html Assessment.Text

/-- Addresses are made for sources that are not external, from the paths that they are resolved to. -/
theorem resolvePath_of_mem_calls {options : Options} {item html : List Char} {result : Redirected}
    (h : redirect options item html = .ok result) {path src : List Char}
    (hcall : (path, src) ∈ result.calls) :
    options.isExternal src = false ∧ options.resolvePath item src = some path := by
  unfold redirect at h
  cases hread : Html.read options.builder html with
  | error failure =>
    rw [hread] at h
    cases h
  | ok nodes =>
    rw [hread] at h
    cases h
    rw [calls_updateAll nodes {}] at hcall
    obtain ⟨attributes, -, hmade⟩ := List.mem_filterMap.1 hcall
    obtain ⟨other, -, hother⟩ := Option.bind_eq_some_iff.1 hmade
    obtain ⟨found, hfound, hpair⟩ := Option.map_eq_some_iff.1 hother
    cases hpair
    obtain ⟨hkept, hpath⟩ := Option.ite_none_left_eq_some.1 hfound
    exact ⟨eq_false_of_ne_true (not_or.1 hkept).2, (Option.filter_eq_some_iff.1 hpath).1⟩

/-- A source that is not external is resolved to a rooted path exactly if it hides that it is rooted, and
to one with a step up only if the reference goes on with a NUL after that; and of such sources and paths
addresses are made, whatever the HTML. -/
theorem unexternal_sources_lead_inside {file : List Char}
    (hfile : file.head? ≠ some '/' ∧ file.head? ≠ some '\\') :
    (∀ src path, Path.isExternal src = false → Path.resolve file src = some path →
        Path.LeadsInside file src path) ∧
      ∀ (resolveUrl : List Char → List Char → List Char) (builder html : List Char)
        (result : Redirected),
        redirect { resolveUrl := resolveUrl, builder := builder } file html = .ok result →
          ∀ path src, (path, src) ∈ result.calls →
            Path.isExternal src = false ∧ Path.LeadsInside file src path := by
  refine ⟨fun src path => Path.leadsInside_of_resolve hfile, ?_⟩
  intro resolveUrl builder html result hredirect path src hcall
  obtain ⟨hsrc, hpath⟩ := resolvePath_of_mem_calls hredirect hcall
  exact ⟨hsrc, Path.leadsInside_of_resolve hfile hsrc hpath⟩

/-- A source in the same directory leads to a path that is not rooted, without steps up. -/
theorem unexternal_sources_lead_inside_items :
    ("items/q.xml".toList.head? ≠ some '/' ∧ "items/q.xml".toList.head? ≠ some '\\') ∧
      Path.LeadsInside "items/q.xml".toList "../a.png".toList "a.png".toList ∧
      ¬ Path.HidesRoot "../a.png".toList := by
  have hfile : "items/q.xml".toList.head? ≠ some '/' ∧ "items/q.xml".toList.head? ≠ some '\\' := by decide
  have hinside := (unexternal_sources_lead_inside hfile).1 "../a.png".toList "a.png".toList (by decide)
    (by decide)
  exact ⟨hfile, hinside, fun hhides => absurd (hinside.rooted.2 hhides) (by decide)⟩

/-- White space in front of a slash hides it, and an address is made for a path outside of the package. -/
theorem blank_hides_root :
    ¬ ∀ file src path : List Char, file.head? ≠ some '/' → file.head? ≠ some '\\' →
      Path.isExternal src = false → Path.resolve file src = some path →
        path.head? ≠ some '/' ∧ Path.up ∉ splitOn '/' path := by
  intro h
  exact (h "items/q.xml".toList " /pic.png".toList "/pic.png".toList (by decide) (by decide) (by decide)
    (by decide)).1 rfl

end Assessment.Images
