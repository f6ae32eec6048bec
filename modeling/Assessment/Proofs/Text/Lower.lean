import Assessment.Proofs.Text.Blank
import Assessment.Text.Lower

/-!
# Proofs: lower case

A text in lower case is its own lower case. The table of runs is the only part that has to be looked
through: no lower-case letter that it gives is a capital of it (`CapitalRun.isApart`), and none is white
space or special otherwise (`CapitalRun.IsPlain`).
-/

namespace Assessment.Text

/-! ## The table of runs -/

namespace CapitalRun

/-- The lower case of the last capital. -/
def lowerLast (run : CapitalRun) : Nat := run.lower + (run.last - run.first)

/-- No lower-case letter of the run is a capital of the other: they lie apart, or alternate. -/
def isApart (run other : CapitalRun) : Bool :=
  Nat.blt run.lowerLast other.first || Nat.blt other.last run.lower ||
    (other.step == 2 && (run.step == 2 || run.first == run.last) && (run.lower + other.first) % 2 == 1)

/-- The lower-case letters of the run are characters and nothing special. -/
structure IsPlain (run : CapitalRun) : Prop where
  /-- They come after the marks of ASCII. -/
  low : 0x61 ≤ run.lower
  /-- They are code points of characters. -/
  valid : run.lowerLast < 0xD800
    ∨ 0xDFFF < run.lower ∧ run.lowerLast < 0x110000
  /-- None is the dotted capital I. -/
  dotless : run.lowerLast < 0x130 ∨ 0x130 < run.lower
  /-- None is white space. -/
  solid : ∀ range ∈ blankRanges, run.lowerLast < range.1 ∨ range.2 < run.lower

instance (run : CapitalRun) : Decidable run.IsPlain :=
  decidable_of_iff (0x61 ≤ run.lower ∧
      (run.lowerLast < 0xD800 ∨ 0xDFFF < run.lower ∧ run.lowerLast < 0x110000) ∧
      (run.lowerLast < 0x130 ∨ 0x130 < run.lower) ∧
      ∀ range ∈ blankRanges, run.lowerLast < range.1 ∨ range.2 < run.lower)
    ⟨fun h => ⟨h.1, h.2.1, h.2.2.1, h.2.2.2⟩, fun h => ⟨h.low, h.valid, h.dotless, h.solid⟩⟩

theorem isApart_capitalRuns :
    (capitalRuns.all fun run => capitalRuns.all run.isApart) = true := by decide +kernel

theorem isPlain_capitalRuns : ∀ run ∈ capitalRuns, run.IsPlain := by decide +kernel

end CapitalRun

/-- The lower case of a code point is itself or what a run gives. -/
theorem lowerCode_cases (n : Nat) :
    lowerCode n = n ∨ ∃ run ∈ capitalRuns, (run.first ≤ n ∧ n ≤ run.last) ∧
      (n - run.first) % run.step = 0 ∧ lowerCode n = run.lower + (n - run.first) := by
  unfold lowerCode
  split
  · next run hrun =>
    have hfound := List.find?_some hrun
    simp only [Bool.and_eq_true, decide_eq_true_eq, beq_iff_eq] at hfound
    exact .inr ⟨run, List.mem_of_find?_eq_some hrun, hfound.1, hfound.2, rfl⟩
  · exact .inl rfl

/-- What a run gives is no capital of any run. -/
theorem lowerCode_lowerCode (n : Nat) : lowerCode (lowerCode n) = lowerCode n := by
  rcases lowerCode_cases n with heq | ⟨run, hrun, ⟨hfirst, hlast⟩, hstep, heq⟩
  · rw [heq, heq]
  · rcases lowerCode_cases (lowerCode n) with hsame | ⟨other, hother, ⟨hlow, hhigh⟩, hodd, -⟩
    · exact hsame
    · have hall := List.all_eq_true.1 (List.all_eq_true.1 CapitalRun.isApart_capitalRuns run hrun)
      have hapart := hall other hother
      have hlowerLast : run.lowerLast = run.lower + (run.last - run.first) := rfl
      simp only [CapitalRun.isApart, Bool.or_eq_true, Bool.and_eq_true, Nat.blt_eq, beq_iff_eq] at hapart
      rw [heq] at hlow hhigh hodd
      rcases hapart with (hbefore | hafter) | ⟨⟨htwo, hrunStep⟩, hparity⟩
      · omega
      · omega
      · rw [htwo] at hodd
        rcases hrunStep with hrunTwo | hone
        · rw [hrunTwo] at hstep
          omega
        · omega

/-! ## Characters in lower case -/

/-- The character is its own lower case wherever it stands. -/
structure IsLower (c : Char) : Prop where
  /-- It is no capital sigma. -/
  sigma : c.toNat ≠ 0x3A3
  /-- It is no dotted capital I. -/
  dotless : c.toNat ≠ 0x130
  /-- It is no capital of a run. -/
  code : lowerCode c.toNat = c.toNat

/-- The character comes after the marks of ASCII and is no white space. -/
def IsLate (c : Char) : Prop := 0x61 ≤ c.toNat ∧ isBlank c = false

instance (c : Char) : Decidable (IsLate c) := inferInstanceAs (Decidable (_ ∧ _))

/-- The second character is one that the first becomes in lower case. -/
structure Lowers (c d : Char) : Prop where
  /-- It is in lower case. -/
  lower : IsLower d
  /-- It is the same character, or a letter. -/
  kept : d = c ∨ IsLate d

theorem toNat_ofNat {n : Nat} (h : n.isValidChar) : (Char.ofNat n).toNat = n := by
  have hchar : Char.ofNat n = Char.ofNatAux n h := dif_pos h
  rw [hchar]
  rfl

theorem lowers_ofNat_lowerCode {c : Char} (hsigma : c.toNat ≠ 0x3A3) (hdotless : c.toNat ≠ 0x130) :
    Lowers c (Char.ofNat (lowerCode c.toNat)) := by
  have hfixed := lowerCode_lowerCode c.toNat
  rcases lowerCode_cases c.toNat with heq | ⟨run, hrun, ⟨hfirst, hlast⟩, hstep, heq⟩
  · rw [heq, Char.ofNat_toNat]
    exact ⟨⟨hsigma, hdotless, heq⟩, .inl rfl⟩
  · obtain ⟨hlow, hvalid, hdot, hsolid⟩ := CapitalRun.isPlain_capitalRuns run hrun
    have hlowerLast : run.lowerLast = run.lower + (run.last - run.first) := rfl
    have hchar : (lowerCode c.toNat).isValidChar := by
      rw [heq]
      rcases hvalid with hbefore | ⟨hafter, hbefore⟩
      · exact .inl (by omega)
      · exact .inr ⟨by omega, by omega⟩
    have htoNat := toNat_ofNat hchar
    refine ⟨⟨?_, ?_, ?_⟩, .inr ⟨?_, ?_⟩⟩
    · rw [htoNat]
      intro hcapital
      have hrule : lowerCode 0x3A3 = 0x3C3 := by decide
      rw [hcapital, hrule] at hfixed
      exact absurd hfixed (by decide)
    · rw [htoNat]
      omega
    · rw [htoNat]
      exact hfixed
    · rw [htoNat]
      omega
    · refine eq_false_of_ne_true fun hblank => ?_
      obtain ⟨range, hrange, hmem⟩ := Ranges.mem_iff.1 hblank
      have hapart := hsolid range hrange
      rw [htoNat] at hmem
      omega

theorem isLower_of_code {c : Char} {n : Nat} (h : c.toNat = n) (hsigma : n ≠ 0x3A3) (hdotless : n ≠ 0x130)
    (hcode : lowerCode n = n) : IsLower c where
  sigma := h ▸ hsigma
  dotless := h ▸ hdotless
  code := h ▸ hcode

/-- Each character of a text becomes one or more characters in lower case. -/
theorem exists_lowerAfter_cons (before : List Char) (c : Char) (s : List Char) :
    ∃ here, here ≠ [] ∧ (∀ d ∈ here, Lowers c d) ∧
      lowerAfter before (c :: s) = here ++ lowerAfter (c :: before) s := by
  rw [lowerAfter]
  by_cases hsigma : c.toNat = 0x3A3
  · have hsmall : Lowers c (Char.ofNat 0x3C3) :=
      ⟨isLower_of_code rfl (by decide) (by decide) (by decide), .inr (by decide)⟩
    have hfinal : Lowers c (Char.ofNat 0x3C2) :=
      ⟨isLower_of_code rfl (by decide) (by decide) (by decide), .inr (by decide)⟩
    rw [if_pos hsigma]
    refine ⟨_, List.cons_ne_nil _ _, ?_, rfl⟩
    rw [List.forall_mem_singleton]
    split
    · exact hfinal
    · exact hsmall
  by_cases hdotless : c.toNat = 0x130
  · have hi : Lowers c 'i' :=
      ⟨isLower_of_code rfl (by decide) (by decide) (by decide), .inr (by decide)⟩
    have hdot : Lowers c (Char.ofNat 0x307) :=
      ⟨isLower_of_code rfl (by decide) (by decide) (by decide), .inr (by decide)⟩
    rw [if_neg hsigma, if_pos hdotless]
    refine ⟨_, List.cons_ne_nil _ _, ?_, rfl⟩
    exact List.forall_mem_cons.2 ⟨hi, List.forall_mem_singleton.2 hdot⟩
  · rw [if_neg hsigma, if_neg hdotless]
    refine ⟨_, List.cons_ne_nil _ _, ?_, rfl⟩
    exact List.forall_mem_singleton.2 (lowers_ofNat_lowerCode hsigma hdotless)

/-! ## Texts in lower case -/

theorem exists_lowers_of_mem {before s : List Char} {d : Char} (h : d ∈ lowerAfter before s) :
    ∃ c ∈ s, Lowers c d := by
  induction s generalizing before with
  | nil => cases h
  | cons c s ih =>
    obtain ⟨here, -, hhere, heq⟩ := exists_lowerAfter_cons before c s
    rw [heq] at h
    rcases List.mem_append.1 h with h | h
    · exact ⟨c, List.mem_cons_self, hhere d h⟩
    · obtain ⟨e, he, hlowers⟩ := ih h
      exact ⟨e, List.mem_cons_of_mem _ he, hlowers⟩

/-- What all letters have, a text keeps in lower case. -/
theorem forall_lower {P : Char → Prop} (hlate : ∀ c, IsLate c → P c) {s : List Char}
    (h : ∀ c ∈ s, P c) : ∀ c ∈ lower s, P c := by
  intro d hd
  obtain ⟨c, hc, hlowers⟩ := exists_lowers_of_mem hd
  rcases hlowers.kept with rfl | hd
  · exact h _ hc
  · exact hlate d hd

theorem lowerAfter_of_isLower {before s : List Char} (h : ∀ c ∈ s, IsLower c) :
    lowerAfter before s = s := by
  induction s generalizing before with
  | nil => rfl
  | cons c s ih =>
    obtain ⟨⟨hsigma, hdotless, hcode⟩, hs⟩ := List.forall_mem_cons.1 h
    rw [lowerAfter, if_neg hsigma, if_neg hdotless, hcode, Char.ofNat_toNat, ih hs]
    rfl

/-- A text in lower case stays as it is. -/
theorem lower_lower (s : List Char) : lower (lower s) = lower s := by
  refine lowerAfter_of_isLower fun d hd => ?_
  obtain ⟨c, -, hlowers⟩ := exists_lowers_of_mem hd
  exact hlowers.lower

theorem Lowers.isBlank {c d : Char} (h : Lowers c d) (hc : isBlank c = false) : isBlank d = false := by
  rcases h.kept with rfl | hlate
  · exact hc
  · exact hlate.2

theorem exists_lowerAfter_concat {c : Char} (hc : isBlank c = false) (before s : List Char) :
    ∃ t d, lowerAfter before (s ++ [c]) = t ++ [d] ∧ isBlank d = false := by
  induction s generalizing before with
  | nil =>
    obtain ⟨here, hne, hhere, heq⟩ := exists_lowerAfter_cons before c []
    have hlast := hhere _ (List.getLast_mem hne)
    refine ⟨here.dropLast, here.getLast hne, ?_, hlast.isBlank hc⟩
    rw [List.nil_append, heq, lowerAfter, List.append_nil, List.dropLast_concat_getLast]
  | cons e s ih =>
    obtain ⟨here, -, -, heq⟩ := exists_lowerAfter_cons before e (s ++ [c])
    obtain ⟨t, d, hrest, hd⟩ := ih (e :: before)
    exact ⟨here ++ t, d, by rw [List.cons_append, heq, hrest, List.append_assoc], hd⟩

/-- A text without white space at its ends has none there in lower case. -/
theorem Trimmed.lower {s : List Char} (h : Trimmed s) : Trimmed (lower s) where
  first := by
    obtain ⟨c, t, rfl, hc⟩ := h.first
    obtain ⟨here, hne, hhere, heq⟩ := exists_lowerAfter_cons [] c t
    cases here with
    | nil => exact absurd rfl hne
    | cons d here => exact ⟨d, _, heq, (hhere d List.mem_cons_self).isBlank hc⟩
  last := by
    obtain ⟨t, c, rfl, hc⟩ := h.last
    exact exists_lowerAfter_concat hc [] t

end Assessment.Text
