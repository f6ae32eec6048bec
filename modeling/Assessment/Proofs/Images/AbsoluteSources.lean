import Assessment.Proofs.Images.PackagePaths
import Assessment.Proofs.Text.Scan

/-!
# Proofs: absolute sources

An absolute source names a scheme, a host or a rooted path, or holds the data itself. It is external
unless it is overlooked: because its scheme is not made of letters only, or because it holds data and says
so in capital letters (`isExternal_iff_not_overlooked`). A source without a colon that is not rooted is
never external. Images with external sources are left alone (`absolute_sources_are_left_alone`).
-/

namespace Assessment.Path

open Assessment.Text

/-! ## Absolute sources -/

/-- The name of a scheme: a letter, and then letters, digits, plus signs, hyphens and points. -/
def IsScheme : List Char → Prop
  | [] => False
  | c :: s => c.isAlpha = true ∧ ∀ d ∈ s, d.isAlphanum = true ∨ d ∈ ['+', '-', '.']

/-- The source starts with a scheme and two slashes, with a slash, or with the scheme of data in letters
of either case. -/
inductive Absolute : List Char → Prop where
  /-- A scheme and two slashes. -/
  | scheme {s : List Char} (hs : IsScheme s) (rest : List Char) :
      Absolute (s ++ ':' :: '/' :: '/' :: rest)
  /-- One slash, or two. -/
  | rooted (rest : List Char) : Absolute ('/' :: rest)
  /-- Data. -/
  | data {s : List Char} (hs : s.map Char.toLower = "data".toList) (rest : List Char) :
      Absolute (s ++ ':' :: rest)

/-- The source is absolute by a scheme that has a character other than a letter, or by the scheme of data
with a capital letter. -/
inductive Overlooked : List Char → Prop where
  /-- A scheme with another character, and two slashes. -/
  | scheme {s : List Char} {c : Char} (hs : IsScheme s) (hmem : c ∈ s) (hc : c.isAlpha = false)
      (rest : List Char) : Overlooked (s ++ ':' :: '/' :: '/' :: rest)
  /-- Data with a capital letter in its scheme. -/
  | data {s : List Char} (hs : s.map Char.toLower = "data".toList) (hne : s ≠ "data".toList)
      {rest : List Char} (hrest : startsWith "//".toList rest = false) : Overlooked (s ++ ':' :: rest)

/-- What stands before the first colon and behind it is determined. -/
theorem append_colon_inj {s t rest more : List Char} (hs : ':' ∉ s) (ht : ':' ∉ t)
    (h : s ++ ':' :: rest = t ++ ':' :: more) : s = t ∧ rest = more := by
  have hcut := cutAtChar?_append_cons hs rest
  rw [h, cutAtChar?_append_cons ht more] at hcut
  exact ⟨(Prod.mk.inj (Option.some.inj hcut)).1.symm, (Prod.mk.inj (Option.some.inj hcut)).2.symm⟩

/-! ## Letters of schemes -/

theorem isSchemeLetter_of_isAlpha {c : Char} (h : c.isAlpha = true) : isSchemeLetter c = true := by
  simp [isSchemeLetter, h]

theorem IsScheme.isAlphanum_or {s : List Char} (h : IsScheme s) :
    ∀ c ∈ s, c.isAlphanum = true ∨ c ∈ ['+', '-', '.'] := by
  cases s with
  | nil => cases h
  | cons c s =>
    refine List.forall_mem_cons.2 ⟨.inl ?_, h.2⟩
    rw [Char.isAlphanum, h.1, Bool.true_or]

/-- A character of a scheme that is no letter is not taken for one. -/
theorem IsScheme.isSchemeLetter_eq {s : List Char} (h : IsScheme s) {c : Char} (hmem : c ∈ s) :
    isSchemeLetter c = c.isAlpha := by
  have hother : ∀ d ∈ ['\u0130', '\u0131', '\u017F', '\u212A'], d ≠ c := by
    rintro d hd rfl
    rcases h.isAlphanum_or d hmem with halnum | hmark
    · exact absurd halnum
        ((by decide : ∀ d ∈ ['\u0130', '\u0131', '\u017F', '\u212A'], ¬ d.isAlphanum = true) d hd)
    · exact absurd hmark
        ((by decide : ∀ d ∈ ['\u0130', '\u0131', '\u017F', '\u212A'], d ∉ ['+', '-', '.']) d hd)
  have hne (d : Char) (hd : d ∈ ['\u0130', '\u0131', '\u017F', '\u212A']) : (c == d) = false :=
    beq_false_of_ne (hother d hd).symm
  simp [isSchemeLetter, hne]

theorem IsScheme.colon_not_mem {s : List Char} (h : IsScheme s) : ':' ∉ s := by
  intro hmem
  rcases h.isAlphanum_or ':' hmem with halnum | hmark
  · exact absurd halnum (by decide)
  · exact absurd hmark (by decide)

theorem colon_not_mem_of_forall {s : List Char} (h : ∀ c ∈ s, isSchemeLetter c = true) : ':' ∉ s :=
  fun hmem => absurd (h ':' hmem) (by decide)

/-- The scheme of data is made of letters, and begins with one. -/
theorem isScheme_of_data {s : List Char} (h : s.map Char.toLower = "data".toList) :
    IsScheme s ∧ ∀ c ∈ s, c.isAlpha = true := by
  have hletters : ∀ c ∈ s, c.isAlpha = true := by
    intro c hc
    have hmem : c.toLower ∈ "data".toList := h ▸ List.mem_map_of_mem hc
    have hlower : ∀ d ∈ "data".toList, d.isAlpha = true := by decide
    have halpha := hlower _ hmem
    by_cases hupper : c.isUpper
    · exact Bool.or_eq_true_iff.2 (.inl hupper)
    · have hsame : c.toLower = c := dif_neg fun hcapital => hupper (decide_eq_true hcapital)
      rwa [hsame] at halpha
  refine ⟨?_, hletters⟩
  cases s with
  | nil => cases h
  | cons c s =>
    refine ⟨hletters c List.mem_cons_self, fun d hd => .inl ?_⟩
    rw [Char.isAlphanum, hletters d (List.mem_cons_of_mem c hd), Bool.true_or]

/-! ## External sources -/

theorem startsWith_iff {start s : List Char} :
    startsWith start s = true ↔ ∃ rest, s = start ++ rest := by
  rw [startsWith, Option.isSome_iff_exists]
  exact exists_congr fun rest => after?_eq_some_iff

/-- The source names a scheme of letters before two slashes. -/
theorem hasAuthority_iff {src : List Char} : hasAuthority src = true ↔
    (∃ rest, src = '/' :: '/' :: rest) ∨ ∃ s rest, s ≠ [] ∧ (∀ c ∈ s, isSchemeLetter c = true) ∧
      src = s ++ ':' :: '/' :: '/' :: rest := by
  have hspan : src = src.takeWhile isSchemeLetter ++ src.dropWhile isSchemeLetter :=
    List.takeWhile_append_dropWhile.symm
  rw [hasAuthority, Bool.or_eq_true, startsWith_iff, Bool.and_eq_true, startsWith_iff]
  refine or_congr Iff.rfl ⟨?_, ?_⟩
  · rintro ⟨hne, rest, hrest⟩
    rw [hrest] at hspan
    exact ⟨_, rest, by simpa using hne, fun c hc => List.mem_takeWhile_imp hc, hspan⟩
  · rintro ⟨s, rest, hne, hletters, rfl⟩
    have hcolon : isSchemeLetter ':' = false := by decide
    obtain ⟨htake, hdrop⟩ := span_append_cons hletters hcolon ('/' :: '/' :: rest)
    rw [htake, hdrop]
    exact ⟨by simpa using hne, rest, rfl⟩

/-- The three ways in which a source is external. -/
theorem isExternal_iff {src : List Char} : isExternal src = true ↔
    (∃ rest, src = '/' :: rest) ∨ (∃ rest, src = "data".toList ++ ':' :: rest) ∨
      ∃ s rest, s ≠ [] ∧ (∀ c ∈ s, isSchemeLetter c = true) ∧
        src = s ++ ':' :: '/' :: '/' :: rest := by
  rw [isExternal, Bool.or_eq_true, Bool.or_eq_true, hasAuthority_iff, startsWith_iff, startsWith_iff]
  constructor
  · rintro (((⟨rest, rfl⟩ | hscheme) | hdata) | hrooted)
    · exact .inl ⟨'/' :: rest, rfl⟩
    · exact .inr (.inr hscheme)
    · exact .inr (.inl hdata)
    · exact .inl hrooted
  · rintro (hrooted | hdata | hscheme)
    · exact .inr hrooted
    · exact .inl (.inr hdata)
    · exact .inl (.inl (.inr hscheme))

/-- A source whose scheme is before its first colon is external by that scheme or not at all. -/
theorem isExternal_append_iff {s : List Char} (hs : IsScheme s) (rest : List Char) :
    isExternal (s ++ ':' :: rest) = true ↔ s = "data".toList ∨
      ((∀ c ∈ s, c.isAlpha = true) ∧ startsWith "//".toList rest = true) := by
  have hcolon := hs.colon_not_mem
  rw [isExternal_iff]
  constructor
  · rintro (⟨more, h⟩ | ⟨more, h⟩ | ⟨t, more, hne, hletters, h⟩)
    · cases s with
      | nil => cases hs
      | cons c s =>
        have hslash : c = '/' := (List.cons.inj h).1
        exact absurd (hslash ▸ hs.1) (by decide)
    · exact .inl (append_colon_inj hcolon (by decide) h).1
    · obtain ⟨rfl, rfl⟩ := append_colon_inj hcolon (colon_not_mem_of_forall hletters) h
      exact .inr ⟨fun c hc => hs.isSchemeLetter_eq hc ▸ hletters c hc, startsWith_iff.2 ⟨more, rfl⟩⟩
  · rintro (rfl | ⟨hletters, hslashes⟩)
    · exact .inr (.inl ⟨rest, rfl⟩)
    · obtain ⟨more, rfl⟩ := startsWith_iff.1 hslashes
      have hne : s ≠ [] := by
        rintro rfl
        exact hs
      exact .inr (.inr ⟨s, more, hne, fun c hc => isSchemeLetter_of_isAlpha (hletters c hc), rfl⟩)

/-- An overlooked source is not external. -/
theorem Overlooked.isExternal {src : List Char} (h : Overlooked src) : isExternal src = false := by
  refine eq_false_of_ne_true fun hexternal => ?_
  cases h with
  | scheme hs hmem hc rest =>
    rcases (isExternal_append_iff hs _).1 hexternal with rfl | ⟨hletters, -⟩
    · exact absurd hc ((by decide : ∀ c ∈ "data".toList, ¬ c.isAlpha = false) _ hmem)
    · exact absurd (hletters _ hmem) (ne_true_of_eq_false hc)
  | data hs hne hrest =>
    rcases (isExternal_append_iff (isScheme_of_data hs).1 _).1 hexternal with rfl | ⟨-, hslashes⟩
    · exact hne rfl
    · exact absurd hslashes (ne_true_of_eq_false hrest)

/-- An absolute source is external, or it is overlooked. -/
theorem Absolute.isExternal_or {src : List Char} (h : Absolute src) :
    isExternal src = true ∨ Overlooked src := by
  cases h with
  | @scheme s hs rest =>
    by_cases hletters : ∀ c ∈ s, c.isAlpha = true
    · exact .inl ((isExternal_append_iff hs _).2 (.inr ⟨hletters, startsWith_iff.2 ⟨rest, rfl⟩⟩))
    · push Not at hletters
      obtain ⟨c, hmem, hc⟩ := hletters
      exact .inr (.scheme hs hmem (eq_false_of_ne_true hc) rest)
  | rooted rest => exact .inl (isExternal_iff.2 (.inl ⟨rest, rfl⟩))
  | @data s hs rest =>
    obtain ⟨hscheme, hletters⟩ := isScheme_of_data hs
    by_cases hdata : s = "data".toList
    · exact .inl ((isExternal_append_iff hscheme rest).2 (.inl hdata))
    by_cases hslashes : startsWith "//".toList rest = true
    · exact .inl ((isExternal_append_iff hscheme rest).2 (.inr ⟨hletters, hslashes⟩))
    · exact .inr (.data hs hdata (eq_false_of_ne_true hslashes))

/-- An absolute source is external exactly if it is not overlooked. -/
theorem isExternal_iff_not_overlooked {src : List Char} (h : Absolute src) :
    isExternal src = true ↔ ¬ Overlooked src :=
  ⟨fun hexternal hover => absurd hexternal (ne_true_of_eq_false hover.isExternal),
    fun hnot => h.isExternal_or.resolve_right hnot⟩

/-- A source without a colon and without a slash in front is not external. -/
theorem not_isExternal_of_not_mem {src : List Char} (hcolon : ':' ∉ src)
    (hslash : src.head? ≠ some '/') : isExternal src = false := by
  refine eq_false_of_ne_true fun hexternal => ?_
  rcases isExternal_iff.1 hexternal with ⟨rest, rfl⟩ | ⟨rest, rfl⟩ | ⟨s, rest, -, -, rfl⟩
  · exact hslash rfl
  · exact hcolon (List.mem_append_right _ List.mem_cons_self)
  · exact hcolon (List.mem_append_right _ List.mem_cons_self)

end Assessment.Path

namespace Assessment.Images

open Assessment.Path

/-- An absolute source is external unless it is overlooked, and a source without a colon that is not
rooted is not external. Whatever the HTML and the other options are, no address is made for a source that
is external. -/
theorem absolute_sources_are_left_alone (src : List Char) :
    (Absolute src → (Path.isExternal src = true ↔ ¬ Overlooked src)) ∧
      (':' ∉ src → src.head? ≠ some '/' → Path.isExternal src = false) ∧
      ∀ (options : Options) (item html path : List Char) (result : Redirected),
        options.isExternal = Path.isExternal → redirect options item html = .ok result →
          (path, src) ∈ result.calls → Path.isExternal src = false ∧ (Absolute src → Overlooked src) := by
  refine ⟨isExternal_iff_not_overlooked, not_isExternal_of_not_mem, ?_⟩
  intro options item html path result hdefault hresult hcall
  have hnot : Path.isExternal src = false := hdefault ▸ (resolvePath_of_mem_calls hresult hcall).1
  exact ⟨hnot, fun habsolute => habsolute.isExternal_or.resolve_left (ne_true_of_eq_false hnot)⟩

theorem exists_of_map_toOption {ε α β : Type} {e : Except ε α} {f : α → β} {b : β}
    (h : e.toOption.map f = some b) : ∃ a, e = .ok a ∧ f a = b := by
  cases e with
  | error failure => cases h
  | ok a => exact ⟨a, rfl, Option.some.inj h⟩

/-- An image on a host, and one beside the directory of the item. -/
def hostSample : List Char := "<img src=\"HTTPS://h/a.png\"/><img src=\"../a.png\"/>".toList

/-- The source of a file on a host is absolute and not overlooked, so it is external. An address is made for
the file in the package, so that one is not. -/
theorem absolute_sources_are_left_alone_host :
    Absolute "HTTPS://h/a.png".toList ∧ ¬ Overlooked "HTTPS://h/a.png".toList ∧
      Path.isExternal "HTTPS://h/a.png".toList = true ∧ Path.isExternal "../a.png".toList = false ∧
      ∃ result, redirect assets "items/q.xml".toList hostSample = .ok result ∧
        ("a.png".toList, "../a.png".toList) ∈ result.calls ∧
        (Path.isExternal "../a.png".toList = false ∧
          (Absolute "../a.png".toList → Overlooked "../a.png".toList)) := by
  have hscheme : IsScheme "HTTPS".toList := ⟨by decide, by decide⟩
  have habsolute : Absolute "HTTPS://h/a.png".toList := .scheme hscheme "h/a.png".toList
  have hexternal : Path.isExternal "HTTPS://h/a.png".toList = true := by decide
  have hsample : (redirect assets "items/q.xml".toList hostSample).toOption.map Redirected.calls =
      some [("a.png".toList, "../a.png".toList)] := by decide +kernel
  obtain ⟨result, hresult, hmade⟩ := exists_of_map_toOption hsample
  have hcall : ("a.png".toList, "../a.png".toList) ∈ result.calls := by
    rw [hmade]
    exact List.mem_cons_self
  obtain ⟨hhost, -, -⟩ := absolute_sources_are_left_alone "HTTPS://h/a.png".toList
  obtain ⟨-, hrelative, hcalls⟩ := absolute_sources_are_left_alone "../a.png".toList
  exact ⟨habsolute, (hhost habsolute).1 hexternal, hexternal, hrelative (by decide) (by decide), result,
    hresult, hcall, hcalls assets _ _ _ result rfl hresult hcall⟩

/-- A scheme with a digit is overlooked: an address is made for an absolute source. -/
theorem scheme_with_digit_is_overlooked :
    ¬ ∀ (html : List Char) (result : Redirected), redirect assets "items/q.xml".toList html = .ok result →
      ∀ path src, (path, src) ∈ result.calls → ¬ Absolute src := by
  intro h
  have hcalls : (redirect assets "items/q.xml".toList "<img src=\"s3://b/a.png\"/>".toList).toOption.map
      Redirected.calls = some [("items/s3:/b/a.png".toList, "s3://b/a.png".toList)] := by
    decide +kernel
  obtain ⟨result, hresult, hmade⟩ := exists_of_map_toOption hcalls
  have hmem : ("items/s3:/b/a.png".toList, "s3://b/a.png".toList) ∈ result.calls := by
    rw [hmade]
    exact List.mem_cons_self
  have hscheme : IsScheme "s3".toList := ⟨by decide, by decide⟩
  exact h _ result hresult _ _ hmem (.scheme hscheme "b/a.png".toList)

end Assessment.Images
