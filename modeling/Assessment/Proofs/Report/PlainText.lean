import Mathlib.Data.List.TakeWhile
import Assessment.Highlight
import Assessment.Proofs.Html.Printing
import Assessment.Report.CodePass

/-!
# Proofs: highlighting plain text

Plain text is only escaped when it is highlighted, so what comes out holds no tag
(`Highlight.unbracketed_highlight`). An opening bracket in the HTML of the code is in the code that the
highlighter is given, and it is never tidied away, so something comes out for it
(`Highlight.highlight_ne_nil`).
-/

namespace Assessment.Text

theorem mem_dropWhile_of_not {p : Char → Bool} {c : Char} (hc : p c = false) {s : List Char}
    (h : c ∈ s) : c ∈ s.dropWhile p := by
  rw [← List.takeWhile_append_dropWhile (p := p) (l := s)] at h
  rcases List.mem_append.1 h with h | h
  · rw [List.mem_takeWhile_imp h] at hc
    cases hc
  · exact h

/-- A replacement leaves a character that no match takes away. -/
theorem Recognizer.mem_replace {α : Type} {p : Recognizer α} {c : Char}
    (hp : ∀ {s rest : List Char} {a : α}, p.run s = some (a, rest) → c ∈ s → c ∈ rest)
    (f : α → List Char) {s : List Char} (h : c ∈ s) : c ∈ p.replace f s := by
  induction s using pieces.induct p with
  | case1 => cases h
  | case2 d s a rest hrun ih =>
    rw [replace_of_run f hrun]
    exact List.mem_append_right _ (ih (hp hrun h))
  | case3 d s hrun ih =>
    have hpieces : p.pieces (d :: s) = [d].map .char ++ p.pieces s := p.pieces_of_not_run hrun
    rw [replace_of_pieces f hpieces]
    rcases List.mem_cons.1 h with rfl | h
    · exact List.mem_append_left _ (List.mem_singleton_self _)
    · exact List.mem_append_right _ (ih h)

theorem mem_unixLines {c : Char} (hc : c ≠ '\r') {s : List Char} (h : c ∈ s) :
    c ∈ unixLines s := by
  fun_induction unixLines s with
  | case1 => exact h
  | case2 s ih =>
    rw [List.mem_cons] at h ⊢
    rcases h with rfl | h
    · exact absurd rfl hc
    · exact (List.mem_cons.1 h).imp id ih
  | case3 s _ ih =>
    rcases List.mem_cons.1 h with rfl | h
    · exact absurd rfl hc
    · exact List.mem_cons_of_mem _ (ih h)
  | case4 d s _ _ ih =>
    rw [List.mem_cons] at h ⊢
    exact h.imp id ih

end Assessment.Text

namespace Assessment.Markup.Entity

open Assessment.Text

/-! ## Brackets in decoded text -/

theorem mem_afterSemicolon {c : Char} (hc : c ≠ ';') {s : List Char} (h : c ∈ s) :
    c ∈ (afterSemicolon s).1 := by
  unfold afterSemicolon
  split
  · exact (List.mem_cons.1 h).resolve_left hc
  · exact h

theorem mem_of_number? {base : Nat} {isDigit : Char → Bool} {s rest : List Char} {found : Reference}
    {c : Char} (hdigit : isDigit c = false) (hc : c ≠ ';')
    (hfound : number? base isDigit s = some (found, rest)) (h : c ∈ s) : c ∈ rest := by
  simp only [number?] at hfound
  split at hfound
  · cases hfound
  · cases hfound
    exact mem_afterSemicolon hc (mem_dropWhile_of_not hdigit h)

theorem mem_of_name? {s rest : List Char} {found : Reference} {c : Char} (hname : isNameChar c = false)
    (hc : c ≠ ';') (hfound : name? s = some (found, rest)) (h : c ∈ s) : c ∈ rest := by
  simp only [name?] at hfound
  split at hfound
  · cases hfound
  · cases hfound
    generalize hpart : (s.takeWhile isNameChar).take 32 = name
    have hname' : ∀ d ∈ name, isNameChar d = true := by
      rw [← hpart]
      exact fun d hd => List.mem_takeWhile_imp (List.mem_of_mem_take hd)
    obtain ⟨more, hmore⟩ : name <+: s := by
      rw [← hpart]
      exact (List.take_prefix 32 _).trans (List.takeWhile_prefix isNameChar)
    refine mem_afterSemicolon hc ?_
    rw [← hmore, List.drop_left]
    rw [← hmore] at h
    rcases List.mem_append.1 h with h | h
    · rw [hname' c h] at hname
      cases hname
    · exact h

/-- No reference holds an opening bracket. -/
theorem mem_of_reference? {s rest : List Char} {found : Reference}
    (hfound : reference? s = some (found, rest)) (h : '<' ∈ s) : '<' ∈ rest := by
  unfold reference? at hfound
  split at hfound
  · exact mem_of_number? (by decide) (by decide) hfound (by simpa using h)
  · exact mem_of_number? (by decide) (by decide) hfound (by simpa using h)
  · exact mem_of_number? (by decide) (by decide) hfound (by simpa using h)
  · exact mem_of_name? (by decide) (by decide) hfound (by simpa using h)
  · cases hfound

/-- Decoding leaves opening brackets. -/
theorem mem_decode {s : List Char} (h : '<' ∈ s) : '<' ∈ decode s :=
  Recognizer.mem_replace mem_of_reference? Reference.text h

end Assessment.Markup.Entity

namespace Assessment.Highlight

open Assessment.Text Assessment.Markup

/-! ## What comes out -/

/-- Tidying leaves opening brackets. -/
theorem mem_tidy {code : List Char} (h : '<' ∈ code) : '<' ∈ tidy code := by
  have hmarked : '<' ∈ (after? ['\uFEFF'] code).getD code := by
    cases hafter : after? ['\uFEFF'] code with
    | none => exact h
    | some rest =>
      rw [after?_eq_some_iff.1 hafter] at h
      exact (List.mem_cons.1 h).resolve_left (by decide)
  have hlines := mem_dropWhile_of_not (p := isNewline) (by decide) (mem_unixLines (by decide) hmarked)
  have hend := mem_dropWhile_of_not (p := isNewline) (by decide) (List.mem_reverse.2 hlines)
  exact List.mem_reverse.2 hend

/-- Plain text is escaped, and ends in a line break if the code does. -/
theorem highlight_html_of_text {language : Option (List Char)}
    (h : (Lexer.ofLanguage language).1 = .text) (inlineStyles : Bool) (code : List Char) :
    (highlight inlineStyles code language).html =
      Html.escapeText (tidy code) ++ if code.getLast? == some '\n' then ['\n'] else [] := by
  unfold highlight
  dsimp only
  rw [h, Lexer.render]
  split
  · rfl
  · rw [List.append_nil]

/-- What comes out for plain text holds no tag. -/
theorem unbracketed_highlight {language : Option (List Char)}
    (h : (Lexer.ofLanguage language).1 = .text) (inlineStyles : Bool) (code : List Char) :
    Unbracketed (highlight inlineStyles code language).html := by
  rw [highlight_html_of_text h]
  refine (Html.unbracketed_escapeText _).append ?_
  split
  · decide
  · decide

/-- Something comes out for plain text with an opening bracket. -/
theorem highlight_ne_nil {language : Option (List Char)} (h : (Lexer.ofLanguage language).1 = .text)
    (inlineStyles : Bool) {code : List Char} (hcode : '<' ∈ code) :
    (highlight inlineStyles code language).html ≠ [] := by
  have hescaped : '&' ∈ Html.escapeText (tidy code) :=
    List.mem_flatMap.2 ⟨'<', mem_tidy hcode, by decide⟩
  rw [highlight_html_of_text h]
  exact List.append_ne_nil_of_left_ne_nil (List.ne_nil_of_mem hescaped) _

/-- The replies of the highlighter can always be read. -/
theorem read_highlighter (inlineStyles : Bool) (code : List Char) (language : Option (List Char)) :
    (highlighter inlineStyles code language).read =
      .ok (some (highlight inlineStyles code language).language,
        (highlight inlineStyles code language).html) := rfl

end Assessment.Highlight
