import Assessment.Proofs.Html.LastingTags
import Assessment.Proofs.Html.Opened

/-!
# Proofs: comments and sections that last

What is neither text nor a tag *lasts* if what is printed of it is read as one such thing again
(`LastingSpecial.exists_lexes`). Whatever is read lasts, with one exception: a marked section that is no
character data is printed as an instruction, and that ends at the first bracket in it.
-/

namespace Assessment.Html

open Assessment.Markup Assessment.Text

/-! ## Ends of comments and sections -/

/-- What follows two marks and a bracket, with white space between them where it may stand. -/
structure TwoMarks (mark : Char) (ending : List Char → Option (List Char)) : Prop where
  /-- There are two marks before the bracket, and what comes after it does not matter. -/
  exists_marks {s rest : List Char} (h : ending s = some rest) :
    ∃ marks, s = marks ++ '>' :: rest ∧ marks.head? = some mark ∧ marks.count mark = 2 ∧
      '>' ∉ marks ∧ ∀ other, ending (marks ++ '>' :: other) = some other
  /-- There need not be white space. -/
  plain (rest : List Char) : ending (mark :: mark :: '>' :: rest) = some rest

/-- White space before a character is skipped. -/
theorem dropWhile_takeWhile_isBlank {c : Char} (hc : isBlank c = false) (s rest : List Char) :
    (s.takeWhile isBlank ++ c :: rest).dropWhile isBlank = c :: rest :=
  (span_append_cons (p := isBlank) (fun _ hd => List.mem_takeWhile_imp hd) hc rest).2

theorem not_mem_takeWhile_isBlank {c : Char} (hc : isBlank c = false) (s : List Char) :
    c ∉ s.takeWhile isBlank := by
  intro hmem
  rw [List.mem_takeWhile_imp hmem] at hc
  cases hc

theorem afterCommentEnd?_eq_some {s rest : List Char} :
    Markup.afterCommentEnd? s = some rest ↔
      ∃ t, s = '-' :: '-' :: t ∧ t.dropWhile isBlank = '>' :: rest := by
  unfold Markup.afterCommentEnd?
  constructor
  · intro h
    split at h
    · next t ht =>
      split at h
      · next hrest =>
        cases h
        exact ⟨t, after?_eq_some_iff.1 ht, hrest⟩
      · cases h
    · cases h
  · rintro ⟨t, rfl, hrest⟩
    have hafter : after? "--".toList ('-' :: '-' :: t) = some t := rfl
    simp only [hafter, hrest]

theorem twoMarks_comment : TwoMarks '-' Markup.afterCommentEnd? where
  exists_marks {s rest} h := by
    obtain ⟨t, rfl, hrest⟩ := afterCommentEnd?_eq_some.1 h
    have hdash := not_mem_takeWhile_isBlank (by decide : isBlank '-' = false) t
    have hbracket := not_mem_takeWhile_isBlank (by decide : isBlank '>' = false) t
    refine ⟨'-' :: '-' :: t.takeWhile isBlank, ?_, rfl, ?_, ?_, fun other => ?_⟩
    · rw [← hrest, List.cons_append, List.cons_append, List.takeWhile_append_dropWhile]
    · rw [List.count_cons_self, List.count_cons_self, List.count_eq_zero_of_not_mem hdash]
    · simpa using hbracket
    · exact afterCommentEnd?_eq_some.2 ⟨_, rfl, dropWhile_takeWhile_isBlank (by decide) t other⟩
  plain rest := afterCommentEnd?_eq_some.2 ⟨'>' :: rest, rfl, List.dropWhile_cons_of_neg (by decide)⟩

theorem afterSectionEnd?_eq_some {s rest : List Char} :
    Markup.afterSectionEnd? s = some rest ↔
      ∃ t u, s = ']' :: t ∧ t.dropWhile isBlank = ']' :: u ∧ u.dropWhile isBlank = '>' :: rest := by
  unfold Markup.afterSectionEnd?
  constructor
  · intro h
    split at h
    · next t =>
      unfold Markup.afterShortEnd? at h
      split at h
      · next u hu =>
        split at h
        · next hrest =>
          cases h
          exact ⟨t, u, rfl, hu, hrest⟩
        · cases h
      · cases h
    · cases h
  · rintro ⟨t, u, rfl, hu, hrest⟩
    simp only [hu, Markup.afterShortEnd?, hrest]

theorem twoMarks_section : TwoMarks ']' Markup.afterSectionEnd? where
  exists_marks {s rest} h := by
    obtain ⟨t, u, rfl, hu, hrest⟩ := afterSectionEnd?_eq_some.1 h
    have hmark := not_mem_takeWhile_isBlank (by decide : isBlank ']' = false)
    have hbracket := not_mem_takeWhile_isBlank (by decide : isBlank '>' = false)
    refine ⟨']' :: (t.takeWhile isBlank ++ ']' :: u.takeWhile isBlank), ?_, rfl, ?_, ?_, fun other => ?_⟩
    · rw [List.cons_append, List.append_assoc, List.cons_append, ← hrest,
        List.takeWhile_append_dropWhile, ← hu, List.takeWhile_append_dropWhile]
    · rw [List.count_cons_self, List.count_append, List.count_cons_self,
        List.count_eq_zero_of_not_mem (hmark t), List.count_eq_zero_of_not_mem (hmark u)]
    · simpa using ⟨hbracket t, hbracket u⟩
    · rw [List.cons_append, List.append_assoc, List.cons_append]
      exact afterSectionEnd?_eq_some.2 ⟨_, _, rfl, dropWhile_takeWhile_isBlank (by decide) t _,
        dropWhile_takeWhile_isBlank (by decide) u other⟩
  plain rest := afterSectionEnd?_eq_some.2 ⟨']' :: '>' :: rest, '>' :: rest, rfl,
    List.dropWhile_cons_of_neg (by decide), List.dropWhile_cons_of_neg (by decide)⟩

/-- What is cut off a text is its beginning. -/
theorem prefix_of_cutWhere? {p : List Char → Option (List Char)} {s before rest : List Char}
    (h : cutWhere? p s = some (before, rest)) : before <+: s := by
  induction s generalizing before with
  | nil => cases h
  | cons c s ih =>
    rw [cutWhere?] at h
    split at h
    · cases h
      exact List.nil_prefix
    · obtain ⟨⟨inside, after⟩, hinside, hpair⟩ := Option.map_eq_some_iff.1 h
      cases hpair
      exact List.cons_prefix_cons.2 ⟨rfl, ih hinside⟩

/-- Nowhere in the text does an end start. -/
def NoEnd (ending : List Char → Option (List Char)) (s : List Char) : Prop :=
  ∀ t, t <:+ s → ending t = none

namespace TwoMarks

variable {mark : Char} {ending : List Char → Option (List Char)} (h : TwoMarks mark ending)

include h

theorem noEnd_of_not_mem {s : List Char} (hs : '>' ∉ s) : NoEnd ending s := by
  intro t ht
  cases hend : ending t with
  | none => rfl
  | some rest =>
    obtain ⟨marks, rfl, -⟩ := h.exists_marks hend
    exact absurd (ht.subset (by simp)) hs

theorem append {s rest : List Char} (hend : ending s = some rest) (t : List Char) :
    ending (s ++ t) = some (rest ++ t) := by
  obtain ⟨marks, rfl, -, -, -, hother⟩ := h.exists_marks hend
  rw [List.append_assoc, List.cons_append, hother]

/-- What stands before the first end holds no end. -/
theorem noEnd_of_cutWhere? {s before rest : List Char} (hcut : cutWhere? ending s = some (before, rest)) :
    NoEnd ending before := by
  induction s generalizing before with
  | nil => cases hcut
  | cons c s ih =>
    rw [cutWhere?] at hcut
    split at hcut
    · cases hcut
      exact h.noEnd_of_not_mem List.not_mem_nil
    · next hnone =>
      obtain ⟨⟨inside, after⟩, hinside, hpair⟩ := Option.map_eq_some_iff.1 hcut
      cases hpair
      obtain ⟨after, rfl⟩ := prefix_of_cutWhere? hinside
      intro t ht
      rcases List.suffix_cons_iff.1 ht with rfl | ht
      · cases hend : ending (c :: inside) with
        | none => rfl
        | some rest =>
          rw [← List.cons_append, h.append hend] at hnone
          cases hnone
      · exact ih hinside t ht

/-- No end starts in a text and goes on in the plain end after it. -/
theorem ending_append_of_none (hmark : mark ≠ '>') {s : List Char} (hne : s ≠ [])
    (hnone : ending s = none) (rest : List Char) :
    ending (s ++ mark :: mark :: '>' :: rest) = none := by
  cases hend : ending (s ++ mark :: mark :: '>' :: rest) with
  | none => rfl
  | some after =>
    obtain ⟨marks, heq, hhead, hcount, -, hother⟩ := h.exists_marks hend
    rcases List.append_eq_append_iff.1 heq with ⟨more, rfl, hmore⟩ | ⟨more, rfl, hmore⟩
    -- If the bracket comes after the text, so do two marks, and the text starts with a third one.
    · obtain ⟨u, rfl⟩ : ∃ u, more = mark :: mark :: u := by
        cases more with
        | nil => exact absurd (List.cons.inj hmore).1 hmark
        | cons c more =>
          obtain ⟨hc, hmore⟩ := List.cons.inj hmore
          cases more with
          | nil => exact absurd (List.cons.inj hmore).1 hmark
          | cons d more =>
            obtain ⟨hd, -⟩ := List.cons.inj hmore
            exact ⟨more, by rw [← hc, ← hd]⟩
      obtain ⟨c, s, rfl⟩ := List.exists_cons_of_ne_nil hne
      obtain rfl : c = mark := Option.some.inj hhead
      rw [List.count_append, List.count_cons_self, List.count_cons_self, List.count_cons_self] at hcount
      omega
    · cases more with
      | nil => exact absurd (List.cons.inj hmore).1.symm hmark
      | cons c more =>
        obtain ⟨rfl, -⟩ := List.cons.inj hmore
        rw [hother more] at hnone
        cases hnone

/-- A text that holds no end goes up to the plain end after it. -/
theorem cutWhere?_append (hmark : mark ≠ '>') {s : List Char} (hs : NoEnd ending s) (rest : List Char) :
    cutWhere? ending (s ++ mark :: mark :: '>' :: rest) = some (s, rest) := by
  induction s with
  | nil => rw [List.nil_append, cutWhere?, h.plain]
  | cons c s ih =>
    have hhere := h.ending_append_of_none hmark (List.cons_ne_nil c s) (hs _ (List.suffix_refl _)) rest
    have hrest := ih fun t ht => hs t (ht.trans (List.suffix_cons c s))
    rw [List.cons_append] at hhere ⊢
    rw [cutWhere?, hhere, hrest]
    rfl

end TwoMarks

/-! ## What lasts -/

/-- What is printed of it is read as one thing that is neither text nor a tag. -/
def LastingSpecial : Special → List Char → Prop
  | .comment, s => NoEnd Markup.afterCommentEnd? s
  | .data, s => NoEnd Markup.afterSectionEnd? s
  | .declaration, s => '>' ∉ s
  | .instruction, s => '>' ∉ s
  | .doctype, s => '>' ∉ s

theorem lastingSpecial_of_not_mem {s : List Char} (h : '>' ∉ s) (kind : Special) :
    LastingSpecial kind s := by
  cases kind with
  | comment => exact twoMarks_comment.noEnd_of_not_mem h
  | data => exact twoMarks_section.noEnd_of_not_mem h
  | declaration => exact h
  | instruction => exact h
  | doctype => exact h

/-- What a token makes lasts, marked sections that are no character data apart. -/
def Token.Lasting : Token → Prop
  | .text _ => True
  | .special kind s => kind ≠ .declaration → LastingSpecial kind s
  | .startTag name attributes _ => LastingTag name attributes
  | .endTag _ => True

namespace Markup

theorem lasting_endTagOf {inside : List Char} (h : '>' ∉ inside) : (endTagOf inside).Lasting := by
  unfold endTagOf
  dsimp only
  split
  · trivial
  · split
    · trivial
    · split
      · trivial
      · exact fun _ => lastingSpecial_of_not_mem h .comment

theorem lasting_readEndTag {s rest : List Char} {token : Token} (h : readEndTag s = .found token rest) :
    token.Lasting := by
  unfold readEndTag at h
  split at h
  · next hcut =>
    cases h
    exact lasting_endTagOf (not_mem_of_cutAtChar? hcut)
  · cases h

theorem lasting_readInstruction {s rest : List Char} {token : Token}
    (h : readInstruction s = .found token rest) : token.Lasting := by
  unfold readInstruction at h
  split at h
  · next hcut =>
    cases h
    exact fun _ => not_mem_of_cutAtChar? hcut
  · cases h

theorem lasting_readBogusComment {s rest : List Char} {token : Token}
    (h : readBogusComment s = .found token rest) : token.Lasting := by
  unfold readBogusComment at h
  split at h
  · next hcut =>
    cases h
    exact fun _ => lastingSpecial_of_not_mem (not_mem_of_cutAtChar? hcut) .comment
  · cases h

theorem lasting_readDoctype {s rest : List Char} {token : Token} (h : readDoctype s = .found token rest) :
    token.Lasting := by
  unfold readDoctype at h
  split at h
  · next hcut =>
    cases h
    exact fun _ hmem => not_mem_of_cutAtChar? hcut (List.mem_of_mem_drop hmem)
  · cases h

theorem lasting_readComment {s rest : List Char} {token : Token} (h : readComment s = .found token rest) :
    token.Lasting := by
  unfold readComment at h
  split at h
  · next hcut =>
    cases h
    exact fun _ => twoMarks_comment.noEnd_of_cutWhere? hcut
  · cases h

/-! ### Marked sections -/

theorem isSectionNameChar_toLower (c : Char) : isSectionNameChar c.toLower = isSectionNameChar c := by
  by_cases hascii : c.toNat < 0x80
  · exact @forall_ascii (fun d => isSectionNameChar d.toLower = isSectionNameChar d) (by decide) c hascii
  · rw [toLower_of_not_ascii hascii]

/-- The name of a section of character data is known by what it begins with. -/
theorem sectionName_of_data {inside s : List Char}
    (h : (inside.take "cdata[".toList.length).map Char.toLower = "cdata[".toList) (hs : inside <+: s) :
    (s.takeWhile isSectionNameChar).map Char.toLower = "cdata".toList := by
  obtain ⟨after, rfl⟩ := hs
  have hstart : (inside ++ after).map Char.toLower =
      "cdata[".toList ++ (inside.drop "cdata[".toList.length ++ after).map Char.toLower :=
    calc (inside ++ after).map Char.toLower
        = (inside.take "cdata[".toList.length).map Char.toLower ++
            (inside.drop "cdata[".toList.length ++ after).map Char.toLower := by
          rw [← List.map_append, ← List.append_assoc, List.take_append_drop]
      _ = "cdata[".toList ++ (inside.drop "cdata[".toList.length ++ after).map Char.toLower := by
          rw [h]
  have hfold : isSectionNameChar ∘ Char.toLower = isSectionNameChar :=
    funext isSectionNameChar_toLower
  rw [← hfold, ← List.takeWhile_map, hstart]
  rfl

/-- A section up to an end of one kind lasts if it does where it holds character data. -/
theorem lasting_readSectionTo {ending : List Char → Option (List Char)} {s rest : List Char} {token : Token}
    (hdata : ∀ {inside after : List Char}, cutWhere? ending s = some (inside, after) →
      (inside.take "cdata[".toList.length).map Char.toLower = "cdata[".toList →
        LastingSpecial .data (inside.drop "cdata[".toList.length))
    (h : readSectionTo ending s = .found token rest) : token.Lasting := by
  unfold readSectionTo sectionOf at h
  split at h
  · next hcut =>
    cases h
    dsimp only
    split
    · next hword => exact fun _ => hdata hcut (eq_of_beq hword)
    · exact fun hne => absurd rfl hne
  · cases h

theorem lasting_readSection {s rest : List Char} {token : Token} (h : readSection s = .found token rest) :
    token.Lasting := by
  unfold readSection at h
  split at h
  · cases h
  · split at h
    · cases h
    · split at h
      · cases h
      · dsimp only at h
        split at h
        · refine lasting_readSectionTo (fun hcut _ => ?_) h
          exact fun t ht =>
            twoMarks_section.noEnd_of_cutWhere? hcut t (ht.trans (List.drop_suffix _ _))
        · split at h
          -- Sections of character data have no such name.
          · next hshort =>
            refine lasting_readSectionTo (fun hcut hword => ?_) h
            rw [sectionName_of_data hword (prefix_of_cutWhere? hcut)] at hshort
            cases hshort
          · cases h

theorem lasting_readDeclaration {s rest : List Char} {token : Token}
    (h : readDeclaration s = .found token rest) : token.Lasting := by
  unfold readDeclaration at h
  split at h
  · exact lasting_readComment h
  · exact lasting_readSection h
  · split at h
    · exact lasting_readDoctype h
    · exact lasting_readBogusComment h

/-- Whatever an opening bracket begins makes something that lasts. -/
theorem lasting_read {s rest : List Char} {token : Token} (h : read s = .found token rest) :
    token.Lasting := by
  unfold read at h
  split at h
  · cases h
  · exact lasting_readEndTag h
  · exact lasting_readInstruction h
  · exact lasting_readDeclaration h
  · split at h
    · next hc =>
      rcases StartTag.lastingTag_of_read hc h with ⟨text, rfl⟩ | ⟨name, attributes, closed, rfl, htag⟩
      · trivial
      · exact htag
    · cases h
      trivial

end Markup

namespace Step

theorem lasting_atMarkup {last : Bool} {s rest : List Char} {token : Token}
    (h : atMarkup last s = .read token rest) : token.Lasting := by
  unfold atMarkup at h
  split at h
  · cases h
  · split at h
    · next hread =>
      cases h
      exact Markup.lasting_read hread
    · cases h
    · split at h
      · cases h
        trivial
      · cases h

/-- What an ampersand begins is text. -/
theorem lasting_atReference {last : Bool} {s rest : List Char} {token : Token}
    (h : atReference last s = .read token rest) : token.Lasting := by
  unfold atReference at h
  split at h
  · cases h
  · split at h
    · cases h
      trivial
    · split at h
      · cases h
      · cases h
  · split at h
    · cases h
      trivial
    · split at h
      · split at h
        · cases h
        · cases h
      · cases h
        trivial

/-- What is read where text is markup makes something that lasts. -/
theorem lasting_inMarkup {last : Bool} {s rest : List Char} {token : Token}
    (h : inMarkup last s = .read token rest) : token.Lasting := by
  unfold inMarkup at h
  split at h
  · cases h
  · exact lasting_atMarkup h
  · exact lasting_atReference h
  · cases h
    trivial

end Step

/-! ## Reading what is printed -/

theorem readAs_comment {s : List Char} (h : NoEnd Markup.afterCommentEnd? s) :
    ReadAs (writeSpecial .comment s) (.special .comment s) := by
  refine @readAs_of_read '!' ('-' :: '-' :: (s ++ "-->".toList)) _ fun rest => ?_
  show Markup.readComment (s ++ "-->".toList ++ rest) = _
  have hcut : cutWhere? Markup.afterCommentEnd? (s ++ ("-->".toList ++ rest)) = some (s, rest) :=
    twoMarks_comment.cutWhere?_append (by decide) h rest
  rw [List.append_assoc, Markup.readComment, hcut]

/-- No end starts in the opening of a section of character data. -/
theorem noEnd_opening {s : List Char} (h : NoEnd Markup.afterSectionEnd? s) :
    NoEnd Markup.afterSectionEnd? ("CDATA[".toList ++ s) := by
  have hcons {c : Char} (hc : c ≠ ']') {t : List Char} (ht : NoEnd Markup.afterSectionEnd? t) :
      NoEnd Markup.afterSectionEnd? (c :: t) := by
    intro u hu
    rcases List.suffix_cons_iff.1 hu with rfl | hu
    · unfold Markup.afterSectionEnd?
      split
      · next heq => exact absurd (List.cons.inj heq).1 hc
      · rfl
    · exact ht u hu
  exact hcons (by decide) <| hcons (by decide) <| hcons (by decide) <| hcons (by decide) <|
    hcons (by decide) <| hcons (by decide) h

theorem readAs_data {s : List Char} (h : NoEnd Markup.afterSectionEnd? s) :
    ReadAs (writeSpecial .data s) (.special .data s) := by
  refine @readAs_of_read '!' ('[' :: ("CDATA[".toList ++ s ++ "]]>".toList)) _ fun rest => ?_
  have hcut : cutWhere? Markup.afterSectionEnd? ("CDATA[".toList ++ s ++ ("]]>".toList ++ rest)) =
      some ("CDATA[".toList ++ s, rest) :=
    twoMarks_section.cutWhere?_append (by decide) (noEnd_opening h) rest
  have hto : Markup.readSectionTo Markup.afterSectionEnd?
      ("CDATA[".toList ++ s ++ ("]]>".toList ++ rest)) = .found (.special .data s) rest := by
    rw [Markup.readSectionTo, hcut]
    rfl
  show Markup.readSection ("CDATA[".toList ++ s ++ "]]>".toList ++ rest) = _
  rw [List.append_assoc _ _ rest]
  exact hto

theorem readAs_instruction {s : List Char} (h : '>' ∉ s) :
    ReadAs (writeSpecial .instruction s) (.special .instruction s) := by
  refine @readAs_of_read '?' (s ++ ['>']) _ fun rest => ?_
  show Markup.readInstruction (s ++ ['>'] ++ rest) = _
  rw [List.append_assoc, List.singleton_append, Markup.readInstruction, cutAtChar?_append_cons h]

theorem readAs_doctype {s : List Char} (h : '>' ∉ s) :
    ReadAs ("<!DOCTYPE ".toList ++ s ++ ['>']) (.special .doctype s) := by
  have hinside : '>' ∉ ' ' :: s := by simpa using h
  refine @readAs_of_read '!' ("DOCTYPE ".toList ++ s ++ ['>']) _ fun rest => ?_
  show Markup.readDoctype (' ' :: s ++ ['>'] ++ rest) = _
  rw [List.append_assoc, List.singleton_append, Markup.readDoctype, cutAtChar?_append_cons hinside]
  rfl

/-- What lasts is read as something that opens no element. -/
theorem LastingSpecial.exists_lexes {kind : Special} {s : List Char} (h : LastingSpecial kind s) :
    ∃ tokens, Lexes (writeSpecial kind s) tokens ∧ tokens.filterMap Token.opened? = [] := by
  cases kind with
  | comment => exact ⟨_, (readAs_comment h).lexes rfl, rfl⟩
  | data => exact ⟨_, (readAs_data h).lexes rfl, rfl⟩
  | declaration =>
    have hmark : '>' ∉ s ++ ['?'] := fun hmem =>
      (List.mem_append.1 hmem).elim h fun hlast => absurd hlast (by decide)
    have hend : "?>".toList = ['?'] ++ ">".toList := by decide
    have hsame : writeSpecial .declaration s = writeSpecial .instruction (s ++ ['?']) :=
      calc "<?".toList ++ s ++ "?>".toList
          = "<?".toList ++ s ++ (['?'] ++ ">".toList) := congrArg ("<?".toList ++ s ++ ·) hend
        _ = "<?".toList ++ s ++ ['?'] ++ ">".toList := (List.append_assoc _ _ _).symm
        _ = "<?".toList ++ (s ++ ['?']) ++ ">".toList :=
            congrArg (· ++ ">".toList) (List.append_assoc _ _ _)
    exact ⟨_, hsame ▸ (readAs_instruction hmark).lexes rfl, rfl⟩
  | instruction => exact ⟨_, (readAs_instruction h).lexes rfl, rfl⟩
  | doctype =>
    have hbreak := @lexes_singleton '\n' (by decide)
    have hend : ">\n".toList = ['>'] ++ ['\n'] := by decide
    have hsame : writeSpecial .doctype s = "<!DOCTYPE ".toList ++ s ++ ['>'] ++ ['\n'] :=
      calc "<!DOCTYPE ".toList ++ s ++ ">\n".toList
          = "<!DOCTYPE ".toList ++ s ++ (['>'] ++ ['\n']) := congrArg ("<!DOCTYPE ".toList ++ s ++ ·) hend
        _ = "<!DOCTYPE ".toList ++ s ++ ['>'] ++ ['\n'] := (List.append_assoc _ _ _).symm
    exact ⟨_, hsame ▸ ((readAs_doctype h).lexes rfl).append hbreak, rfl⟩

end Assessment.Html
