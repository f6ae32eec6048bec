import Assessment.Proofs.Markup.RawTag

/-!
# Proofs: the text that HTML displays

HTML displays the characters that are written between its tags, of which some are written as references.
`Displays W html text` says this by the shape of the HTML, where `W` says how a character may be written,
and `decode_stripTags_of_displays` that the text is what decoding the HTML without its tags gives. Decoding
two texts one by one and together may differ, so a replacement in HTML must not cut a written character:
what is recognised between tags does not (`Whole.displays_replace`).
-/

namespace Assessment.Text

/-- A text without a character ends before the first one that another text goes on with. -/
theorem exists_of_append_eq_append_cons {mark : Char} {s rest front back : List Char} (hs : mark ∉ s)
    (h : s ++ rest = front ++ mark :: back) : ∃ more, front = s ++ more ∧ rest = more ++ mark :: back := by
  rcases List.append_eq_append_iff.1 h with ⟨more, hfront, hrest⟩ | ⟨more, hlonger, hback⟩
  · exact ⟨more, hfront, hrest⟩
  · cases more with
    | nil =>
      rw [List.append_nil] at hlonger
      exact ⟨[], by rw [hlonger, List.append_nil], hback.symm⟩
    | cons c more =>
      rw [List.cons_append, List.cons.injEq] at hback
      rw [hlonger, ← hback.1] at hs
      simp at hs

end Assessment.Text

namespace Assessment.Markup

open Assessment.Text

/-- A relation between characters and the ways to write them. -/
structure Writing (W : Char → List Char → Prop) : Prop where
  /-- What is written holds no bracket. -/
  unbracketed : ∀ {c : Char} {written : List Char}, W c written → Unbracketed written
  /-- What is written is decoded to the character, whatever follows. -/
  decode_append : ∀ {c : Char} {written : List Char}, W c written → ∀ rest : List Char,
    Entity.decode (written ++ rest) = c :: Entity.decode rest

/-- A character is written as escaping writes it. -/
def Escaped (c : Char) (written : List Char) : Prop := written = escapeChar c

theorem writing_escaped : Writing Escaped where
  unbracketed := by
    rintro c written rfl
    simpa [escape] using unbracketed_escape [c]
  decode_append := by
    rintro c written rfl
    exact Entity.decode_escapeChar_append c

theorem Writing.ne_nil {W : Char → List Char → Prop} (hW : Writing W) {c : Char} {written : List Char}
    (h : W c written) : written ≠ [] := by
  rintro rfl
  have hempty := hW.decode_append h []
  simp at hempty

/-- The HTML is made of tags and of written characters, and the text is these characters. -/
inductive Displays (W : Char → List Char → Prop) : List Char → List Char → Prop where
  | nil : Displays W [] []
  | char {c : Char} {written html text : List Char} (hc : W c written) (h : Displays W html text) :
      Displays W (written ++ html) (c :: text)
  | tag {tag html text : List Char} (htag : IsTag tag) (h : Displays W html text) :
      Displays W (tag ++ html) text

namespace Displays

variable {W : Char → List Char → Prop} {html text : List Char}

theorem append {more others : List Char} (h : Displays W html text) (hmore : Displays W more others) :
    Displays W (html ++ more) (text ++ others) := by
  induction h with
  | nil => exact hmore
  | char hc _ ih =>
    rw [List.append_assoc]
    exact .char hc ih
  | tag htag _ ih =>
    rw [List.append_assoc]
    exact .tag htag ih

theorem of_isTag {tag : List Char} (h : IsTag tag) : Displays W tag [] := by
  simpa using Displays.tag h .nil

/-- A text that is written character by character is displayed. -/
theorem of_flatMap {f : Char → List Char} {s : List Char} (h : ∀ c ∈ s, W c (f c)) :
    Displays W (s.flatMap f) s := by
  induction s with
  | nil => exact .nil
  | cons c s ih =>
    obtain ⟨hc, hs⟩ := List.forall_mem_cons.1 h
    exact .char hc (ih hs)

theorem mono {V : Char → List Char → Prop} (hV : ∀ {c : Char} {written : List Char},
    W c written → V c written) (h : Displays W html text) : Displays V html text := by
  induction h with
  | nil => exact .nil
  | char hc _ ih => exact .char (hV hc) ih
  | tag htag _ ih => exact .tag htag ih

/-- HTML that shows nothing displays nothing. -/
theorem of_shows_nil (h : Shows html []) : Displays W html [] := by
  generalize htext : ([] : List Char) = text at h
  induction h with
  | nil => exact .nil
  | char => cases htext
  | tag htag _ ih => exact .tag htag (ih htext)

/-- HTML that displays a text as escaping writes it shows the escaped text. -/
theorem shows_escape (h : Displays Escaped html text) : Shows html (escape text) := by
  induction h with
  | nil => exact .nil
  | @char c written html text hc _ ih =>
    rw [escape_cons, ← hc]
    exact (Shows.of_unbracketed (writing_escaped.unbracketed hc)).append ih
  | tag htag _ ih => exact .tag htag ih

theorem eq_nil (hW : Writing W) (h : Displays W [] text) : text = [] := by
  generalize hhtml : ([] : List Char) = html at h
  cases h with
  | nil => rfl
  | char hc _ => exact absurd (List.append_eq_nil_iff.1 hhtml.symm).1 (hW.ne_nil hc)
  | tag htag _ =>
    obtain ⟨tail, rfl, -⟩ := htag.exists_tail
    cases hhtml

/-- What HTML shows is decoded to what it displays. -/
theorem exists_shows (hW : Writing W) (h : Displays W html text) :
    ∃ shown, Shows html shown ∧ Entity.decode shown = text := by
  induction h with
  | nil => exact ⟨[], .nil, Entity.decode_nil⟩
  | @char c written html text hc _ ih =>
    obtain ⟨shown, hshown, rfl⟩ := ih
    refine ⟨written ++ shown, ?_, hW.decode_append hc shown⟩
    exact (Shows.of_unbracketed (hW.unbracketed hc)).append hshown
  | tag htag _ ih =>
    obtain ⟨shown, hshown, htext⟩ := ih
    exact ⟨shown, .tag htag hshown, htext⟩

/-! ## Cutting -/

/-- HTML is cut in front of an opening bracket into HTML. -/
theorem exists_split (hW : Writing W) {front back : List Char}
    (h : Displays W (front ++ '<' :: back) text) :
    ∃ shown left, text = shown ++ left ∧ Displays W front shown ∧ Displays W ('<' :: back) left := by
  generalize hhtml : front ++ '<' :: back = html at h
  induction h generalizing front with
  | nil => simp at hhtml
  | @char c written html text hc h ih =>
    have hwritten : '<' ∉ written := fun hmem => (hW.unbracketed hc _ hmem).1 rfl
    obtain ⟨more, rfl, hmore⟩ := exists_of_append_eq_append_cons hwritten hhtml.symm
    obtain ⟨shown, left, rfl, hshown, hleft⟩ := ih hmore.symm
    exact ⟨c :: shown, left, rfl, .char hc hshown, hleft⟩
  | @tag tag html text htag h ih =>
    cases front with
    | nil =>
      rw [List.nil_append] at hhtml
      exact ⟨[], text, rfl, .nil, hhtml ▸ .tag htag h⟩
    | cons c front =>
      obtain ⟨tail, rfl, htail⟩ := htag.exists_tail
      obtain ⟨rfl, hrest⟩ := List.cons.inj hhtml
      have hmem : '<' ∉ tail := fun hmem => htail _ hmem rfl
      obtain ⟨more, rfl, hmore⟩ := exists_of_append_eq_append_cons hmem hrest.symm
      obtain ⟨shown, left, rfl, hshown, hleft⟩ := ih hmore.symm
      exact ⟨shown, left, rfl, .tag htag hshown, hleft⟩

/-- A tag in front of HTML displays nothing. -/
theorem of_isTag_append (hW : Writing W) {tag : List Char} (htag : IsTag tag)
    (h : Displays W (tag ++ html) text) : Displays W html text := by
  obtain ⟨tail, htail, -⟩ := htag.exists_tail
  generalize hhtml : tag ++ html = whole at h
  cases h with
  | nil => simp [htail] at hhtml
  | @char c written html' text hc h =>
    have hwritten : '<' ∉ written := fun hmem => (hW.unbracketed hc _ hmem).1 rfl
    rw [htail, List.cons_append, ← List.nil_append ('<' :: _)] at hhtml
    obtain ⟨more, hnil, -⟩ := exists_of_append_eq_append_cons hwritten hhtml.symm
    exact absurd (List.append_eq_nil_iff.1 hnil.symm).1 (hW.ne_nil hc)
  | tag htag' h =>
    obtain ⟨-, rfl⟩ := htag.append_inj htag' hhtml
    exact h

/-- HTML is cut behind a tag into HTML. -/
theorem exists_split_tag (hW : Writing W) {front tag back : List Char} (htag : IsTag tag)
    (h : Displays W (front ++ tag ++ back) text) :
    ∃ shown left, text = shown ++ left ∧ Displays W front shown ∧ Displays W back left := by
  obtain ⟨tail, htail, -⟩ := htag.exists_tail
  have hhtml : front ++ tag ++ back = front ++ '<' :: (tail ++ back) := by
    rw [htail, List.append_assoc, List.cons_append]
  rw [hhtml] at h
  obtain ⟨shown, left, rfl, hshown, hleft⟩ := h.exists_split hW
  rw [← List.cons_append, ← htail] at hleft
  exact ⟨shown, left, rfl, hshown, hleft.of_isTag_append hW htag⟩

/-- A tag behind HTML displays nothing. -/
theorem of_append_isTag (hW : Writing W) {tag : List Char} (htag : IsTag tag)
    (h : Displays W (html ++ tag) text) : Displays W html text := by
  obtain ⟨tail, htail, -⟩ := htag.exists_tail
  rw [htail] at h
  obtain ⟨shown, left, rfl, hshown, hleft⟩ := h.exists_split hW
  rw [← htail, ← List.append_nil tag] at hleft
  rw [(hleft.of_isTag_append hW htag).eq_nil hW, List.append_nil]
  exact hshown

end Displays

/-- HTML without its tags is decoded to what it displays. -/
theorem decode_stripTags_of_displays {W : Char → List Char → Prop} (hW : Writing W)
    {html text : List Char} (h : Displays W html text) : Entity.decode (stripTags html) = text := by
  obtain ⟨shown, hshown, htext⟩ := h.exists_shows hW
  rw [stripTags_of_shows hshown, htext]

/-- HTML that displays a text and holds no tag is decoded to it. -/
theorem decode_of_displays {W : Char → List Char → Prop} (hW : Writing W)
    {html text : List Char} (h : Displays W html text) (hhtml : '<' ∉ html) :
    Entity.decode html = text := by
  induction h with
  | nil => exact Entity.decode_nil
  | char hc _ ih => rw [hW.decode_append hc, ih fun hmem => hhtml (List.mem_append_right _ hmem)]
  | tag htag _ _ =>
    obtain ⟨tail, rfl, -⟩ := htag.exists_tail
    simp at hhtml

/-! ## Replacing -/

section Replacing

variable {α : Type} {p : Recognizer α} {Q : α → List Char → Prop} {W : Char → List Char → Prop}

/-- A replacement leaves the text that HTML displays if it does so at each match. Every match ends in a
tag. -/
theorem Whole.displays_replace (hp : Whole p Q) (hW : Writing W) {source f : α → List Char}
    (hsource : ∀ {s rest : List Char} {a : α}, p.run s = some (a, rest) → s = source a ++ rest)
    (hends : ∀ {a : α} {shown : List Char}, Q a shown →
      ∃ front tag, IsTag tag ∧ source a = front ++ tag)
    {html text : List Char} (h : Displays W html text)
    (hf : ∀ a ∈ p.findAll html, ∀ {shown displayed : List Char}, Q a shown →
      Displays W (source a) displayed → Displays W (f a) displayed) :
    Displays W (p.replace f html) text := by
  -- A match can swallow several tags, so the induction is on the length and not on `h`.
  induction hn : html.length using Nat.strongRecOn generalizing html text with
  | ind n ih =>
    subst hn
    have hpassed {before rest left : List Char} (hhtml : html = before ++ rest) (hsome : before ≠ [])
        (hpieces : p.pieces html = before.map .char ++ p.pieces rest) (hrest : Displays W rest left) :
        Displays W (p.replace f rest) left := by
      have hpos := List.length_pos_iff.2 hsome
      refine ih rest.length ?_ hrest (fun a ha => hf a ?_) rfl
      · rw [hhtml, List.length_append]
        omega
      · rwa [Recognizer.findAll_of_pieces hpieces]
    cases hrun : p.run html with
    | some found =>
      obtain ⟨a, rest⟩ := found
      obtain ⟨raw, hraw, -⟩ := h.exists_shows hW
      obtain ⟨shown, -, -, ha, -⟩ := hp.splits hraw hrun
      obtain ⟨front, tag, htag, hfront⟩ := hends ha
      have hhtml := hsource hrun
      rw [hhtml, hfront] at h
      obtain ⟨displayed, left, rfl, hdisplayed, hleft⟩ := h.exists_split_tag hW htag
      have hfound := p.findAll_of_run hrun
      rw [Recognizer.replace_of_run f hrun]
      refine .append (hf a ?_ ha ?_) (ih rest.length (p.shorter hrun) hleft (fun b hb => hf b ?_) rfl)
      · rw [hfound]
        exact List.mem_cons_self
      · rw [hfront]
        simpa using hdisplayed.append (.of_isTag htag)
      · rw [hfound]
        exact List.mem_cons_of_mem a hb
    | none =>
      cases h with
      | nil => simpa [Recognizer.replace] using Displays.nil
      | @char c written html text hc h =>
        have hpieces := p.pieces_append_of_starts hp.starts
          (fun d hd => (hW.unbracketed hc d hd).1) html
        rw [Recognizer.replace_of_pieces f hpieces]
        exact .char hc (hpassed rfl (hW.ne_nil hc) hpieces h)
      | @tag tag html text htag h =>
        have hpieces := pieces_tag_append hp.starts htag hrun
        rw [Recognizer.replace_of_pieces f hpieces]
        have hsome : tag ≠ [] := by
          obtain ⟨tail, rfl, -⟩ := htag.exists_tail
          exact List.cons_ne_nil _ _
        exact .tag htag (hpassed rfl hsome hpieces h)

end Replacing

end Assessment.Markup
