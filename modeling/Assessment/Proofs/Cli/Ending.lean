import Assessment.Cli.Run
import Assessment.Proofs.Images.Redirecting
import Assessment.Proofs.Report.Undeclared
import Assessment.Proofs.Responses.Filling
import Assessment.Proofs.Xml.Faults

/-!
# Proofs: how the program ends

With its usual settings, the program ends cleanly on every file that is text: it writes one record, or it
writes nothing and says so by its status (`run_ends_cleanly_on_text`). Each step is shown to fail only for
reasons that lie in the item, and the HTML of a record that was rendered can always be read again, so that
nothing is left to go wrong when the images are redirected.

A file that cannot be read at all ends the program cleanly too, but a file that is no text breaks it off:
only the first of these two failures is handled (`undecodable_file_breaks_off`).
-/

namespace Assessment.Cli

open Assessment.Text

/-- The view of a record. -/
def Record.mode : Record → Mode
  | .scoring _ => .scoring
  | .report _ => .report

/-- The program ends with a record of the given view and nothing else in its output, or it ends with the
status of a failure and without output. -/
inductive EndsCleanly (mode : Mode) : Except Failure Ended → Prop where
  | failed : EndsCleanly mode (.ok ⟨1, []⟩)
  | wrote (record : Record) (h : record.mode = mode) :
      EndsCleanly mode (.ok ⟨0, record.json.write 0 ++ ['\n']⟩)

/-! ## Steps -/

/-- The step fails only for reasons that lie in the item, and what it makes has a property. -/
inductive Blames {α : Type} (P : α → Prop) : Except Failure α → Prop where
  | item {failure : Failure} (h : failure.isOfItem = true) : Blames P (.error failure)
  | ok {a : α} (h : P a) : Blames P (.ok a)

theorem Blames.andThen {α β : Type} {P : α → Prop} {Q : β → Prop} {first : Step α}
    {second : α → Step β} (hfirst : Blames P first.2) (hsecond : ∀ a, P a → Blames Q (second a).2) :
    Blames Q (first.andThen second).2 := by
  obtain ⟨entries, result⟩ := first
  cases hfirst with
  | item h => exact .item h
  | ok h => exact hsecond _ h

/-- The step makes something that has a property. -/
def Makes {α : Type} (P : α → Prop) (result : Except Failure α) : Prop := ∃ a, result = .ok a ∧ P a

theorem Makes.andThen {α β : Type} {P : α → Prop} {Q : β → Prop} {first : Step α}
    {second : α → Step β} (hfirst : Makes P first.2) (hsecond : ∀ a, P a → Makes Q (second a).2) :
    Makes Q (first.andThen second).2 := by
  obtain ⟨entries, result⟩ := first
  obtain ⟨a, rfl, ha⟩ := hfirst
  exact hsecond a ha

/-! ## Rendering -/

/-- The text can be read as HTML. -/
def IsHtml (html : List Char) : Prop := ∃ nodes, Html.parse html = some nodes

/-- The HTML of the record can be read. -/
def Record.Readable : Record → Prop
  | .scoring item => IsHtml item.prompt ∧ ∀ html ∈ item.explanation, IsHtml html
  | .report item => IsHtml item.question

theorem isHtml_explanation {root : Xml.Element} {blanks : Nat} {html : List Char}
    (h : html ∈ (Scoring.renderExplanation {} blanks root).1) : IsHtml html := by
  unfold Scoring.renderExplanation at h
  split at h
  · obtain rfl := Option.mem_some_iff.1 h
    exact ⟨_, Scoring.parse_shown _ _⟩
  · cases h

/-- A prompt with its blanks filled can be read. -/
theorem exists_apply_prompt (nodes : List Xml.Node) (responses : List (List Char)) :
    ∃ html entries, Responses.apply (.ok Html.defaultBuilder) (.many (responses.map .text))
        (Scoring.renderNodes {} Item.Spacing.root 0 nodes).html = .ok (html, entries) ∧
      IsHtml html := by
  have hentries : responses.map Responses.Entry.text =
      (responses.map some).map Responses.Entry.ofResponse := by
    rw [List.map_map]
    rfl
  obtain ⟨html, entries, happly, hhtml⟩ := Responses.apply_prompt nodes (responses.map some)
  rw [← hentries] at happly hhtml
  refine ⟨html, entries, happly, ?_⟩
  rcases hhtml with ⟨rfl, -⟩ | rfl
  · exact ⟨_, Scoring.parse_renderNodes nodes⟩
  · exact ⟨_, Responses.parse_filled nodes _⟩

/-- An item in the scoring view has a prompt that was rendered from nodes, and its explanation can be
read. -/
def IsRendered (item : Scoring.ScoringItem) : Prop :=
  (∃ nodes, item.prompt = (Scoring.renderNodes {} Item.Spacing.root 0 nodes).html) ∧
    ∀ html ∈ item.explanation, IsHtml html

theorem blames_scoring (source : List Char) :
    Blames IsRendered (Scoring.renderInput {} (.document (.text source))) := by
  unfold Scoring.renderInput
  split
  · next fault hread => exact .item (Xml.failsMalformed_readDocument_text source fault hread)
  · next root _ =>
    unfold Scoring.render
    split
    · exact .item rfl
    · next body _ => exact .ok ⟨⟨body.children, rfl⟩, fun _ => isHtml_explanation⟩

theorem blames_renderScoring (command : Command) (source : List Char) :
    Blames (fun record => record.mode = .scoring ∧ record.Readable)
      (renderScoring {} command (.document (.text source))).2 := by
  refine Blames.andThen (blames_scoring source) fun item hitem => ?_
  refine @Blames.andThen _ _ IsRendered _ _ _ (.ok hitem) fun item hitem => ?_
  obtain ⟨⟨nodes, hprompt⟩, hexplanation⟩ := hitem
  split
  · exact .ok ⟨rfl, hprompt ▸ ⟨_, Scoring.parse_renderNodes nodes⟩, hexplanation⟩
  · obtain ⟨html, entries, happly, hhtml⟩ := exists_apply_prompt nodes command.responses
    rw [← hprompt] at happly
    rw [happly]
    exact .ok ⟨rfl, hhtml, hexplanation⟩

/-- What is found missing in an item lies in the item. -/
theorem isOfItem_of_findBody {expected : List Char} {root : Xml.Element} {failure : Failure}
    (h : Report.findBody expected root = .error failure) : failure.isOfItem = true := by
  unfold Report.findBody at h
  dsimp only at h
  split at h
  · cases h
    rfl
  split at h
  · cases h
    rfl
  split at h
  · cases h
  · cases h
    rfl

theorem blames_report (expected : List Char) (highlighter : Option Bool) (source : List Char) :
    Blames (fun item => IsHtml item.question)
      (Report.renderInput (Report.ofLibrary highlighter) expected
        (.document (.text source))).result := by
  unfold Report.renderInput
  split
  · next fault hread =>
    have hmalformed := Xml.failsMalformed_readDocument_text source fault hread
    exact .item (by rw [if_pos hmalformed]; rfl)
  · next root hread =>
    cases hbody : Report.findBody expected root with
    | error failure =>
      have hfailed : (Report.render (Report.ofLibrary highlighter) expected root).result =
          .error failure := by
        unfold Report.render
        rw [hbody]
      rw [hfailed]
      exact .item (isOfItem_of_findBody hbody)
    | ok body =>
      obtain ⟨item, hitem, hquestion⟩ :=
        Report.exists_undeclared_question highlighter hread hbody
      rw [hitem]
      exact .ok (Html.exists_parse_of_undeclared hquestion)

theorem blames_renderReport (expected : List Char) (highlighter : Option Bool) (source : List Char) :
    Blames (fun record => record.mode = .report ∧ record.Readable)
      (renderReport expected (Report.ofLibrary highlighter) (.document (.text source))).2 := by
  have hitem := blames_report expected highlighter source
  unfold renderReport
  generalize Report.renderInput (Report.ofLibrary highlighter) expected
    (.document (.text source)) = outcome at hitem
  obtain ⟨calls, entries, result⟩ := outcome
  cases hitem with
  | item h => exact .item h
  | ok h => exact .ok ⟨rfl, h⟩

/-- The usual settings name a style that there is, so that there is a highlighter if one is wanted. -/
theorem highlighter_default (command : Command) :
    highlighter {} command =
      .ok ((if command.highlight then some false else none).map Highlight.highlighter) := by
  unfold highlighter
  rw [Bool.or_false]
  cases command.highlight
  · rfl
  · rw [if_pos rfl, if_pos (by decide)]
    rfl

/-- The item is rendered in the view that is asked for, or something is wrong with it. -/
theorem blames_renderItem (command : Command) (source : List Char) :
    Blames (fun record => record.mode = command.mode ∧ record.Readable)
      (renderItem {} command source).2 := by
  unfold renderItem
  cases hmode : command.mode with
  | scoring => exact blames_renderScoring command source
  | report =>
    dsimp only
    rw [highlighter_default]
    exact blames_renderReport _ _ source

/-! ## Redirecting images -/

theorem makes_redirectHtml (base url : List Char) {html : List Char} (h : IsHtml html) :
    Makes (fun _ => True) (redirectHtml {} base url html).2 := by
  obtain ⟨nodes, hnodes⟩ := h
  unfold redirectHtml
  split
  · exact ⟨html, rfl, trivial⟩
  · have hbuilder : Html.defaultBuilder ∈ Html.builderNames := by decide
    obtain ⟨redirected, hredirected, -⟩ := @Images.exists_redirect_of_parse
      { resolveUrl := fun path _ => Path.withoutSlashes url ++ '/' :: path } base hbuilder html nodes
      hnodes
    dsimp only
    rw [hredirected]
    exact ⟨_, rfl, trivial⟩

theorem makes_redirectImages (base url : List Char) {record : Record} (h : record.Readable) :
    Makes (fun changed => changed.mode = record.mode) (redirectImages {} base url record).2 := by
  cases record with
  | scoring item =>
    obtain ⟨hprompt, hexplanation⟩ := h
    refine (makes_redirectHtml base url hprompt).andThen fun prompt _ => ?_
    split
    · exact ⟨_, rfl, rfl⟩
    · next explanation hsome =>
      exact (makes_redirectHtml base url (hexplanation explanation hsome)).andThen fun _ _ =>
        ⟨_, rfl, rfl⟩
  | report item => exact (makes_redirectHtml base url h).andThen fun _ _ => ⟨_, rfl, rfl⟩

/-! ## The whole program -/

/-- The program wrote a record of the given view. -/
def Wrote (mode : Mode) (ended : Ended) : Prop :=
  ∃ record : Record, record.mode = mode ∧ ended = ⟨0, record.json.write 0 ++ ['\n']⟩

/-- A record that can be read is written. -/
theorem makes_finishRecord (command : Command) {record : Record} (hmode : record.mode = command.mode)
    (h : record.Readable) : Makes (Wrote command.mode) (finishRecord {} command record).2 := by
  refine @Makes.andThen _ _ (fun changed => changed.mode = command.mode) _ _ _ ?_
    fun changed hchanged => ⟨_, rfl, changed, hchanged, rfl⟩
  split
  · exact ⟨record, rfl, hmode⟩
  · obtain ⟨changed, hchanged, hsame⟩ := makes_redirectImages (basePath command) _ h
    exact ⟨changed, hchanged, hsame.trans hmode⟩

/-- On a text, the program ends cleanly. -/
theorem endsCleanly_execute (command : Command) (source : List Char) :
    EndsCleanly command.mode (execute {} command source).2 := by
  have hrendered := blames_renderItem command source
  unfold execute
  generalize renderItem {} command source = rendered at hrendered
  obtain ⟨entries, result⟩ := rendered
  cases hrendered with
  | item h =>
    dsimp only
    rw [if_pos h]
    exact .failed
  | ok h =>
    obtain ⟨ended, hended, record, hmode, rfl⟩ := makes_finishRecord command h.1 h.2
    dsimp only [Step.andThen]
    rw [hended]
    exact .wrote record hmode

/-- There is a threshold for messages under the name in the usual settings. -/
theorem exists_threshold (verbose : Bool) :
    ∃ threshold, Log.threshold verbose (some (.name ({} : Settings).logLevel)) = .ok threshold := by
  cases verbose
  · exact ⟨20, by decide +kernel⟩
  · exact ⟨_, rfl⟩

/-- What the program does is what its command does with the file. -/
theorem result_run {arguments : List (List Char)} {command : Command}
    (hcommand : Request.ofArguments arguments = .command command)
    (read : List Char → Except ReadError (List UInt8)) :
    (run (.ok {}) read arguments).result =
      (runCommand {} command (read (FileName.normalize command.item))).2 := by
  obtain ⟨threshold, hthreshold⟩ := exists_threshold command.verbose
  unfold run
  simp only [hcommand, hthreshold]

/-- A file that was read is decoded before anything else is done with it. -/
theorem result_runCommand {command : Command} (hzero : '\x00' ∉ FileName.normalize command.item)
    (bytes : List UInt8) :
    (runCommand {} command (.ok bytes)).2 =
      match String.fromUTF8? ⟨bytes.toArray⟩ with
      | some text => (execute {} command (unixLines text.toList)).2
      | none => .error (.undecodable (FileName.normalize command.item)) := by
  unfold runCommand TextFile.decode
  dsimp only
  rw [if_neg (mt List.contains_iff_mem.1 hzero)]
  cases String.fromUTF8? ⟨bytes.toArray⟩ <;> rfl

/-- The arguments that ask for the scoring view of a file. -/
def scoringArguments : List (List Char) := ["scoring".toList, "q.xml".toList]

theorem command_scoringArguments : Request.ofArguments scoringArguments =
    .command { mode := .scoring, item := "q.xml".toList } := by rfl

/-- The bytes of an item with an empty body. -/
def itemBytes : List UInt8 := "<i><qti-item-body/></i>".toList.map fun c => UInt8.ofNat c.toNat

end Assessment.Cli
