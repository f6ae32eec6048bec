import Assessment.Proofs.Images.Redirecting
import Assessment.Proofs.Report.LegibleTags
import Assessment.Proofs.Report.Nesting

/-!
# Proofs: redirecting images keeps the text of a report

Redirecting reads the question of a report as a tree, changes sources in it and prints it again. All text
that can be seen before can be seen afterwards (`redirecting_keeps_text`), whatever becomes of the tags in
between: elements that are void, elements whose text is no markup, and end tags without a start. It is
lost where an element is taken for the body of a document (`text_around_body_is_lost`).
-/

namespace Assessment.Images

open Assessment.Html Assessment.Markup Assessment.Text
open Assessment.Report (ReadableName WithoutEqualsSigns bodyOf? findBody htmlName reachedIn)

/-- The text of HTML that can be seen: what stands between the tags, decoded, without white space. -/
def visibleText (html : List Char) : List Char := withoutBlanks (Entity.decode (stripTags html))

theorem visibleText_of_displays {W : Char → List Char → Prop} (hW : Writing W) {html text : List Char}
    (h : Displays W html text) : visibleText html = withoutBlanks text := by
  rw [visibleText, decode_stripTags_of_displays hW h]

section Redirecting

variable {options : Options} {path : List Char}

/-- An element is redirected to an element of the same name. Its attributes have the names they had, or
a source is added. -/
theorem soundTag_redirectElement {progress : Progress} {name : List Char} {attributes : Attributes}
    (h : SoundTag name attributes) :
    SoundTag name (redirectElement options path progress name attributes).1 :=
  keptBy_redirectElement progress h fun source h => h.put (by decide) source

variable (path) in
/-- Redirecting keeps the text of HTML made of tags that can be read. -/
theorem exists_redirect_of_displays (hbuilder : options.builder ∈ builderNames)
    {html text : List Char} (h : Displays Escaped html text)
    (hlegible : ∀ tag ∈ anyTag.findAll html, Legible tag) (hended : RawEnded (anyTag.findAll html)) :
    ∃ result, redirect options path html = .ok result ∧
      visibleText result.html = visibleText html := by
  obtain ⟨nodes, hparse, hsound, hheld⟩ := exists_parse_of_displays h hlegible hended
  obtain ⟨result, hredirect, hhtml, -⟩ := exists_redirect_of_parse path hbuilder hparse
  obtain ⟨hsoundAfter, hheldAfter⟩ :=
    updateAll_sound (f := redirectElement options path) soundTag_redirectElement {} hsound
  have hprinted := displays_serialize hsoundAfter
  refine ⟨result, hredirect, ?_⟩
  calc visibleText result.html
      = withoutBlanks (Node.heldIn false (redirected options path nodes)) := by
        rw [hhtml]
        exact visibleText_of_displays writing_written hprinted
    _ = withoutBlanks (Node.heldIn false nodes) := congrArg withoutBlanks hheldAfter
    _ = withoutBlanks text := hheld
    _ = visibleText html := (visibleText_of_displays writing_escaped h).symm

/-- Redirecting the images of a report keeps the text of the question that can be seen. The names of the
elements can be read, so none is named like the body of a document, and no value of an element named like
code holds an equals sign. -/
theorem redirecting_keeps_text {source : Xml.Source} {root body : Xml.Element} {expected : List Char}
    (hread : Xml.readDocument source = .ok root) (hbody : findBody expected root = .ok body)
    (hvalues : WithoutEqualsSigns body)
    (hnames : ∀ e ∈ reachedIn body.children, ReadableName (htmlName e.name))
    (hbuilder : options.builder ∈ builderNames) (path : List Char) :
    ∃ item, (Report.render {} expected root).result = .ok item ∧
      ∃ result, redirect options path item.question = .ok result ∧
        visibleText result.html = visibleText item.question := by
  obtain ⟨item, hitem, hdisplays, hlegible, hended⟩ :=
    Report.exists_legible_question hread hbody hvalues hnames
  exact ⟨item, hitem, exists_redirect_of_displays path hbuilder hdisplays hlegible hended⟩

end Redirecting

/-- A document with a void element that has text, an element whose text is no markup, an image and code. -/
def mixedSample : Xml.Source := .text <|
  "<i identifier='q'><qti-item-body>a<br>b &amp; c</br><script>d &lt; <b>e</b></script>".toList ++
    "<qti-img src='f.png'/><qti-pre><code>g</code></qti-pre></qti-item-body></i>".toList

theorem redirecting_keeps_text_mixedSample : ∃ root body, Xml.readDocument mixedSample = .ok root ∧
    findBody ['q'] root = .ok body ∧ WithoutEqualsSigns body ∧
    (∀ e ∈ reachedIn body.children, ReadableName (htmlName e.name)) ∧
    assets.builder ∈ builderNames ∧
    ∃ item, (Report.render {} ['q'] root).result = .ok item ∧
      ∃ result, redirect assets "items/q.xml".toList item.question = .ok result ∧
        visibleText result.html = visibleText item.question := by
  have hsample : (bodyOf? ['q'] mixedSample).map (fun body =>
      decide (WithoutEqualsSigns body ∧
        ∀ e ∈ reachedIn body.children, ReadableName (htmlName e.name))) =
      some true := by
    unfold mixedSample
    -- Literals are evaluated faster as lists of characters.
    repeat rewrite [String.toList_ofList]
    decide +kernel
  obtain ⟨root, body, hread, hbody, hdecided⟩ := Report.exists_of_bodyOf? hsample
  obtain ⟨hvalues, hnames⟩ := of_decide_eq_true hdecided
  have hbuilder : assets.builder ∈ builderNames := by decide
  exact ⟨root, body, hread, hbody, hvalues, hnames, hbuilder,
    redirecting_keeps_text hread hbody hvalues hnames hbuilder "items/q.xml".toList⟩

/-- A document with an element that is named like the body of a document. -/
def bodySample : Xml.Source := .text <|
  "<i identifier='q'><qti-item-body>a<qti-body>b</qti-body>c</qti-item-body></i>".toList

/-- Of a report with an element named like the body of a document only what that element holds is
printed again. -/
theorem text_around_body_is_lost : ∃ root body item result, Xml.readDocument bodySample = .ok root ∧
    findBody ['q'] root = .ok body ∧ (Report.render {} ['q'] root).result = .ok item ∧
    redirect assets "items/q.xml".toList item.question = .ok result ∧
    visibleText item.question = "abc".toList ∧ visibleText result.html = "b".toList := by
  have hsample : ((bodyOf? ['q'] bodySample).bind fun body =>
      (Report.finishHtml {} (Report.renderBody {} body)).result.toOption) =
        some "<div class=\x22item-body\x22>a<body>b</body>c</div>".toList := by
    unfold bodySample
    repeat rewrite [String.toList_ofList]
    decide +kernel
  obtain ⟨root, body, item, hread, hbody, hitem, hquestion⟩ := Report.exists_item_of_bodyOf? hsample
  have hprinted : (redirect assets "items/q.xml".toList
      "<div class=\x22item-body\x22>a<body>b</body>c</div>".toList).toOption.map Redirected.html =
        some "b".toList := by
    decide +kernel
  rw [← hquestion] at hprinted
  cases hresult : redirect assets "items/q.xml".toList item.question with
  | error failure =>
    rw [hresult] at hprinted
    cases hprinted
  | ok result =>
    rw [hresult] at hprinted
    refine ⟨root, body, item, result, hread, hbody, hitem, hresult, ?_, ?_⟩
    · rw [hquestion]
      decide +kernel
    · rw [Option.some.inj hprinted]
      decide +kernel

end Assessment.Images
