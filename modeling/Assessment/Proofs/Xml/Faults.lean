import Assessment.Proofs.Xml.Dtd
import Assessment.Xml.Document

/-!
# Proofs: what can be wrong with a text

A document that comes as text is refused only because it is not well formed: the two other faults are
about the names of encodings, and a text has no encoding left to be named. Each reader is shown to fail
in this way only, from the readers that it calls.
-/

namespace Assessment.Xml

open Assessment.Text

/-- If this fails, the document is not well formed. -/
def FailsMalformed {α : Type} (x : Except Fault α) : Prop :=
  ∀ fault, x = .error fault → fault.isMalformed = true

namespace FailsMalformed

variable {α β : Type}

@[simp] theorem ok (a : α) : FailsMalformed (.ok a) := fun _ h => nomatch h

@[simp] theorem pure (a : α) : FailsMalformed (Pure.pure a) := ok a

@[simp] theorem error_iff {fault : Fault} :
    FailsMalformed (.error fault : Except Fault α) ↔ fault.isMalformed = true :=
  ⟨fun h => h fault rfl, fun h _ heq => Except.error.inj heq ▸ h⟩

@[simp] theorem throw_iff {fault : Fault} :
    FailsMalformed (throw fault : Except Fault α) ↔ fault.isMalformed = true := error_iff

theorem of_error {x : Except Fault α} {fault : Fault} (hx : FailsMalformed x)
    (h : x = .error fault) : FailsMalformed (.error fault : Except Fault β) :=
  error_iff.2 (hx fault h)

@[simp] theorem throw_bind_iff {fault : Fault} {f : α → Except Fault β} :
    FailsMalformed ((throw fault : Except Fault α) >>= f) ↔ fault.isMalformed = true := error_iff

theorem bind {x : Except Fault α} {f : α → Except Fault β} (hx : FailsMalformed x)
    (hf : ∀ a, FailsMalformed (f a)) : FailsMalformed (x >>= f) := by
  cases x with
  | error fault => exact fun _ h => hx _ (Except.error.inj h ▸ rfl)
  | ok a => exact hf a

theorem mapM {f : α → Except Fault β} (hf : ∀ a, FailsMalformed (f a)) (l : List α) :
    FailsMalformed (l.mapM f) := by
  induction l with
  | nil => simp
  | cons a l ih =>
    rw [List.mapM_cons]
    exact (hf a).bind fun _ => ih.bind fun _ => ok _

theorem foldlM {f : β → α → Except Fault β} (hf : ∀ b a, FailsMalformed (f b a)) (l : List α)
    (b : β) : FailsMalformed (l.foldlM f b) := by
  induction l generalizing b with
  | nil => simp
  | cons a l ih =>
    rw [List.foldlM_cons]
    exact (hf b a).bind ih

end FailsMalformed

open FailsMalformed

/-! ## References and tags -/

theorem failsMalformed_charOfNumber (n : Nat) : FailsMalformed (charOfNumber n) := by
  fun_cases charOfNumber n with
  | case1 => exact ok _
  | case2 => exact error_iff.2 rfl
  | case3 => exact error_iff.2 rfl

theorem failsMalformed_numberReference (base : Nat) (isDigit : Char → Bool) (s : List Char) :
    FailsMalformed (numberReference base isDigit s) := by
  unfold numberReference
  dsimp only
  split
  · exact (failsMalformed_charOfNumber _).bind fun _ => ok _
  · simp [Fault.isMalformed]

theorem failsMalformed_readReference (s : List Char) : FailsMalformed (readReference s) := by
  unfold readReference
  split
  · exact failsMalformed_numberReference _ _ _
  · exact failsMalformed_numberReference _ _ _
  · split
    · split <;> simp
    · simp [Fault.isMalformed]

namespace Token

theorem failsMalformed_quotedValue (s : List Char) : FailsMalformed (quotedValue s) := by
  fun_cases quotedValue s <;> simp [Fault.isMalformed]

theorem failsMalformed_attributes (fuel : Nat) (s : List Char) (found : List RawAttribute) :
    FailsMalformed (attributes fuel s found) := by
  induction fuel generalizing s found with
  | zero => simp [attributes, Fault.isMalformed]
  | succ fuel ih =>
    unfold attributes
    split
    · simp [Fault.isMalformed]
    · exact ok _
    · exact ok _
    · split
      · simp [Fault.isMalformed]
      · split
        · simp [Fault.isMalformed]
        · split
          · exact (failsMalformed_quotedValue _).bind fun _ => ih _ _
          · simp [Fault.isMalformed]
          · simp [Fault.isMalformed]

theorem failsMalformed_comment (s : List Char) : FailsMalformed (comment s) := by
  unfold comment
  split <;> simp [Fault.isMalformed]

theorem failsMalformed_instruction (s : List Char) : FailsMalformed (instruction s) := by
  fun_cases instruction s <;> simp [Fault.isMalformed]

theorem failsMalformed_endTag (s : List Char) : FailsMalformed (endTag s) := by
  fun_cases endTag s <;> simp [Fault.isMalformed]

theorem failsMalformed_tag (s : List Char) : FailsMalformed (tag s) := by
  unfold tag
  split
  · exact (failsMalformed_comment _).bind fun _ => ok _
  · exact (failsMalformed_instruction _).bind fun _ => ok _
  · exact failsMalformed_endTag _
  · split
    · split <;> simp [Fault.isMalformed]
    · split
      · simp [Fault.isMalformed]
      · exact (failsMalformed_attributes _ _ _).bind fun _ => ok _

theorem failsMalformed_next (s : List Char) : FailsMalformed (next s) := by
  unfold next
  split
  · exact failsMalformed_tag _
  · split
    · exact ok _
    · exact ok _
    · next h => exact (failsMalformed_readReference _).of_error h
  · dsimp only
    split <;> simp [Fault.isMalformed]

theorem failsMalformed_listFrom (fuel : Nat) (s : List Char) : FailsMalformed (listFrom fuel s) := by
  induction fuel generalizing s with
  | zero => cases s <;> simp [listFrom, Fault.isMalformed]
  | succ fuel ih =>
    cases s with
    | nil => simp [listFrom]
    | cons c s =>
      rw [listFrom.eq_3 _ _ (by simp)]
      exact (failsMalformed_next _).bind fun _ => (ih _).bind fun _ => ok _

end Token

theorem Declaration.failsMalformed_read (s : List Char) : FailsMalformed (Declaration.read s) := by
  fun_cases Declaration.read s <;> simp [Fault.isMalformed]

/-! ## Tokens before the root element -/

namespace Dtd.Token

theorem failsMalformed_readName (s : List Char) : FailsMalformed (readName s) := by
  unfold readName
  dsimp only
  split
  · simp [Fault.isMalformed]
  · iterate 5 (split; · simp [Fault.isMalformed])
    simp [Fault.isMalformed]

theorem failsMalformed_readDeclaration (s : List Char) : FailsMalformed (readDeclaration s) := by
  unfold readDeclaration
  split
  · exact (Xml.Token.failsMalformed_comment _).bind fun _ => ok _
  · dsimp only
    split
    · simp [Fault.isMalformed]
    · split <;> simp [Fault.isMalformed]
    · split <;> simp [Fault.isMalformed]
    · simp [Fault.isMalformed]

theorem failsMalformed_readPercent (s : List Char) : FailsMalformed (readPercent s) := by
  fun_cases readPercent s <;> simp [Fault.isMalformed]

theorem failsMalformed_readCloseParen (s : List Char) : FailsMalformed (readCloseParen s) := by
  unfold readCloseParen
  split
  · exact ok _
  · exact ok _
  · exact ok _
  · split <;> simp [Fault.isMalformed]

theorem failsMalformed_next (s : List Char) : FailsMalformed (next s) := by
  unfold next
  split
  case h_2 => exact failsMalformed_readDeclaration _
  case h_3 => exact (Xml.Token.failsMalformed_instruction _).bind fun _ => ok _
  case h_4 => exact failsMalformed_readPercent _
  case h_7 => split <;> simp [Fault.isMalformed]
  case h_9 => exact failsMalformed_readCloseParen _
  case h_12 =>
    split
    · split <;> simp [Fault.isMalformed]
    · simp [Fault.isMalformed]
  case h_13 =>
    split
    · split
      · split <;> simp [Fault.isMalformed]
      · simp [Fault.isMalformed]
    · split
      · exact failsMalformed_readName _
      · simp [Fault.isMalformed]
  all_goals simp [Fault.isMalformed]

theorem failsMalformed_listFrom (fuel : Nat) (s : List Char) : FailsMalformed (listFrom fuel s) := by
  induction fuel generalizing s with
  | zero => simp [listFrom, Fault.isMalformed]
  | succ fuel ih =>
    rw [listFrom]
    dsimp only
    split
    · exact ok _
    · exact (failsMalformed_next _).bind fun _ => (ih _).bind fun _ => ok _

end Dtd.Token

/-! ## Declarations -/

namespace Dtd

theorem failsMalformed_valuePieces (fuel : Nat) (s : List Char) :
    FailsMalformed (valuePieces fuel s) := by
  fun_induction valuePieces fuel s with
  | case1 => exact ok _
  | case2 => simp [Fault.isMalformed]
  | case3 => simp [Fault.isMalformed]
  | case4 _ _ _ _ _ _ ih => exact ih.bind fun _ => ok _
  | case5 _ _ _ _ _ _ ih => exact ih.bind fun _ => ok _
  | case6 _ _ _ h => exact (failsMalformed_readReference _).of_error h
  | case7 _ _ _ _ _ _ ih => exact ih.bind fun _ => ok _
  | case8 _ _ _ _ _ _ ih => exact ih.bind fun _ => ok _

theorem failsMalformed_expandValue (dtd : Dtd) (depth : Nat) (s : List Char) :
    FailsMalformed (dtd.expandValue depth s) := by
  induction depth generalizing s with
  | zero => simp [expandValue, Fault.isMalformed]
  | succ depth ih =>
    rw [expandValue]
    refine (failsMalformed_valuePieces _ _).bind fun pieces => ?_
    refine FailsMalformed.bind (mapM (fun piece => ?_) pieces) fun _ => ok _
    cases piece with
    | char c => exact ok _
    | entity name =>
      dsimp only
      split
      · exact ih _
      · simp [Fault.isMalformed]
      · split <;> simp [Fault.isMalformed]

theorem failsMalformed_value (dtd : Dtd) (words : Bool) (s : List Char) :
    FailsMalformed (dtd.value words s) :=
  (failsMalformed_expandValue _ _ _).bind fun _ => ok _

theorem failsMalformed_entityText (fuel : Nat) (s : List Char) :
    FailsMalformed (entityText fuel s) := by
  induction fuel generalizing s with
  | zero => cases s <;> simp [entityText, Fault.isMalformed]
  | succ fuel ih =>
    cases s with
    | nil => simp [entityText]
    | cons c s =>
      unfold entityText
      split
      · simp [Fault.isMalformed]
      split
      · split
        · split
          · exact (ih _).bind fun _ => ok _
          · simp [Fault.isMalformed]
          · next h => exact (failsMalformed_readReference _).of_error h
        · split
          · exact (ih _).bind fun _ => ok _
          · simp [Fault.isMalformed]
      split
      · exact (ih _).bind fun _ => ok _
      · exact (ih _).bind fun _ => ok _

/-! ## The grammar of declarations -/

theorem failsMalformed_takeName (tokens : List Token) : FailsMalformed (takeName tokens) := by
  unfold takeName
  split <;> simp [Fault.isMalformed]

theorem failsMalformed_takeElementName (tokens : List Token) :
    FailsMalformed (takeElementName tokens) := by
  unfold takeElementName
  split <;> simp [Fault.isMalformed]

theorem failsMalformed_takeClose (tokens : List Token) : FailsMalformed (takeClose tokens) := by
  unfold takeClose
  split <;> simp [Fault.isMalformed]

theorem failsMalformed_takeExternal (systemOptional : Bool) (tokens : List Token) :
    FailsMalformed (takeExternal systemOptional tokens) := by
  fun_cases takeExternal systemOptional tokens <;> simp [Fault.isMalformed]

theorem failsMalformed_takeEntity (tokens : List Token) : FailsMalformed (takeEntity tokens) := by
  have hclose := failsMalformed_takeClose
  have hexternal := failsMalformed_takeExternal
  unfold takeEntity
  split
  · exact (hclose _).bind fun _ => ok _
  · exact (hexternal _ _).bind fun _ => (hclose _).bind fun _ => ok _
  · exact (hclose _).bind fun _ => ok _
  · refine (hexternal _ _).bind fun rest => ?_
    split
    · split
      · exact (hclose _).bind fun _ => ok _
      · simp [Fault.isMalformed]
    · exact (hclose _).bind fun _ => ok _
  · simp [Fault.isMalformed]

theorem failsMalformed_takeNotation (tokens : List Token) : FailsMalformed (takeNotation tokens) :=
  (failsMalformed_takeName _).bind fun _ =>
    (failsMalformed_takeExternal _ _).bind fun _ => failsMalformed_takeClose _

theorem failsMalformed_takeAlternatives (notations : Bool) (tokens : List Token) :
    FailsMalformed (takeAlternatives notations tokens) := by
  fun_induction takeAlternatives notations tokens with
  | case1 => simp [Fault.isMalformed]
  | case2 _ _ _ _ ih => exact ih
  | case3 => simp [Fault.isMalformed]
  | case4 => exact ok _
  | case5 => simp [Fault.isMalformed]

theorem failsMalformed_takeType (tokens : List Token) : FailsMalformed (takeType tokens) := by
  have halternatives := failsMalformed_takeAlternatives
  unfold takeType
  split
  · exact (halternatives _ _).bind fun _ => ok _
  · split
    · exact ok _
    split
    · exact ok _
    split
    · split
      · exact (halternatives _ _).bind fun _ => ok _
      · simp [Fault.isMalformed]
    · simp [Fault.isMalformed]
  · simp [Fault.isMalformed]

theorem failsMalformed_takeFallback (tokens : List Token) : FailsMalformed (takeFallback tokens) := by
  fun_cases takeFallback tokens <;> simp [Fault.isMalformed]

theorem failsMalformed_takeAttributes (element : List Char) (fuel : Nat) (tokens : List Token) :
    FailsMalformed (takeAttributes element fuel tokens) := by
  fun_induction takeAttributes element fuel tokens with
  | case1 => exact ok _
  | case2 => simp [Fault.isMalformed]
  | case3 fuel tokens _ ih =>
    exact (failsMalformed_takeElementName _).bind fun _ => (failsMalformed_takeType _).bind fun _ =>
      (failsMalformed_takeFallback _).bind fun _ => (ih _).bind fun _ => ok _

theorem failsMalformed_takeMixed (tokens : List Token) : FailsMalformed (takeMixed tokens) := by
  fun_induction takeMixed tokens with
  | case1 => exact ok _
  | case2 _ _ ih => exact ih
  | case3 _ _ ih => exact ih
  | case4 => simp [Fault.isMalformed]

theorem failsMalformed_takeModel (groups : List Connector) (expectItem : Bool) (tokens : List Token) :
    FailsMalformed (takeModel groups expectItem tokens) := by
  induction tokens generalizing groups expectItem with
  | nil => simp [takeModel, Fault.isMalformed]
  | cons token tokens ih =>
    unfold takeModel
    split
    · exact ok _
    · split
      · exact ih _ _
      · split
        · simp [Fault.isMalformed]
        · exact ih _ _
      · exact ih _ _
      · split
        · simp [Fault.isMalformed]
        · exact ih _ _
      · split
        · simp [Fault.isMalformed]
        · exact ih _ _
      · simp [Fault.isMalformed]

theorem failsMalformed_takeElement (tokens : List Token) : FailsMalformed (takeElement tokens) := by
  have hclose := failsMalformed_takeClose
  refine (failsMalformed_takeElementName _).bind fun ⟨_, rest⟩ => ?_
  dsimp only
  split
  · split
    · exact hclose _
    · simp [Fault.isMalformed]
  · split
    · split
      · exact hclose _
      · exact (failsMalformed_takeMixed _).bind fun _ => hclose _
    · simp [Fault.isMalformed]
  · exact (failsMalformed_takeModel _ _ _).bind fun _ => hclose _
  · simp [Fault.isMalformed]

theorem failsMalformed_takeSubset (fuel : Nat) (tokens : List Token) :
    FailsMalformed (takeSubset fuel tokens) := by
  fun_induction takeSubset fuel tokens with
  | case1 => exact ok _
  | case2 => simp [Fault.isMalformed]
  | case3 _ _ ih => exact ih
  | case4 _ _ ih => exact ih.bind fun _ => ok _
  | case5 _ _ ih =>
    exact (failsMalformed_takeEntity _).bind fun _ => (ih _).bind fun _ => ok _
  | case6 _ _ _ ih =>
    exact (failsMalformed_takeElementName _).bind fun _ =>
      (failsMalformed_takeAttributes _ _ _).bind fun _ => (ih _).bind fun _ => ok _
  | case7 _ _ _ _ ih => exact (failsMalformed_takeElement _).bind fun _ => ih _
  | case8 _ _ _ _ _ ih => exact (failsMalformed_takeNotation _).bind fun _ => ih _
  | case9 => simp [Fault.isMalformed]
  | case10 => simp [Fault.isMalformed]

theorem failsMalformed_takeBrackets (tokens : List Token) : FailsMalformed (takeBrackets tokens) := by
  unfold takeBrackets
  split
  · exact (failsMalformed_takeSubset _ _).bind fun _ => (failsMalformed_takeClose _).bind fun _ => ok _
  · exact (failsMalformed_takeClose _).bind fun _ => ok _

theorem failsMalformed_takeDoctype (tokens : List Token) : FailsMalformed (takeDoctype tokens) := by
  refine (failsMalformed_takeElementName _).bind fun ⟨_, rest⟩ => ?_
  dsimp only
  split
  · exact (failsMalformed_takeExternal _ _).bind fun _ =>
      (failsMalformed_takeBrackets _).bind fun _ => ok _
  · exact (failsMalformed_takeBrackets _).bind fun _ => ok _

/-! ## What declarations say -/

theorem failsMalformed_declare (state : Dtd × Bool) (declaration : Declaration) :
    FailsMalformed (declare state declaration) := by
  unfold declare
  obtain ⟨dtd, heeded⟩ := state
  cases declaration with
  | parameter => exact ok _
  | outside name =>
    dsimp only
    split <;> exact ok _
  | parameterEntity literal =>
    dsimp only
    split
    · exact (failsMalformed_entityText _ _).bind fun _ => ok _
    · exact ok _
  | entity name literal =>
    dsimp only
    split
    · refine (failsMalformed_entityText _ _).bind fun _ => ?_
      split <;> exact ok _
    · exact ok _
  | attributeRule element name words literal =>
    dsimp only
    split
    · cases literal with
      | none =>
        refine (ok none).bind fun _ => ?_
        split <;> exact ok _
      | some s =>
        refine (failsMalformed_value _ _ _).bind fun _ => ?_
        refine (ok _).bind fun _ => ?_
        split <;> exact ok _
    · exact ok _

theorem failsMalformed_ofTokens (standalone : Bool) (tokens : List Token) :
    FailsMalformed (ofTokens standalone tokens) := by
  unfold ofTokens
  dsimp only
  split
  · exact ok _
  · split
    · refine (failsMalformed_takeDoctype _).bind fun found => ?_
      split
      · exact (foldlM failsMalformed_declare _ _).bind fun _ => ok _
      · simp [Fault.isMalformed]
    · simp [Fault.isMalformed]
  · simp [Fault.isMalformed]

end Dtd

/-! ## Content -/

theorem Written.failsMalformed_grow {expand : List Char → Except Fault (List Written)}
    (hexpand : ∀ name, FailsMalformed (expand name)) (tokens : List Token) (path : List OpenElement)
    (done : List Written) : FailsMalformed (grow expand tokens path done) := by
  fun_induction grow expand tokens path done with
  | case1 => exact ok _
  | case2 => simp [Fault.isMalformed]
  | case3 _ _ _ _ _ ih => exact ih
  | case4 _ _ _ ih => exact ih
  | case5 _ _ _ _ _ _ ih => exact ih
  | case6 _ _ _ _ _ h => exact (hexpand _).of_error h
  | case7 _ _ _ _ _ ih => exact ih
  | case8 _ _ _ _ _ ih => exact ih
  | case9 => simp [Fault.isMalformed]
  | case10 _ _ _ _ ih => exact ih
  | case11 => simp [Fault.isMalformed]

theorem Written.failsMalformed_ofEntity (dtd : Dtd) (depth : Nat) (name : List Char) :
    FailsMalformed (ofEntity dtd depth name) := by
  induction depth generalizing name with
  | zero => simp [ofEntity, Fault.isMalformed]
  | succ depth ih =>
    unfold ofEntity
    split
    · split
      · exact failsMalformed_grow ih _ _ _
      · next h => exact (Token.failsMalformed_listFrom _ _).of_error h
    · simp [Fault.isMalformed]
    · simp [Fault.isMalformed]

theorem Written.failsMalformed_root (dtd : Dtd) (s : List Char) : FailsMalformed (root dtd s) := by
  refine (Token.failsMalformed_listFrom _ _).bind fun tokens => ?_
  split
  · refine (failsMalformed_grow (failsMalformed_ofEntity _ _) _ _ _).bind fun trees => ?_
    split <;> simp [Fault.isMalformed]
  · simp [Fault.isMalformed]

/-! ## Namespaces -/

theorem Scope.failsMalformed_declare (scope : Scope) (declared : Option (List Char))
    (uri : List Char) : FailsMalformed (scope.declare declared uri) := by
  unfold Scope.declare
  dsimp only
  iterate 5 (split; · simp [Fault.isMalformed])
  exact ok _

theorem Scope.failsMalformed_tag (scope : Scope) (name : List Char) :
    FailsMalformed (scope.tag name) := by
  unfold Scope.tag
  split
  · split <;> exact ok _
  · split <;> simp [Fault.isMalformed]

theorem Scope.failsMalformed_attributeTag (scope : Scope) (name : List Char) :
    FailsMalformed (scope.attributeTag name) := by
  unfold Scope.attributeTag
  split
  · exact ok _
  · split <;> simp [Fault.isMalformed]

theorem failsMalformed_attributeValues (dtd : Dtd) (element : List Char)
    (written : List RawAttribute) : FailsMalformed (attributeValues dtd element written) :=
  (mapM (fun _ => (Dtd.failsMalformed_value _ _ _).bind fun _ => ok _) _).bind fun _ => ok _

theorem Scope.failsMalformed_inside (scope : Scope) (attributes : List (List Char × List Char)) :
    FailsMalformed (scope.inside attributes) := by
  refine foldlM (fun scope a => ?_) _ _
  dsimp only
  split
  · exact scope.failsMalformed_declare _ _
  · exact ok _

mutual

theorem failsMalformed_resolve (dtd : Dtd) (scope : Scope) :
    ∀ tree : Written, FailsMalformed (resolve dtd scope tree)
  | .text s => by
    rw [resolve]
    exact ok _
  | .element name written children => by
    rw [resolve]
    split
    · simp [Fault.isMalformed]
    refine (failsMalformed_attributeValues _ _ _).bind fun values => ?_
    refine (scope.failsMalformed_inside _).bind fun inner => ?_
    refine (mapM (fun _ => (inner.failsMalformed_attributeTag _).bind fun _ => ok _) _).bind
      fun attributes => ?_
    split
    · simp [Fault.isMalformed]
    exact (inner.failsMalformed_tag _).bind fun _ =>
      (failsMalformed_resolveAll dtd inner children).bind fun _ => ok _

theorem failsMalformed_resolveAll (dtd : Dtd) (scope : Scope) :
    ∀ trees : List Written, FailsMalformed (resolveAll dtd scope trees)
  | [] => by
    rw [resolveAll]
    exact ok _
  | tree :: trees => by
    have hrest := failsMalformed_resolveAll dtd scope trees
    rw [resolveAll]
    refine (failsMalformed_resolve dtd scope tree).bind fun node => ?_
    split <;> exact hrest.bind fun _ => ok _

end

/-! ## Documents -/

theorem failsMalformed_readText (standalone : Bool) (s : List Char) :
    FailsMalformed (readText standalone s) := by
  unfold readText
  split
  · simp [Fault.isMalformed]
  refine (Dtd.Token.failsMalformed_listFrom _ _).bind fun found => ?_
  refine (Dtd.failsMalformed_ofTokens _ _).bind fun dtd => ?_
  refine (Written.failsMalformed_root _ _).bind fun tree => ?_
  refine (failsMalformed_resolve _ _ _).bind fun node => ?_
  split <;> simp [Fault.isMalformed]

/-- A text that cannot be read is not well formed, whatever encoding it declares. -/
theorem failsMalformed_readDocument_text (s : List Char) :
    FailsMalformed (readDocument (.text s)) := by
  refine FailsMalformed.bind ?_ fun _ => failsMalformed_readText _ _
  show FailsMalformed (Source.read (.text s))
  unfold Source.read
  split
  · exact Declaration.failsMalformed_read _
  · exact Declaration.failsMalformed_read _
  all_goals contradiction

end Assessment.Xml
