import Assessment.Proofs.Xml.Name
import Assessment.Xml.Dtd

/-!
# Proofs: names in declarations

The attributes that declarations give to elements have names like those that are written. Reading
declarations takes tokens from the front of a list and leaves a suffix of it, so all that is read is
made of tokens of the document.
-/

namespace Assessment.Xml.Dtd

open Assessment.Text

/-! ## What is left of the tokens -/

theorem suffix_cons_of_suffix {token : Token} {rest tokens : List Token} (h : rest <:+ tokens) :
    rest <:+ token :: tokens := h.trans (List.suffix_cons token tokens)

theorem takeElementName_cons {tokens rest : List Token} {name : List Char}
    (h : takeElementName tokens = .ok (name, rest)) :
    ∃ kind, tokens = .name name kind .once :: rest ∧ kind ≠ .token := by
  unfold takeElementName at h
  split at h <;> cases h
  · exact ⟨.plain, rfl, by decide⟩
  · exact ⟨.qualified, rfl, by decide⟩

theorem takeElementName_suffix {tokens rest : List Token} {name : List Char}
    (h : takeElementName tokens = .ok (name, rest)) : rest <:+ tokens := by
  obtain ⟨kind, rfl, -⟩ := takeElementName_cons h
  exact List.suffix_cons ..

theorem takeName_suffix {tokens rest : List Token} {name : List Char}
    (h : takeName tokens = .ok (name, rest)) : rest <:+ tokens := by
  unfold takeName at h
  split at h <;> cases h
  exact List.suffix_cons ..

theorem takeClose_suffix {tokens rest : List Token} (h : takeClose tokens = .ok rest) :
    rest <:+ tokens := by
  unfold takeClose at h
  split at h <;> cases h
  exact List.suffix_cons ..

theorem takeExternal_suffix {systemOptional : Bool} {tokens rest : List Token}
    (h : takeExternal systemOptional tokens = .ok rest) : rest <:+ tokens := by
  unfold takeExternal at h
  split at h
  · next tokens =>
    refine suffix_cons_of_suffix (suffix_cons_of_suffix ?_)
    split at h
    · cases h
      exact List.suffix_rfl
    split at h
    · split at h
      · cases h
        exact List.suffix_cons ..
      · split at h <;> cases h
        exact List.suffix_rfl
    · cases h
  · cases h

theorem takeEntity_suffix {tokens rest : List Token} {declaration : Declaration}
    (h : takeEntity tokens = .ok (declaration, rest)) : rest <:+ tokens := by
  unfold takeEntity at h
  split at h
  · obtain ⟨tokens', hclose, h⟩ := exists_of_bind h
    cases h
    exact suffix_cons_of_suffix <| suffix_cons_of_suffix <| suffix_cons_of_suffix <|
      takeClose_suffix hclose
  · obtain ⟨tokens', hexternal, h⟩ := exists_of_bind h
    obtain ⟨tokens'', hclose, h⟩ := exists_of_bind h
    cases h
    exact suffix_cons_of_suffix <| suffix_cons_of_suffix <|
      (takeClose_suffix hclose).trans (takeExternal_suffix hexternal)
  · obtain ⟨tokens', hclose, h⟩ := exists_of_bind h
    cases h
    exact suffix_cons_of_suffix <| suffix_cons_of_suffix <| takeClose_suffix hclose
  · obtain ⟨tokens', hexternal, h⟩ := exists_of_bind h
    refine suffix_cons_of_suffix (List.IsSuffix.trans ?_ (takeExternal_suffix hexternal))
    split at h
    · split at h
      · obtain ⟨tokens'', hclose, h⟩ := exists_of_bind h
        cases h
        exact suffix_cons_of_suffix <| suffix_cons_of_suffix <| takeClose_suffix hclose
      · cases h
    · obtain ⟨tokens'', hclose, h⟩ := exists_of_bind h
      cases h
      exact takeClose_suffix hclose
  · cases h

theorem takeNotation_suffix {tokens rest : List Token} (h : takeNotation tokens = .ok rest) :
    rest <:+ tokens := by
  obtain ⟨⟨name, tokens'⟩, hname, h⟩ := exists_of_bind h
  obtain ⟨tokens'', hexternal, h⟩ := exists_of_bind h
  exact (takeClose_suffix h).trans <|
    (takeExternal_suffix hexternal).trans (takeName_suffix hname)

theorem takeAlternatives_suffix {notations : Bool} {tokens rest : List Token}
    (h : takeAlternatives notations tokens = .ok rest) : rest <:+ tokens := by
  fun_induction takeAlternatives notations tokens with
  | case1 => cases h
  | case2 name kind tokens hkind ih => exact suffix_cons_of_suffix (suffix_cons_of_suffix (ih h))
  | case3 => cases h
  | case4 =>
    cases h
    exact suffix_cons_of_suffix (List.suffix_cons ..)
  | case5 => cases h

theorem takeType_suffix {tokens rest : List Token} {words : Bool}
    (h : takeType tokens = .ok (words, rest)) : rest <:+ tokens := by
  unfold takeType at h
  split at h
  · obtain ⟨tokens', halternatives, h⟩ := exists_of_bind h
    cases h
    exact suffix_cons_of_suffix (takeAlternatives_suffix halternatives)
  · refine suffix_cons_of_suffix ?_
    split at h
    · cases h
      exact List.suffix_rfl
    split at h
    · cases h
      exact List.suffix_rfl
    split at h
    · split at h
      · obtain ⟨tokens', halternatives, h⟩ := exists_of_bind h
        cases h
        exact suffix_cons_of_suffix (takeAlternatives_suffix halternatives)
      · cases h
    · cases h
  · cases h

theorem takeFallback_suffix {tokens rest : List Token} {literal : Option (List Char)}
    (h : takeFallback tokens = .ok (literal, rest)) : rest <:+ tokens := by
  unfold takeFallback at h
  split at h
  · cases h
    exact List.suffix_cons ..
  · refine suffix_cons_of_suffix ?_
    split at h
    · cases h
      exact List.suffix_rfl
    split at h
    · split at h <;> cases h
      exact List.suffix_cons ..
    · cases h
  · cases h

theorem takeMixed_suffix {tokens rest : List Token} (h : takeMixed tokens = .ok rest) :
    rest <:+ tokens := by
  fun_induction takeMixed tokens with
  | case1 tokens =>
    cases h
    exact List.suffix_cons ..
  | case2 name tokens ih => exact suffix_cons_of_suffix (suffix_cons_of_suffix (ih h))
  | case3 name tokens ih => exact suffix_cons_of_suffix (suffix_cons_of_suffix (ih h))
  | case4 => cases h

theorem takeModel_suffix {groups : List Connector} {expectItem : Bool} {tokens rest : List Token}
    (h : takeModel groups expectItem tokens = .ok rest) : rest <:+ tokens := by
  induction tokens generalizing groups expectItem with
  | nil => cases h
  | cons token tokens ih =>
    unfold takeModel at h
    split at h
    · cases h
      exact List.suffix_rfl
    · refine suffix_cons_of_suffix ?_
      split at h
      · exact ih h
      · split at h
        · cases h
        · exact ih h
      · exact ih h
      · split at h
        · cases h
        · exact ih h
      · split at h
        · cases h
        · exact ih h
      · cases h

theorem takeElement_suffix {tokens rest : List Token} (h : takeElement tokens = .ok rest) :
    rest <:+ tokens := by
  obtain ⟨⟨name, tokens'⟩, hname, h⟩ := exists_of_bind h
  refine List.IsSuffix.trans ?_ (takeElementName_suffix hname)
  dsimp only at h
  split at h
  · split at h
    · exact suffix_cons_of_suffix (takeClose_suffix h)
    · cases h
  · refine suffix_cons_of_suffix (suffix_cons_of_suffix ?_)
    split at h
    · split at h
      · exact suffix_cons_of_suffix (takeClose_suffix h)
      · obtain ⟨tokens'', hmixed, h⟩ := exists_of_bind h
        exact (takeClose_suffix h).trans (takeMixed_suffix hmixed)
    · cases h
  · obtain ⟨tokens'', hmodel, h⟩ := exists_of_bind h
    exact suffix_cons_of_suffix ((takeClose_suffix h).trans (takeModel_suffix hmodel))
  · cases h

/-! ## Names in tokens -/

/-- What is read as a name has a part after its prefix that is a name. -/
def Token.Named : Token → Prop
  | .name s kind _ => kind ≠ .token → IsName (splitName s).2
  | _ => True

/-- All tokens are named. -/
def NamedTokens (tokens : List Token) : Prop := ∀ token ∈ tokens, token.Named

theorem NamedTokens.of_suffix {tokens rest : List Token} (h : NamedTokens tokens)
    (hrest : rest <:+ tokens) : NamedTokens rest := fun token ht => h token (hrest.subset ht)

theorem Token.isName_of_nameKind {written : List Char} (h : NameLike written)
    (hkind : nameKind (written.takeWhile (· != ':')) (written.dropWhile (· != ':')) ≠ .token) :
    IsName (splitName written).2 := by
  have hsuffix := (List.dropWhile_suffix (· != ':') (l := written)).subset
  unfold nameKind at hkind
  split at hkind
  · exact absurd rfl hkind
  · next hsome =>
    unfold splitName
    split at hkind
    · next hdrop =>
      rw [hdrop]
      refine ⟨h, ?_⟩
      rintro rfl
      exact hsome rfl
    · next c part hdrop =>
      rw [hdrop] at hsuffix ⊢
      refine ⟨h.of_subset fun d hd => hsuffix (List.mem_cons_of_mem c hd), ?_⟩
      rintro rfl
      exact hkind rfl

theorem Token.named_of_readName {s rest : List Char} {token : Token}
    (h : readName s = .ok (token, rest)) : token.Named := by
  have hwritten : NameLike (s.takeWhile fun c => isNameChar c || c == ':') := by
    intro c hc
    simpa using List.all_eq_true.1 List.all_takeWhile c hc
  unfold readName at h
  dsimp only at h
  split at h
  · cases h
  split at h
  · cases h
    exact isName_of_nameKind hwritten
  split at h
  · cases h
  split at h
  · cases h
    exact isName_of_nameKind hwritten
  split at h
  · cases h
    exact isName_of_nameKind hwritten
  split at h <;> cases h
  exact isName_of_nameKind hwritten

theorem Token.named_of_readDeclaration {s rest : List Char} {token : Token}
    (h : readDeclaration s = .ok (token, rest)) : token.Named := by
  unfold readDeclaration at h
  split at h
  · obtain ⟨rest', -, h⟩ := exists_of_bind h
    cases h
    trivial
  · dsimp only at h
    split at h
    · cases h
    · split at h <;> cases h
      trivial
    · split at h <;> cases h
      trivial
    · cases h

theorem Token.named_of_readPercent {s rest : List Char} {token : Token}
    (h : readPercent s = .ok (token, rest)) : token.Named := by
  unfold readPercent at h
  split at h
  · cases h
    trivial
  · cases h
  · split at h <;> cases h
    trivial

theorem Token.named_of_readCloseParen {s rest : List Char} {token : Token}
    (h : readCloseParen s = .ok (token, rest)) : token.Named := by
  unfold readCloseParen at h
  split at h
  · cases h
    trivial
  · cases h
    trivial
  · cases h
    trivial
  · split at h <;> cases h
    trivial

theorem Token.named_of_next {s rest : List Char} {token : Token}
    (h : Token.next s = .ok (token, rest)) : token.Named := by
  unfold Token.next at h
  split at h
  · cases h
  · exact named_of_readDeclaration h
  · obtain ⟨rest', -, h⟩ := exists_of_bind h
    cases h
    trivial
  · exact named_of_readPercent h
  · cases h
    trivial
  · cases h
    trivial
  · split at h <;> cases h
    trivial
  · cases h
    trivial
  · exact named_of_readCloseParen h
  · cases h
    trivial
  · cases h
    trivial
  · split at h
    · split at h <;> cases h
      trivial
    · cases h
  · split at h
    · split at h
      · split at h <;> cases h
        trivial
      · cases h
    · split at h
      · exact named_of_readName h
      · cases h

/-- The tokens before the root element are named. -/
theorem Token.named_of_list {s rest : List Char} {tokens : List Token}
    (h : Token.list s = .ok (tokens, rest)) : NamedTokens tokens := by
  unfold Token.list at h
  generalize s.length + 1 = fuel at h
  induction fuel generalizing s tokens with
  | zero => cases h
  | succ fuel ih =>
    unfold listFrom at h
    dsimp only at h
    split at h
    · cases h
      exact fun _ ht => absurd ht List.not_mem_nil
    · obtain ⟨⟨token, rest'⟩, hnext, h⟩ := exists_of_bind h
      obtain ⟨⟨tokens', rest''⟩, htokens, h⟩ := exists_of_bind h
      cases h
      exact List.forall_mem_cons.2 ⟨named_of_next hnext, ih htokens⟩

/-! ## Names in declarations -/

/-- An attribute is declared under a name. -/
def Declaration.Named : Declaration → Prop
  | .attributeRule _ name _ _ => IsName (splitName name).2
  | _ => True

/-- All declarations are named. -/
def NamedDeclarations (declarations : List Declaration) : Prop :=
  ∀ declaration ∈ declarations, declaration.Named

theorem named_of_takeAttributes {element : List Char} {fuel : Nat} {tokens rest : List Token}
    {declarations : List Declaration} (htokens : NamedTokens tokens)
    (h : takeAttributes element fuel tokens = .ok (declarations, rest)) :
    NamedDeclarations declarations ∧ rest <:+ tokens := by
  fun_induction takeAttributes element fuel tokens generalizing declarations rest with
  | case1 =>
    cases h
    exact ⟨fun _ hd => absurd hd List.not_mem_nil, List.suffix_cons ..⟩
  | case2 => cases h
  | case3 fuel tokens _ ih =>
    obtain ⟨⟨name, tokens1⟩, hname, h⟩ := exists_of_bind h
    obtain ⟨⟨words, tokens2⟩, htype, h⟩ := exists_of_bind h
    obtain ⟨⟨literal, tokens3⟩, hfallback, h⟩ := exists_of_bind h
    obtain ⟨⟨declarations', tokens4⟩, hattributes, h⟩ := exists_of_bind h
    cases h
    have hsuffix : tokens3 <:+ tokens :=
      (takeFallback_suffix hfallback).trans <|
        (takeType_suffix htype).trans (takeElementName_suffix hname)
    obtain ⟨kind, rfl, hkind⟩ := takeElementName_cons hname
    obtain ⟨hdeclarations, hrest⟩ := ih tokens3 (htokens.of_suffix hsuffix) hattributes
    exact ⟨List.forall_mem_cons.2 ⟨(List.forall_mem_cons.1 htokens).1 hkind, hdeclarations⟩,
      hrest.trans hsuffix⟩

theorem named_of_takeEntity {tokens rest : List Token} {declaration : Declaration}
    (h : takeEntity tokens = .ok (declaration, rest)) : declaration.Named := by
  unfold takeEntity at h
  split at h
  · obtain ⟨tokens', hclose, h⟩ := exists_of_bind h
    cases h
    trivial
  · obtain ⟨tokens', -, h⟩ := exists_of_bind h
    obtain ⟨tokens'', -, h⟩ := exists_of_bind h
    cases h
    trivial
  · obtain ⟨tokens', -, h⟩ := exists_of_bind h
    cases h
    trivial
  · obtain ⟨tokens', -, h⟩ := exists_of_bind h
    split at h
    · split at h
      · obtain ⟨tokens'', -, h⟩ := exists_of_bind h
        cases h
        trivial
      · cases h
    · obtain ⟨tokens'', -, h⟩ := exists_of_bind h
      cases h
      trivial
  · cases h

theorem named_of_takeSubset {fuel : Nat} {tokens rest : List Token}
    {declarations : List Declaration} (htokens : NamedTokens tokens)
    (h : takeSubset fuel tokens = .ok (declarations, rest)) : NamedDeclarations declarations := by
  fun_induction takeSubset fuel tokens generalizing declarations rest with
  | case1 =>
    cases h
    exact fun _ hd => absurd hd List.not_mem_nil
  | case2 => cases h
  | case3 fuel tokens ih => exact ih (List.forall_mem_cons.1 htokens).2 h
  | case4 fuel tokens ih =>
    obtain ⟨⟨declarations', tokens'⟩, hsubset, h⟩ := exists_of_bind h
    cases h
    exact List.forall_mem_cons.2 ⟨trivial, ih (List.forall_mem_cons.1 htokens).2 hsubset⟩
  | case5 fuel tokens ih =>
    have htokens := (List.forall_mem_cons.1 htokens).2
    obtain ⟨⟨declaration, tokens1⟩, hentity, h⟩ := exists_of_bind h
    obtain ⟨⟨declarations', tokens2⟩, hsubset, h⟩ := exists_of_bind h
    cases h
    exact List.forall_mem_cons.2 ⟨named_of_takeEntity hentity,
      ih tokens1 (NamedTokens.of_suffix htokens (takeEntity_suffix hentity)) hsubset⟩
  | case6 fuel tokens _ ih =>
    have htokens := (List.forall_mem_cons.1 htokens).2
    obtain ⟨⟨element, tokens1⟩, helement, h⟩ := exists_of_bind h
    obtain ⟨⟨rules, tokens2⟩, hattributes, h⟩ := exists_of_bind h
    obtain ⟨⟨declarations', tokens3⟩, hsubset, h⟩ := exists_of_bind h
    cases h
    have htokens1 := NamedTokens.of_suffix htokens (takeElementName_suffix helement)
    obtain ⟨hrules, hsuffix⟩ := named_of_takeAttributes htokens1 hattributes
    have hdeclarations := ih tokens2 (htokens1.of_suffix hsuffix) hsubset
    exact fun d hd => (List.mem_append.1 hd).elim (hrules d) (hdeclarations d)
  | case7 fuel tokens _ _ ih =>
    obtain ⟨tokens1, helement, h⟩ := exists_of_bind h
    exact ih tokens1 (NamedTokens.of_suffix (List.forall_mem_cons.1 htokens).2
      (takeElement_suffix helement)) h
  | case8 fuel tokens _ _ _ ih =>
    obtain ⟨tokens1, hnotation, h⟩ := exists_of_bind h
    exact ih tokens1 (NamedTokens.of_suffix (List.forall_mem_cons.1 htokens).2
      (takeNotation_suffix hnotation)) h
  | case9 => cases h
  | case10 => cases h

theorem named_of_takeBrackets {tokens rest : List Token} {declarations : List Declaration}
    (htokens : NamedTokens tokens) (h : takeBrackets tokens = .ok (declarations, rest)) :
    NamedDeclarations declarations := by
  unfold takeBrackets at h
  split at h
  · obtain ⟨⟨declarations', tokens'⟩, hsubset, h⟩ := exists_of_bind h
    obtain ⟨tokens'', -, h⟩ := exists_of_bind h
    cases h
    exact named_of_takeSubset (List.forall_mem_cons.1 htokens).2 hsubset
  · obtain ⟨tokens', -, h⟩ := exists_of_bind h
    cases h
    exact fun _ hd => absurd hd List.not_mem_nil

theorem named_of_takeDoctype {tokens rest : List Token} {declarations : List Declaration}
    {more : Bool} (htokens : NamedTokens tokens)
    (h : takeDoctype tokens = .ok ((declarations, more), rest)) :
    NamedDeclarations declarations := by
  obtain ⟨⟨name, tokens1⟩, hname, h⟩ := exists_of_bind h
  have htokens1 := htokens.of_suffix (takeElementName_suffix hname)
  dsimp only at h
  split at h
  · obtain ⟨tokens2, hexternal, h⟩ := exists_of_bind h
    obtain ⟨⟨declarations', tokens3⟩, hbrackets, h⟩ := exists_of_bind h
    cases h
    exact named_of_takeBrackets (htokens1.of_suffix (takeExternal_suffix hexternal)) hbrackets
  · obtain ⟨⟨declarations', tokens3⟩, hbrackets, h⟩ := exists_of_bind h
    cases h
    exact named_of_takeBrackets htokens1 hbrackets

/-! ## Names in rules -/

/-- The rules of the document are for attributes with names. -/
def NamedRules (dtd : Dtd) : Prop := ∀ declared ∈ dtd.rules, IsName (splitName declared.2.name).2

theorem NamedRules.add {dtd : Dtd} (h : dtd.NamedRules) {name : List Char}
    (hname : IsName (splitName name).2)
    (element : List Char) (words : Bool) (fallback : Option (List Char)) :
    NamedRules { dtd with rules := dtd.rules ++ [(element, ⟨name, words, fallback⟩)] } := by
  intro declared hmem
  rcases List.mem_append.1 hmem with hmem | hmem
  · exact h declared hmem
  · rw [List.mem_singleton.1 hmem]
    exact hname

theorem namedRules_of_declare {dtd dtd' : Dtd} {heeded heeded' : Bool} {declaration : Declaration}
    (hdtd : dtd.NamedRules) (hdeclaration : declaration.Named)
    (h : declare (dtd, heeded) declaration = .ok (dtd', heeded')) : dtd'.NamedRules := by
  unfold declare at h
  cases declaration with
  | parameter =>
    cases h
    exact hdtd
  | outside name =>
    dsimp only at h
    split at h <;> cases h <;> exact hdtd
  | parameterEntity literal =>
    dsimp only at h
    split at h
    · obtain ⟨text, -, h⟩ := exists_of_bind h
      cases h
      exact hdtd
    · cases h
      exact hdtd
  | entity name literal =>
    dsimp only at h
    split at h
    · obtain ⟨text, -, h⟩ := exists_of_bind h
      split at h <;> cases h <;> exact hdtd
    · cases h
      exact hdtd
  | attributeRule element name words literal =>
    have hadded := hdtd.add hdeclaration element words
    dsimp only at h
    split at h
    · cases literal with
      | none =>
        obtain ⟨fallback, -, h⟩ := exists_of_bind h
        split at h <;> cases h
        · exact hadded fallback
        · exact hdtd
      | some s =>
        obtain ⟨value, -, h⟩ := exists_of_bind h
        obtain ⟨fallback, -, h⟩ := exists_of_bind h
        split at h <;> cases h
        · exact hadded fallback
        · exact hdtd
    · cases h
      exact hdtd

theorem namedRules_of_foldlM {declarations : List Declaration} {state : Dtd × Bool} {dtd : Dtd}
    {heeded : Bool} (hstate : state.1.NamedRules) (hdeclarations : NamedDeclarations declarations)
    (h : declarations.foldlM declare state = .ok (dtd, heeded)) : dtd.NamedRules := by
  induction declarations generalizing state with
  | nil =>
    cases h
    exact hstate
  | cons declaration declarations ih =>
    obtain ⟨hdeclaration, hrest⟩ := List.forall_mem_cons.1 hdeclarations
    rw [List.foldlM_cons] at h
    obtain ⟨⟨dtd1, heeded1⟩, hdeclare, h⟩ := exists_of_bind h
    exact ih (namedRules_of_declare hstate hdeclaration hdeclare) hrest h

/-- The declarations of named tokens give rules for attributes with names. -/
theorem namedRules_of_ofTokens {standalone : Bool} {tokens : List Token} {dtd : Dtd}
    (htokens : NamedTokens tokens) (h : ofTokens standalone tokens = .ok dtd) : dtd.NamedRules := by
  have hdropped := htokens.of_suffix (List.dropWhile_suffix (· == .aside))
  unfold ofTokens at h
  dsimp only at h
  split at h
  · cases h
    exact fun _ hd => absurd hd List.not_mem_nil
  · next keyword tokens' heq =>
    rw [heq] at hdropped
    split at h
    · obtain ⟨⟨⟨declarations, more⟩, tokens''⟩, hdoctype, h⟩ := exists_of_bind h
      dsimp only at h
      split at h
      · obtain ⟨⟨dtd', heeded⟩, hfold, h⟩ := exists_of_bind h
        have hnone : NamedRules { standalone := standalone } := fun _ hd =>
          absurd hd List.not_mem_nil
        have hdtd := namedRules_of_foldlM hnone
          (named_of_takeDoctype (List.forall_mem_cons.1 hdropped).2 hdoctype) hfold
        cases h
        exact hdtd
      · cases h
    · cases h
  · cases h

end Assessment.Xml.Dtd
