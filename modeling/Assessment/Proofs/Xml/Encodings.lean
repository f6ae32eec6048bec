import Assessment.Proofs.Xml.Faults
import Assessment.Report.Item

/-!
# Proofs: encodings that are not read

A document that comes as bytes can fail for a reason that has nothing to do with its being well formed:
the name of its encoding. Where the name stands depends on how the first bytes say that the document is
read (`Source.form`). With a name that is read, or without one, a document is read or is not well formed
(`failsMalformed_readDocument_iff`), and a report then says which item was expected.
-/

namespace Assessment.Xml

open Assessment.Text FailsMalformed

namespace FailsMalformed

variable {α β : Type}

theorem ok_bind (a : α) (f : α → Except Fault β) : (Except.ok a >>= f) = f a := rfl

theorem bind_iff {x : Except Fault α} {f : α → Except Fault β} (hf : ∀ a, FailsMalformed (f a)) :
    FailsMalformed (x >>= f) ↔ FailsMalformed x := by
  constructor
  · intro h fault hx
    rw [hx] at h
    exact h fault rfl
  · exact fun hx => hx.bind hf

end FailsMalformed

/-! ## Names -/

namespace Encoding

/-- The names, in small letters, that need not be looked up. -/
def plainNames : List String :=
  ["utf-8", "iso-8859-1", "us-ascii"] ++ ["utf-16", "utf-16be", "utf-16le"]

/-- The names that are looked up and stand for an encoding that is read. -/
def knownNames : List String := latin1Names ++ asciiNames ++ latin9Names ++ windows1252Names

/-- Documents with an encoding of this name are read. -/
def isRead (name : List Char) : Bool :=
  isOneOf (name.map Char.toLower) plainNames || isOneOf (normalizedName name) knownNames

theorem isOneOf_of_mem {name : List Char} {names : List String} (known : String)
    (hknown : known ∈ names) (h : name = known.toList) : isOneOf name names = true :=
  List.any_eq_true.2 ⟨known, hknown, beq_iff_eq.2 h.symm⟩

theorem isOneOf_append (name : List Char) (names more : List String) :
    isOneOf name (names ++ more) = (isOneOf name names || isOneOf name more) := List.any_append

/-- A document is refused for the name of its encoding exactly if that is not read. -/
theorem failsMalformed_ofName_iff (name : List Char) :
    FailsMalformed (ofName name) ↔ isRead name = true := by
  have hplain (h : isOneOf (name.map Char.toLower) plainNames = true) {x : Except Fault Encoding}
      (hx : FailsMalformed x) : FailsMalformed x ↔ isRead name = true :=
    iff_of_true hx (by rw [isRead, h, Bool.true_or])
  have hknown (h : isOneOf (normalizedName name) knownNames = true) (encoding : Encoding) :
      FailsMalformed (.ok encoding : Except Fault Encoding) ↔ isRead name = true :=
    iff_of_true (ok encoding) (by rw [isRead, h, Bool.or_true])
  unfold ofName
  dsimp only
  split
  · next h => exact hplain (isOneOf_of_mem "utf-8" (by decide) h) (ok _)
  split
  · next h => exact hplain (isOneOf_of_mem "iso-8859-1" (by decide) h) (ok _)
  split
  · next h => exact hplain (isOneOf_of_mem "us-ascii" (by decide) h) (ok _)
  split
  · next h => exact hplain (by rw [plainNames, isOneOf_append, h, Bool.or_true]) (error_iff.2 rfl)
  next hutf8 hlatin1 hascii hwide =>
  split
  · next h => exact hknown (by simp [knownNames, isOneOf_append, h]) _
  split
  · next h => exact hknown (by simp [knownNames, isOneOf_append, h]) _
  split
  · next h => exact hknown (by simp [knownNames, isOneOf_append, h]) _
  split
  · next h => exact hknown (by simp [knownNames, isOneOf_append, h]) _
  next hlatin1Name hasciiName hlatin9 hwindows =>
  have hnone : isRead name = false := by
    simp only [isRead, plainNames, knownNames, isOneOf_append, Bool.or_eq_false_iff]
    refine ⟨⟨?_, eq_false_of_ne_true hwide⟩, ⟨⟨eq_false_of_ne_true hlatin1Name,
      eq_false_of_ne_true hasciiName⟩, eq_false_of_ne_true hlatin9⟩, eq_false_of_ne_true hwindows⟩
    refine List.any_eq_false.2 fun known hknown heq => ?_
    have hsame := (beq_iff_eq.1 heq).symm
    simp only [List.mem_cons, List.not_mem_nil, or_false] at hknown
    rcases hknown with rfl | rfl | rfl
    · exact hutf8 hsame
    · exact hlatin1 hsame
    · exact hascii hsame
  rw [hnone]
  split
  · simp [Fault.isMalformed]
  · simp [Fault.isMalformed]

theorem failsMalformed_checkWide_iff (bigEndian : Bool) (name : List Char) :
    FailsMalformed (checkWide bigEndian name) ↔ isRead name = true := by
  have hplain (known : String) (hmem : known ∈ plainNames)
      (h : name.map Char.toLower = known.toList) :
      FailsMalformed (.ok () : Except Fault Unit) ↔ isRead name = true :=
    iff_of_true (ok ()) (by rw [isRead, isOneOf_of_mem known hmem h, Bool.true_or])
  unfold checkWide
  dsimp only
  by_cases hwide : name.map Char.toLower = "utf-16".toList
  · rw [if_pos hwide]
    exact hplain "utf-16" (by decide) hwide
  · rw [if_neg hwide]
    by_cases horder : name.map Char.toLower = (if bigEndian then "utf-16be" else "utf-16le").toList
    · rw [if_pos horder]
      cases bigEndian with
      | true => exact hplain "utf-16be" (by decide) horder
      | false => exact hplain "utf-16le" (by decide) horder
    · rw [if_neg horder, bind_iff fun _ => throw_iff.2 rfl]
      exact failsMalformed_ofName_iff name

end Encoding

/-! ## Declared names -/

/-- The name of the encoding that a text declares at its start. -/
def Declaration.encodingOf? (s : List Char) : Option (List Char) :=
  match Declaration.read s with
  | .ok (declaration, _) => declaration.bind (·.encoding)
  | .error _ => none

/-- The way in which a document is read. -/
inductive Form where
  /-- As text. -/
  | text (s : List Char)
  /-- In UTF-16 with the given order of bytes. -/
  | wide (bigEndian : Bool) (bytes : List UInt8)
  /-- With one byte for each character of the ASCII range. -/
  | narrow (bytes : List UInt8)

namespace Form

/-- The declaration and the rest of a document. -/
def read : Form → Except Fault (Option Declaration × List Char)
  | text s => Declaration.read s
  | wide bigEndian bytes => Source.readWide bigEndian bytes
  | narrow bytes => Source.readNarrow bytes

/-- The name of the encoding that the bytes of a document declare. -/
def encoding? : Form → Option (List Char)
  | text _ => none
  | wide bigEndian bytes => Declaration.encodingOf? (Wide.ofBytes bigEndian bytes).text
  | narrow bytes => Declaration.encodingOf? (bytes.map fun byte => Char.ofNat byte.toNat)

theorem failsMalformed_readWide_iff (bigEndian : Bool) (bytes : List UInt8) :
    FailsMalformed (Source.readWide bigEndian bytes) ↔
      ∀ name, Declaration.encodingOf? (Wide.ofBytes bigEndian bytes).text = some name →
        Encoding.isRead name = true := by
  have hdeclaration := Declaration.failsMalformed_read (Wide.ofBytes bigEndian bytes).text
  unfold Declaration.encodingOf? Source.readWide
  dsimp only
  cases hread : Declaration.read (Wide.ofBytes bigEndian bytes).text with
  | error fault => exact iff_of_true (hdeclaration.of_error hread) nofun
  | ok found =>
    obtain ⟨declaration, rest⟩ := found
    have hwhole : FailsMalformed (if (Wide.ofBytes bigEndian bytes).isWhole then
        Pure.pure (declaration, rest) else throw .undecodable) := by
      split
      · exact pure _
      · exact throw_iff.2 rfl
    rw [ok_bind]
    dsimp only
    cases hname : declaration.bind (·.encoding) with
    | none => exact iff_of_true hwhole nofun
    | some name =>
      simp only [Option.some.injEq, forall_eq']
      exact (bind_iff fun _ => hwhole).trans (Encoding.failsMalformed_checkWide_iff bigEndian name)

theorem failsMalformed_readNarrow_iff (bytes : List UInt8) :
    FailsMalformed (Source.readNarrow bytes) ↔
      ∀ name, Declaration.encodingOf? (bytes.map fun byte => Char.ofNat byte.toNat) = some name →
        Encoding.isRead name = true := by
  have hdeclaration := Declaration.failsMalformed_read (bytes.map fun byte => Char.ofNat byte.toNat)
  unfold Declaration.encodingOf? Source.readNarrow
  dsimp only
  cases hread : Declaration.read (bytes.map fun byte => Char.ofNat byte.toNat) with
  | error fault => exact iff_of_true (hdeclaration.of_error hread) nofun
  | ok found =>
    obtain ⟨declaration, rest⟩ := found
    rw [ok_bind]
    dsimp only
    cases hname : declaration.bind (·.encoding) with
    | none =>
      refine (bind_iff fun encoding => ?_).trans (iff_of_true (pure Encoding.utf8) nofun)
      split
      · exact throw_iff.2 rfl
      · exact Declaration.failsMalformed_read _
    | some name =>
      simp only [Option.some.injEq, forall_eq']
      refine (bind_iff fun encoding => ?_).trans (Encoding.failsMalformed_ofName_iff name)
      split
      · exact throw_iff.2 rfl
      · exact Declaration.failsMalformed_read _

/-- A document that is read in this way is not well formed if it fails, unless the name of its encoding is
not read. -/
theorem failsMalformed_read_iff (form : Form) :
    FailsMalformed form.read ↔ ∀ name, form.encoding? = some name → Encoding.isRead name = true := by
  cases form with
  | text s => exact iff_of_true (Declaration.failsMalformed_read s) nofun
  | wide bigEndian bytes => exact failsMalformed_readWide_iff bigEndian bytes
  | narrow bytes => exact failsMalformed_readNarrow_iff bytes

end Form

namespace Source

/-- The way in which a document is read, by its first bytes. -/
def form : Source → Form
  | .text ('\uFEFF' :: s) => .text s
  | .text s => .text s
  | .bytes (0xFE :: 0xFF :: rest) => .wide true rest
  | .bytes (0xFF :: 0xFE :: rest) => .wide false rest
  | .bytes (0xEF :: 0xBB :: 0xBF :: rest) => .narrow rest
  | .bytes (0 :: second :: rest) => .wide true (0 :: second :: rest)
  | .bytes (first :: 0 :: rest) => .wide false (first :: 0 :: rest)
  | .bytes all => .narrow all

theorem read_eq (source : Source) : source.read = source.form.read := by
  fun_cases Source.read source with
  | case1 s => rfl
  | case2 s hmark => rw [form, Form.read]; exact hmark
  | case3 rest => rfl
  | case4 rest => rfl
  | case5 rest => rfl
  | case6 second rest => rfl
  | case7 first rest hfirst => rw [form, Form.read]; exact hfirst
  | case8 all hbig hlittle hmark hzero hsecond =>
    rw [form, Form.read]
    · exact hbig
    · exact hlittle
    · exact hmark
    · exact hzero
    · exact hsecond

/-- The name of the encoding that a document declares. That of a text does not count. -/
def encoding? (source : Source) : Option (List Char) := source.form.encoding?

end Source

/-! ## Documents -/

/-- A document that cannot be read is not well formed, unless it declares an encoding that is not read. -/
theorem failsMalformed_readDocument_iff (source : Source) :
    FailsMalformed (readDocument source) ↔
      ∀ name, source.encoding? = some name → Encoding.isRead name = true := by
  unfold readDocument
  rw [bind_iff fun _ => failsMalformed_readText _ _, source.read_eq]
  exact source.form.failsMalformed_read_iff

/-- The reason for which a document is refused. -/
def faultOf? (source : Source) : Option Fault :=
  match readDocument source with
  | .ok _ => none
  | .error fault => some fault

theorem faultOf?_eq_some_iff {source : Source} {fault : Fault} :
    faultOf? source = some fault ↔ readDocument source = .error fault := by
  unfold faultOf?
  cases readDocument source with
  | ok root => exact iff_of_false nofun nofun
  | error other => exact ⟨fun h => congrArg Except.error (Option.some.inj h), fun h => by cases h; rfl⟩

end Assessment.Xml

namespace Assessment.Report

open Assessment.Xml

/-- The bytes of a text of the ASCII range. -/
def bytesOf (s : String) : Source := .bytes (s.toList.map fun c => c.toNat.toUInt8)

/-- A document that declares an encoding that is looked up, with an end tag of another element. -/
def mismatchedSample : Source := bytesOf "<?xml version='1.0' encoding='latin9'?><i></q>"

/-- A document that is well formed but for the name of its encoding. -/
def unknownNameSample : Source :=
  bytesOf "<?xml version=\"1.0\" encoding=\"x-none\"?><i identifier=\"q\"><qti-item-body/></i>"

end Assessment.Report
