import Assessment.Markup.Entity
import Assessment.Xml.Declaration

/-!
# The bytes of a document

A document that comes as bytes says in its first bytes and in its declaration how they are to be
read. A byte order mark, or a zero among the first two bytes, tells the two orders of UTF-16; what
has neither is read as UTF-8 unless its declaration names another encoding that takes one byte for
each character of the ASCII range.
-/

namespace Assessment.Xml

open Assessment.Text

/-- How bytes are read that are not in UTF-16. -/
inductive Encoding where
  /-- UTF-8. -/
  | utf8
  /-- One byte for each character. `high` gives the characters of the bytes from 128 on. -/
  | single (high : Nat → Option Nat)

namespace Encoding

/-- Bytes of the ASCII range only. -/
def ascii : Encoding := .single fun _ => none

/-- Each byte is the number of its character. -/
def latin1 : Encoding := .single some

/-- The Windows code page 1252. -/
def windows1252 : Encoding := .single fun n =>
  if n ∈ [0x81, 0x8D, 0x8F, 0x90, 0x9D] then none else some (Markup.Entity.windowsCode n)

/-- The western alphabet with the euro sign. -/
def latin9 : Encoding := .single fun n =>
  some ((([(0xA4, 0x20AC), (0xA6, 0x160), (0xA8, 0x161), (0xB4, 0x17D), (0xB8, 0x17E),
    (0xBC, 0x152), (0xBD, 0x153), (0xBE, 0x178)].find? fun e => e.1 == n).map (·.2)).getD n)

/-- The character of a byte. -/
def singleChar? (high : Nat → Option Nat) (byte : UInt8) : Option Char :=
  if byte.toNat < 128 then some (Char.ofNat byte.toNat) else (high byte.toNat).map Char.ofNat

/-- The characters of bytes. -/
def decode? (encoding : Encoding) (bytes : List UInt8) : Option (List Char) :=
  match encoding with
  | utf8 => (String.fromUTF8? ⟨bytes.toArray⟩).map String.toList
  | single high => bytes.mapM (singleChar? high)

/-! ## Names -/

/-- The form in which the name of an encoding is looked up: in small letters, with one low line
between its parts. -/
def normalizedName (name : List Char) : List Char :=
  joinWith ['_']
    ((splitOn '_' (name.map fun c => if c.isAlphanum || c == '.' then c.toLower else '_')).filter
      fun part => !part.isEmpty)

/-- The name is among the given ones. -/
def isOneOf (name : List Char) (names : List String) : Bool :=
  names.any fun known => known.toList == name

/-- Names of the encoding in which each byte is the number of its character. -/
def latin1Names : List String :=
  ["latin_1", "latin1", "latin", "iso8859_1", "iso_8859_1", "iso8859", "cp819", "ibm819",
    "csisolatin1", "iso_8859_1_1987", "iso_ir_100", "l1"]

/-- Names of encodings of which the bytes of the ASCII range alone are read. -/
def asciiNames : List String :=
  ["ascii", "us_ascii", "us", "cp367", "ibm367", "csascii", "iso646_us", "iso_646.irv_1991",
    "iso_ir_6", "ansi_x3.4_1968", "ansi_x3_4_1968", "ansi_x3.4_1986", "utf8", "utf_8", "u8", "utf",
    "utf8_ucs2", "utf8_ucs4", "cp65001", "utf_8_sig", "iso8859_2", "iso_8859_2", "latin2", "l2",
    "iso8859_3", "iso_8859_3", "latin3", "l3", "iso8859_4", "iso_8859_4", "latin4", "l4",
    "iso8859_5", "iso_8859_5", "cyrillic", "iso8859_6", "iso_8859_6", "arabic", "iso8859_7",
    "iso_8859_7", "greek", "iso8859_8", "iso_8859_8", "hebrew", "iso8859_9", "iso_8859_9", "latin5",
    "l5", "iso8859_10", "iso_8859_10", "latin6", "l6", "iso8859_11", "iso_8859_11", "thai",
    "iso8859_13", "iso_8859_13", "latin7", "l7", "iso8859_14", "iso_8859_14", "latin8", "l8",
    "iso8859_16", "iso_8859_16", "latin10", "l10", "cp1250", "windows_1250", "cp1251",
    "windows_1251", "cp1253", "windows_1253", "cp1254", "windows_1254", "cp1255", "windows_1255",
    "cp1256", "windows_1256", "cp1257", "windows_1257", "cp1258", "windows_1258", "cp437", "ibm437",
    "cp850", "ibm850", "cp852", "ibm852", "cp866", "ibm866", "koi8_r", "koi8_u", "mac_roman",
    "macroman", "macintosh", "tis_620", "tis620"]

/-- Names of the western alphabet with the euro sign. -/
def latin9Names : List String := ["iso8859_15", "iso_8859_15", "latin9", "l9"]

/-- Names of the Windows code page 1252. -/
def windows1252Names : List String := ["cp1252", "windows_1252"]

/-- Names of encodings that take several bytes for a character and are not read. -/
def multiByteNames : List String :=
  ["utf_32", "utf32", "u32", "utf_32_be", "utf_32be", "utf_32_le", "utf_32le", "utf16", "u16",
    "utf_16", "utf_16_be", "utf_16be", "utf_16_le", "utf_16le", "unicodebigunmarked",
    "unicodelittleunmarked", "utf_7", "utf7", "u7", "unicode_1_1_utf_7", "big5", "big5_tw",
    "csbig5", "big5hkscs", "big5_hkscs", "hkscs", "cp932", "ms932", "mskanji", "ms_kanji",
    "windows_31j", "cp949", "ms949", "uhc", "cp950", "ms950", "euc_jp", "eucjp", "ujis", "u_jis",
    "euc_jis_2004", "jisx0213", "eucjis2004", "euc_jisx0213", "eucjisx0213", "euc_kr", "euckr",
    "korean", "ksc5601", "ks_c_5601", "ks_c_5601_1987", "ksx1001", "ks_x_1001", "gb2312", "chinese",
    "csiso58gb231280", "euc_cn", "euccn", "eucgb2312_cn", "gb2312_1980", "gb2312_80", "iso_ir_58",
    "gbk", "cp936", "ms936", "gb18030", "gb18030_2000", "hz", "hzgb", "hz_gb", "hz_gb_2312",
    "iso2022_jp", "csiso2022jp", "iso2022jp", "iso_2022_jp", "iso2022_kr", "csiso2022kr",
    "iso2022kr", "iso_2022_kr", "johab", "cp1361", "ms1361", "shift_jis", "shiftjis", "sjis",
    "s_jis", "csshiftjis", "shift_jis_2004", "shiftjis2004", "sjis_2004", "shift_jisx0213",
    "shiftjisx0213", "sjisx0213"]

/-- The encoding that takes one byte for each character of the ASCII range, by its declared name. -/
def ofName (name : List Char) : Except Fault Encoding :=
  let declared := name.map Char.toLower
  if declared = "utf-8".toList then .ok .utf8
  else if declared = "iso-8859-1".toList then .ok latin1
  else if declared = "us-ascii".toList then .ok ascii
  else if isOneOf declared ["utf-16", "utf-16be", "utf-16le"] then .error .wrongEncoding
  else
    let known := normalizedName name
    if isOneOf known latin1Names then .ok latin1
    else if isOneOf known asciiNames then .ok ascii
    else if isOneOf known latin9Names then .ok latin9
    else if isOneOf known windows1252Names then .ok windows1252
    else if isOneOf known multiByteNames then .error .multiByteEncoding
    else .error .unknownEncoding

/-- The declared name fits UTF-16 with the given order of bytes. -/
def checkWide (bigEndian : Bool) (name : List Char) : Except Fault Unit :=
  let declared := name.map Char.toLower
  if declared = "utf-16".toList then .ok ()
  else if declared = (if bigEndian then "utf-16be" else "utf-16le").toList then .ok ()
  else do
    let _ ← ofName name
    throw .wrongEncoding

end Encoding

/-! ## UTF-16 -/

/-- What can be read of bytes in UTF-16. -/
structure Wide where
  /-- The characters up to the first fault. -/
  text : List Char
  /-- There is no fault. -/
  isWhole : Bool

namespace Wide

/-- The units of two bytes each, and whether no byte is left over. -/
def units (bigEndian : Bool) : List UInt8 → List Nat × Bool
  | [] => ([], true)
  | [_] => ([], false)
  | a :: b :: bytes =>
    let (rest, isWhole) := units bigEndian bytes
    ((if bigEndian then a.toNat * 256 + b.toNat else b.toNat * 256 + a.toNat) :: rest, isWhole)

/-- The text with a character in front. -/
def cons (code : Nat) (wide : Wide) : Wide := { wide with text := Char.ofNat code :: wide.text }

/-- The characters of units. A high surrogate makes one character with the unit that follows, of which
the ten low bits count. -/
def ofUnits (isWhole : Bool) : List Nat → Wide
  | [] => ⟨[], isWhole⟩
  | unit :: units =>
    if 0xD800 ≤ unit && unit ≤ 0xDBFF then
      match units with
      | low :: units =>
        (ofUnits isWhole units).cons (0x10000 + (unit - 0xD800) * 0x400 + low % 0x400)
      | [] => ⟨[], false⟩
    else if 0xDC00 ≤ unit && unit ≤ 0xDFFF then ⟨[], false⟩
    else (ofUnits isWhole units).cons unit

/-- What can be read of bytes. -/
def ofBytes (bigEndian : Bool) (bytes : List UInt8) : Wide :=
  let (units, isWhole) := units bigEndian bytes
  ofUnits isWhole units

end Wide

/-! ## Sources -/

/-- What a document is read from. -/
inductive Source where
  /-- Text. The encoding that it declares does not count. -/
  | text (s : List Char)
  /-- Bytes. -/
  | bytes (bytes : List UInt8)

namespace Source

/-- The declaration and the rest of a document in UTF-16. The declaration is looked at before any
fault that comes after it. -/
def readWide (bigEndian : Bool) (bytes : List UInt8) :
    Except Fault (Option Declaration × List Char) := do
  let wide := Wide.ofBytes bigEndian bytes
  let (declaration, rest) ← Declaration.read wide.text
  match declaration.bind (·.encoding) with
  | some name => Encoding.checkWide bigEndian name
  | none => pure ()
  if wide.isWhole then return (declaration, rest) else throw .undecodable

/-- The declaration and the rest of a document in which each character of the ASCII range takes one
byte. The declaration itself is of such characters, and so it can be read before its encoding is
known. -/
def readNarrow (bytes : List UInt8) : Except Fault (Option Declaration × List Char) := do
  let (declaration, _) ← Declaration.read (bytes.map fun byte => Char.ofNat byte.toNat)
  let encoding ← match declaration.bind (·.encoding) with
    | some name => Encoding.ofName name
    | none => pure .utf8
  match encoding.decode? bytes with
  | none => throw .undecodable
  | some s => Declaration.read s

/-- The declaration and the rest of a document. -/
def read : Source → Except Fault (Option Declaration × List Char)
  | .text ('\uFEFF' :: s) => Declaration.read s
  | .text s => Declaration.read s
  | .bytes (0xFE :: 0xFF :: rest) => readWide true rest
  | .bytes (0xFF :: 0xFE :: rest) => readWide false rest
  | .bytes (0xEF :: 0xBB :: 0xBF :: rest) => readNarrow rest
  | .bytes (0 :: second :: rest) => readWide true (0 :: second :: rest)
  | .bytes (first :: 0 :: rest) => readWide false (first :: 0 :: rest)
  | .bytes all => readNarrow all

end Source

end Assessment.Xml
