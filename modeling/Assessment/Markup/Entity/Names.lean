/-!
# Named characters

The names that HTML gives to characters, each with its one or two code points, in a list for each
first letter. Some names are also understood where no semicolon ends them; these are the legacy names.
-/

namespace Assessment.Markup.Entity

/-- A name and the code points it stands for. -/
structure Entry where
  /-- The name, without the ampersand and the semicolon. -/
  name : String
  /-- The first code point. -/
  first : Nat
  /-- The second code point, if there is one. -/
  second : Option Nat := none

/-- The names that start with a capital A. -/
def namesUpperA : List Entry := [
  ⟨"AElig", 0xC6, none⟩, ⟨"AMP", 0x26, none⟩, ⟨"Aacute", 0xC1, none⟩, ⟨"Abreve", 0x102, none⟩,
  ⟨"Acirc", 0xC2, none⟩, ⟨"Acy", 0x410, none⟩, ⟨"Afr", 0x1D504, none⟩, ⟨"Agrave", 0xC0, none⟩,
  ⟨"Alpha", 0x391, none⟩, ⟨"Amacr", 0x100, none⟩, ⟨"And", 0x2A53, none⟩, ⟨"Aogon", 0x104, none⟩,
  ⟨"Aopf", 0x1D538, none⟩, ⟨"ApplyFunction", 0x2061, none⟩, ⟨"Aring", 0xC5, none⟩,
  ⟨"Ascr", 0x1D49C, none⟩, ⟨"Assign", 0x2254, none⟩, ⟨"Atilde", 0xC3, none⟩, ⟨"Auml", 0xC4, none⟩]

/-- The names that start with a capital B. -/
def namesUpperB : List Entry := [
  ⟨"Backslash", 0x2216, none⟩, ⟨"Barv", 0x2AE7, none⟩, ⟨"Barwed", 0x2306, none⟩,
  ⟨"Bcy", 0x411, none⟩, ⟨"Because", 0x2235, none⟩, ⟨"Bernoullis", 0x212C, none⟩,
  ⟨"Beta", 0x392, none⟩, ⟨"Bfr", 0x1D505, none⟩, ⟨"Bopf", 0x1D539, none⟩, ⟨"Breve", 0x2D8, none⟩,
  ⟨"Bscr", 0x212C, none⟩, ⟨"Bumpeq", 0x224E, none⟩]

/-- The names that start with a capital C. -/
def namesUpperC : List Entry := [
  ⟨"CHcy", 0x427, none⟩, ⟨"COPY", 0xA9, none⟩, ⟨"Cacute", 0x106, none⟩, ⟨"Cap", 0x22D2, none⟩,
  ⟨"CapitalDifferentialD", 0x2145, none⟩, ⟨"Cayleys", 0x212D, none⟩, ⟨"Ccaron", 0x10C, none⟩,
  ⟨"Ccedil", 0xC7, none⟩, ⟨"Ccirc", 0x108, none⟩, ⟨"Cconint", 0x2230, none⟩,
  ⟨"Cdot", 0x10A, none⟩, ⟨"Cedilla", 0xB8, none⟩, ⟨"CenterDot", 0xB7, none⟩,
  ⟨"Cfr", 0x212D, none⟩, ⟨"Chi", 0x3A7, none⟩, ⟨"CircleDot", 0x2299, none⟩,
  ⟨"CircleMinus", 0x2296, none⟩, ⟨"CirclePlus", 0x2295, none⟩, ⟨"CircleTimes", 0x2297, none⟩,
  ⟨"ClockwiseContourIntegral", 0x2232, none⟩, ⟨"CloseCurlyDoubleQuote", 0x201D, none⟩,
  ⟨"CloseCurlyQuote", 0x2019, none⟩, ⟨"Colon", 0x2237, none⟩, ⟨"Colone", 0x2A74, none⟩,
  ⟨"Congruent", 0x2261, none⟩, ⟨"Conint", 0x222F, none⟩, ⟨"ContourIntegral", 0x222E, none⟩,
  ⟨"Copf", 0x2102, none⟩, ⟨"Coproduct", 0x2210, none⟩,
  ⟨"CounterClockwiseContourIntegral", 0x2233, none⟩, ⟨"Cross", 0x2A2F, none⟩,
  ⟨"Cscr", 0x1D49E, none⟩, ⟨"Cup", 0x22D3, none⟩, ⟨"CupCap", 0x224D, none⟩]

/-- The names that start with a capital D. -/
def namesUpperD : List Entry := [
  ⟨"DD", 0x2145, none⟩, ⟨"DDotrahd", 0x2911, none⟩, ⟨"DJcy", 0x402, none⟩, ⟨"DScy", 0x405, none⟩,
  ⟨"DZcy", 0x40F, none⟩, ⟨"Dagger", 0x2021, none⟩, ⟨"Darr", 0x21A1, none⟩,
  ⟨"Dashv", 0x2AE4, none⟩, ⟨"Dcaron", 0x10E, none⟩, ⟨"Dcy", 0x414, none⟩, ⟨"Del", 0x2207, none⟩,
  ⟨"Delta", 0x394, none⟩, ⟨"Dfr", 0x1D507, none⟩, ⟨"DiacriticalAcute", 0xB4, none⟩,
  ⟨"DiacriticalDot", 0x2D9, none⟩, ⟨"DiacriticalDoubleAcute", 0x2DD, none⟩,
  ⟨"DiacriticalGrave", 0x60, none⟩, ⟨"DiacriticalTilde", 0x2DC, none⟩, ⟨"Diamond", 0x22C4, none⟩,
  ⟨"DifferentialD", 0x2146, none⟩, ⟨"Dopf", 0x1D53B, none⟩, ⟨"Dot", 0xA8, none⟩,
  ⟨"DotDot", 0x20DC, none⟩, ⟨"DotEqual", 0x2250, none⟩, ⟨"DoubleContourIntegral", 0x222F, none⟩,
  ⟨"DoubleDot", 0xA8, none⟩, ⟨"DoubleDownArrow", 0x21D3, none⟩, ⟨"DoubleLeftArrow", 0x21D0, none⟩,
  ⟨"DoubleLeftRightArrow", 0x21D4, none⟩, ⟨"DoubleLeftTee", 0x2AE4, none⟩,
  ⟨"DoubleLongLeftArrow", 0x27F8, none⟩, ⟨"DoubleLongLeftRightArrow", 0x27FA, none⟩,
  ⟨"DoubleLongRightArrow", 0x27F9, none⟩, ⟨"DoubleRightArrow", 0x21D2, none⟩,
  ⟨"DoubleRightTee", 0x22A8, none⟩, ⟨"DoubleUpArrow", 0x21D1, none⟩,
  ⟨"DoubleUpDownArrow", 0x21D5, none⟩, ⟨"DoubleVerticalBar", 0x2225, none⟩,
  ⟨"DownArrow", 0x2193, none⟩, ⟨"DownArrowBar", 0x2913, none⟩, ⟨"DownArrowUpArrow", 0x21F5, none⟩,
  ⟨"DownBreve", 0x311, none⟩, ⟨"DownLeftRightVector", 0x2950, none⟩,
  ⟨"DownLeftTeeVector", 0x295E, none⟩, ⟨"DownLeftVector", 0x21BD, none⟩,
  ⟨"DownLeftVectorBar", 0x2956, none⟩, ⟨"DownRightTeeVector", 0x295F, none⟩,
  ⟨"DownRightVector", 0x21C1, none⟩, ⟨"DownRightVectorBar", 0x2957, none⟩,
  ⟨"DownTee", 0x22A4, none⟩, ⟨"DownTeeArrow", 0x21A7, none⟩, ⟨"Downarrow", 0x21D3, none⟩,
  ⟨"Dscr", 0x1D49F, none⟩, ⟨"Dstrok", 0x110, none⟩]

/-- The names that start with a capital E. -/
def namesUpperE : List Entry := [
  ⟨"ENG", 0x14A, none⟩, ⟨"ETH", 0xD0, none⟩, ⟨"Eacute", 0xC9, none⟩, ⟨"Ecaron", 0x11A, none⟩,
  ⟨"Ecirc", 0xCA, none⟩, ⟨"Ecy", 0x42D, none⟩, ⟨"Edot", 0x116, none⟩, ⟨"Efr", 0x1D508, none⟩,
  ⟨"Egrave", 0xC8, none⟩, ⟨"Element", 0x2208, none⟩, ⟨"Emacr", 0x112, none⟩,
  ⟨"EmptySmallSquare", 0x25FB, none⟩, ⟨"EmptyVerySmallSquare", 0x25AB, none⟩,
  ⟨"Eogon", 0x118, none⟩, ⟨"Eopf", 0x1D53C, none⟩, ⟨"Epsilon", 0x395, none⟩,
  ⟨"Equal", 0x2A75, none⟩, ⟨"EqualTilde", 0x2242, none⟩, ⟨"Equilibrium", 0x21CC, none⟩,
  ⟨"Escr", 0x2130, none⟩, ⟨"Esim", 0x2A73, none⟩, ⟨"Eta", 0x397, none⟩, ⟨"Euml", 0xCB, none⟩,
  ⟨"Exists", 0x2203, none⟩, ⟨"ExponentialE", 0x2147, none⟩]

/-- The names that start with a capital F. -/
def namesUpperF : List Entry := [
  ⟨"Fcy", 0x424, none⟩, ⟨"Ffr", 0x1D509, none⟩, ⟨"FilledSmallSquare", 0x25FC, none⟩,
  ⟨"FilledVerySmallSquare", 0x25AA, none⟩, ⟨"Fopf", 0x1D53D, none⟩, ⟨"ForAll", 0x2200, none⟩,
  ⟨"Fouriertrf", 0x2131, none⟩, ⟨"Fscr", 0x2131, none⟩]

/-- The names that start with a capital G. -/
def namesUpperG : List Entry := [
  ⟨"GJcy", 0x403, none⟩, ⟨"GT", 0x3E, none⟩, ⟨"Gamma", 0x393, none⟩, ⟨"Gammad", 0x3DC, none⟩,
  ⟨"Gbreve", 0x11E, none⟩, ⟨"Gcedil", 0x122, none⟩, ⟨"Gcirc", 0x11C, none⟩, ⟨"Gcy", 0x413, none⟩,
  ⟨"Gdot", 0x120, none⟩, ⟨"Gfr", 0x1D50A, none⟩, ⟨"Gg", 0x22D9, none⟩, ⟨"Gopf", 0x1D53E, none⟩,
  ⟨"GreaterEqual", 0x2265, none⟩, ⟨"GreaterEqualLess", 0x22DB, none⟩,
  ⟨"GreaterFullEqual", 0x2267, none⟩, ⟨"GreaterGreater", 0x2AA2, none⟩,
  ⟨"GreaterLess", 0x2277, none⟩, ⟨"GreaterSlantEqual", 0x2A7E, none⟩,
  ⟨"GreaterTilde", 0x2273, none⟩, ⟨"Gscr", 0x1D4A2, none⟩, ⟨"Gt", 0x226B, none⟩]

/-- The names that start with a capital H. -/
def namesUpperH : List Entry := [
  ⟨"HARDcy", 0x42A, none⟩, ⟨"Hacek", 0x2C7, none⟩, ⟨"Hat", 0x5E, none⟩, ⟨"Hcirc", 0x124, none⟩,
  ⟨"Hfr", 0x210C, none⟩, ⟨"HilbertSpace", 0x210B, none⟩, ⟨"Hopf", 0x210D, none⟩,
  ⟨"HorizontalLine", 0x2500, none⟩, ⟨"Hscr", 0x210B, none⟩, ⟨"Hstrok", 0x126, none⟩,
  ⟨"HumpDownHump", 0x224E, none⟩, ⟨"HumpEqual", 0x224F, none⟩]

/-- The names that start with a capital I. -/
def namesUpperI : List Entry := [
  ⟨"IEcy", 0x415, none⟩, ⟨"IJlig", 0x132, none⟩, ⟨"IOcy", 0x401, none⟩, ⟨"Iacute", 0xCD, none⟩,
  ⟨"Icirc", 0xCE, none⟩, ⟨"Icy", 0x418, none⟩, ⟨"Idot", 0x130, none⟩, ⟨"Ifr", 0x2111, none⟩,
  ⟨"Igrave", 0xCC, none⟩, ⟨"Im", 0x2111, none⟩, ⟨"Imacr", 0x12A, none⟩,
  ⟨"ImaginaryI", 0x2148, none⟩, ⟨"Implies", 0x21D2, none⟩, ⟨"Int", 0x222C, none⟩,
  ⟨"Integral", 0x222B, none⟩, ⟨"Intersection", 0x22C2, none⟩, ⟨"InvisibleComma", 0x2063, none⟩,
  ⟨"InvisibleTimes", 0x2062, none⟩, ⟨"Iogon", 0x12E, none⟩, ⟨"Iopf", 0x1D540, none⟩,
  ⟨"Iota", 0x399, none⟩, ⟨"Iscr", 0x2110, none⟩, ⟨"Itilde", 0x128, none⟩, ⟨"Iukcy", 0x406, none⟩,
  ⟨"Iuml", 0xCF, none⟩]

/-- The names that start with a capital J. -/
def namesUpperJ : List Entry := [
  ⟨"Jcirc", 0x134, none⟩, ⟨"Jcy", 0x419, none⟩, ⟨"Jfr", 0x1D50D, none⟩, ⟨"Jopf", 0x1D541, none⟩,
  ⟨"Jscr", 0x1D4A5, none⟩, ⟨"Jsercy", 0x408, none⟩, ⟨"Jukcy", 0x404, none⟩]

/-- The names that start with a capital K. -/
def namesUpperK : List Entry := [
  ⟨"KHcy", 0x425, none⟩, ⟨"KJcy", 0x40C, none⟩, ⟨"Kappa", 0x39A, none⟩, ⟨"Kcedil", 0x136, none⟩,
  ⟨"Kcy", 0x41A, none⟩, ⟨"Kfr", 0x1D50E, none⟩, ⟨"Kopf", 0x1D542, none⟩, ⟨"Kscr", 0x1D4A6, none⟩]

/-- The names that start with a capital L. -/
def namesUpperL : List Entry := [
  ⟨"LJcy", 0x409, none⟩, ⟨"LT", 0x3C, none⟩, ⟨"Lacute", 0x139, none⟩, ⟨"Lambda", 0x39B, none⟩,
  ⟨"Lang", 0x27EA, none⟩, ⟨"Laplacetrf", 0x2112, none⟩, ⟨"Larr", 0x219E, none⟩,
  ⟨"Lcaron", 0x13D, none⟩, ⟨"Lcedil", 0x13B, none⟩, ⟨"Lcy", 0x41B, none⟩,
  ⟨"LeftAngleBracket", 0x27E8, none⟩, ⟨"LeftArrow", 0x2190, none⟩, ⟨"LeftArrowBar", 0x21E4, none⟩,
  ⟨"LeftArrowRightArrow", 0x21C6, none⟩, ⟨"LeftCeiling", 0x2308, none⟩,
  ⟨"LeftDoubleBracket", 0x27E6, none⟩, ⟨"LeftDownTeeVector", 0x2961, none⟩,
  ⟨"LeftDownVector", 0x21C3, none⟩, ⟨"LeftDownVectorBar", 0x2959, none⟩,
  ⟨"LeftFloor", 0x230A, none⟩, ⟨"LeftRightArrow", 0x2194, none⟩,
  ⟨"LeftRightVector", 0x294E, none⟩, ⟨"LeftTee", 0x22A3, none⟩, ⟨"LeftTeeArrow", 0x21A4, none⟩,
  ⟨"LeftTeeVector", 0x295A, none⟩, ⟨"LeftTriangle", 0x22B2, none⟩,
  ⟨"LeftTriangleBar", 0x29CF, none⟩, ⟨"LeftTriangleEqual", 0x22B4, none⟩,
  ⟨"LeftUpDownVector", 0x2951, none⟩, ⟨"LeftUpTeeVector", 0x2960, none⟩,
  ⟨"LeftUpVector", 0x21BF, none⟩, ⟨"LeftUpVectorBar", 0x2958, none⟩, ⟨"LeftVector", 0x21BC, none⟩,
  ⟨"LeftVectorBar", 0x2952, none⟩, ⟨"Leftarrow", 0x21D0, none⟩, ⟨"Leftrightarrow", 0x21D4, none⟩,
  ⟨"LessEqualGreater", 0x22DA, none⟩, ⟨"LessFullEqual", 0x2266, none⟩,
  ⟨"LessGreater", 0x2276, none⟩, ⟨"LessLess", 0x2AA1, none⟩, ⟨"LessSlantEqual", 0x2A7D, none⟩,
  ⟨"LessTilde", 0x2272, none⟩, ⟨"Lfr", 0x1D50F, none⟩, ⟨"Ll", 0x22D8, none⟩,
  ⟨"Lleftarrow", 0x21DA, none⟩, ⟨"Lmidot", 0x13F, none⟩, ⟨"LongLeftArrow", 0x27F5, none⟩,
  ⟨"LongLeftRightArrow", 0x27F7, none⟩, ⟨"LongRightArrow", 0x27F6, none⟩,
  ⟨"Longleftarrow", 0x27F8, none⟩, ⟨"Longleftrightarrow", 0x27FA, none⟩,
  ⟨"Longrightarrow", 0x27F9, none⟩, ⟨"Lopf", 0x1D543, none⟩, ⟨"LowerLeftArrow", 0x2199, none⟩,
  ⟨"LowerRightArrow", 0x2198, none⟩, ⟨"Lscr", 0x2112, none⟩, ⟨"Lsh", 0x21B0, none⟩,
  ⟨"Lstrok", 0x141, none⟩, ⟨"Lt", 0x226A, none⟩]

/-- The names that start with a capital M. -/
def namesUpperM : List Entry := [
  ⟨"Map", 0x2905, none⟩, ⟨"Mcy", 0x41C, none⟩, ⟨"MediumSpace", 0x205F, none⟩,
  ⟨"Mellintrf", 0x2133, none⟩, ⟨"Mfr", 0x1D510, none⟩, ⟨"MinusPlus", 0x2213, none⟩,
  ⟨"Mopf", 0x1D544, none⟩, ⟨"Mscr", 0x2133, none⟩, ⟨"Mu", 0x39C, none⟩]

/-- The names that start with a capital N. -/
def namesUpperN : List Entry := [
  ⟨"NJcy", 0x40A, none⟩, ⟨"Nacute", 0x143, none⟩, ⟨"Ncaron", 0x147, none⟩,
  ⟨"Ncedil", 0x145, none⟩, ⟨"Ncy", 0x41D, none⟩, ⟨"NegativeMediumSpace", 0x200B, none⟩,
  ⟨"NegativeThickSpace", 0x200B, none⟩, ⟨"NegativeThinSpace", 0x200B, none⟩,
  ⟨"NegativeVeryThinSpace", 0x200B, none⟩, ⟨"NestedGreaterGreater", 0x226B, none⟩,
  ⟨"NestedLessLess", 0x226A, none⟩, ⟨"NewLine", 0xA, none⟩, ⟨"Nfr", 0x1D511, none⟩,
  ⟨"NoBreak", 0x2060, none⟩, ⟨"NonBreakingSpace", 0xA0, none⟩, ⟨"Nopf", 0x2115, none⟩,
  ⟨"Not", 0x2AEC, none⟩, ⟨"NotCongruent", 0x2262, none⟩, ⟨"NotCupCap", 0x226D, none⟩,
  ⟨"NotDoubleVerticalBar", 0x2226, none⟩, ⟨"NotElement", 0x2209, none⟩,
  ⟨"NotEqual", 0x2260, none⟩, ⟨"NotEqualTilde", 0x2242, some 0x338⟩, ⟨"NotExists", 0x2204, none⟩,
  ⟨"NotGreater", 0x226F, none⟩, ⟨"NotGreaterEqual", 0x2271, none⟩,
  ⟨"NotGreaterFullEqual", 0x2267, some 0x338⟩, ⟨"NotGreaterGreater", 0x226B, some 0x338⟩,
  ⟨"NotGreaterLess", 0x2279, none⟩, ⟨"NotGreaterSlantEqual", 0x2A7E, some 0x338⟩,
  ⟨"NotGreaterTilde", 0x2275, none⟩, ⟨"NotHumpDownHump", 0x224E, some 0x338⟩,
  ⟨"NotHumpEqual", 0x224F, some 0x338⟩, ⟨"NotLeftTriangle", 0x22EA, none⟩,
  ⟨"NotLeftTriangleBar", 0x29CF, some 0x338⟩, ⟨"NotLeftTriangleEqual", 0x22EC, none⟩,
  ⟨"NotLess", 0x226E, none⟩, ⟨"NotLessEqual", 0x2270, none⟩, ⟨"NotLessGreater", 0x2278, none⟩,
  ⟨"NotLessLess", 0x226A, some 0x338⟩, ⟨"NotLessSlantEqual", 0x2A7D, some 0x338⟩,
  ⟨"NotLessTilde", 0x2274, none⟩, ⟨"NotNestedGreaterGreater", 0x2AA2, some 0x338⟩,
  ⟨"NotNestedLessLess", 0x2AA1, some 0x338⟩, ⟨"NotPrecedes", 0x2280, none⟩,
  ⟨"NotPrecedesEqual", 0x2AAF, some 0x338⟩, ⟨"NotPrecedesSlantEqual", 0x22E0, none⟩,
  ⟨"NotReverseElement", 0x220C, none⟩, ⟨"NotRightTriangle", 0x22EB, none⟩,
  ⟨"NotRightTriangleBar", 0x29D0, some 0x338⟩, ⟨"NotRightTriangleEqual", 0x22ED, none⟩,
  ⟨"NotSquareSubset", 0x228F, some 0x338⟩, ⟨"NotSquareSubsetEqual", 0x22E2, none⟩,
  ⟨"NotSquareSuperset", 0x2290, some 0x338⟩, ⟨"NotSquareSupersetEqual", 0x22E3, none⟩,
  ⟨"NotSubset", 0x2282, some 0x20D2⟩, ⟨"NotSubsetEqual", 0x2288, none⟩,
  ⟨"NotSucceeds", 0x2281, none⟩, ⟨"NotSucceedsEqual", 0x2AB0, some 0x338⟩,
  ⟨"NotSucceedsSlantEqual", 0x22E1, none⟩, ⟨"NotSucceedsTilde", 0x227F, some 0x338⟩,
  ⟨"NotSuperset", 0x2283, some 0x20D2⟩, ⟨"NotSupersetEqual", 0x2289, none⟩,
  ⟨"NotTilde", 0x2241, none⟩, ⟨"NotTildeEqual", 0x2244, none⟩,
  ⟨"NotTildeFullEqual", 0x2247, none⟩, ⟨"NotTildeTilde", 0x2249, none⟩,
  ⟨"NotVerticalBar", 0x2224, none⟩, ⟨"Nscr", 0x1D4A9, none⟩, ⟨"Ntilde", 0xD1, none⟩,
  ⟨"Nu", 0x39D, none⟩]

/-- The names that start with a capital O. -/
def namesUpperO : List Entry := [
  ⟨"OElig", 0x152, none⟩, ⟨"Oacute", 0xD3, none⟩, ⟨"Ocirc", 0xD4, none⟩, ⟨"Ocy", 0x41E, none⟩,
  ⟨"Odblac", 0x150, none⟩, ⟨"Ofr", 0x1D512, none⟩, ⟨"Ograve", 0xD2, none⟩, ⟨"Omacr", 0x14C, none⟩,
  ⟨"Omega", 0x3A9, none⟩, ⟨"Omicron", 0x39F, none⟩, ⟨"Oopf", 0x1D546, none⟩,
  ⟨"OpenCurlyDoubleQuote", 0x201C, none⟩, ⟨"OpenCurlyQuote", 0x2018, none⟩, ⟨"Or", 0x2A54, none⟩,
  ⟨"Oscr", 0x1D4AA, none⟩, ⟨"Oslash", 0xD8, none⟩, ⟨"Otilde", 0xD5, none⟩,
  ⟨"Otimes", 0x2A37, none⟩, ⟨"Ouml", 0xD6, none⟩, ⟨"OverBar", 0x203E, none⟩,
  ⟨"OverBrace", 0x23DE, none⟩, ⟨"OverBracket", 0x23B4, none⟩, ⟨"OverParenthesis", 0x23DC, none⟩]

/-- The names that start with a capital P. -/
def namesUpperP : List Entry := [
  ⟨"PartialD", 0x2202, none⟩, ⟨"Pcy", 0x41F, none⟩, ⟨"Pfr", 0x1D513, none⟩, ⟨"Phi", 0x3A6, none⟩,
  ⟨"Pi", 0x3A0, none⟩, ⟨"PlusMinus", 0xB1, none⟩, ⟨"Poincareplane", 0x210C, none⟩,
  ⟨"Popf", 0x2119, none⟩, ⟨"Pr", 0x2ABB, none⟩, ⟨"Precedes", 0x227A, none⟩,
  ⟨"PrecedesEqual", 0x2AAF, none⟩, ⟨"PrecedesSlantEqual", 0x227C, none⟩,
  ⟨"PrecedesTilde", 0x227E, none⟩, ⟨"Prime", 0x2033, none⟩, ⟨"Product", 0x220F, none⟩,
  ⟨"Proportion", 0x2237, none⟩, ⟨"Proportional", 0x221D, none⟩, ⟨"Pscr", 0x1D4AB, none⟩,
  ⟨"Psi", 0x3A8, none⟩]

/-- The names that start with a capital Q. -/
def namesUpperQ : List Entry := [
  ⟨"QUOT", 0x22, none⟩, ⟨"Qfr", 0x1D514, none⟩, ⟨"Qopf", 0x211A, none⟩, ⟨"Qscr", 0x1D4AC, none⟩]

/-- The names that start with a capital R. -/
def namesUpperR : List Entry := [
  ⟨"RBarr", 0x2910, none⟩, ⟨"REG", 0xAE, none⟩, ⟨"Racute", 0x154, none⟩, ⟨"Rang", 0x27EB, none⟩,
  ⟨"Rarr", 0x21A0, none⟩, ⟨"Rarrtl", 0x2916, none⟩, ⟨"Rcaron", 0x158, none⟩,
  ⟨"Rcedil", 0x156, none⟩, ⟨"Rcy", 0x420, none⟩, ⟨"Re", 0x211C, none⟩,
  ⟨"ReverseElement", 0x220B, none⟩, ⟨"ReverseEquilibrium", 0x21CB, none⟩,
  ⟨"ReverseUpEquilibrium", 0x296F, none⟩, ⟨"Rfr", 0x211C, none⟩, ⟨"Rho", 0x3A1, none⟩,
  ⟨"RightAngleBracket", 0x27E9, none⟩, ⟨"RightArrow", 0x2192, none⟩,
  ⟨"RightArrowBar", 0x21E5, none⟩, ⟨"RightArrowLeftArrow", 0x21C4, none⟩,
  ⟨"RightCeiling", 0x2309, none⟩, ⟨"RightDoubleBracket", 0x27E7, none⟩,
  ⟨"RightDownTeeVector", 0x295D, none⟩, ⟨"RightDownVector", 0x21C2, none⟩,
  ⟨"RightDownVectorBar", 0x2955, none⟩, ⟨"RightFloor", 0x230B, none⟩, ⟨"RightTee", 0x22A2, none⟩,
  ⟨"RightTeeArrow", 0x21A6, none⟩, ⟨"RightTeeVector", 0x295B, none⟩,
  ⟨"RightTriangle", 0x22B3, none⟩, ⟨"RightTriangleBar", 0x29D0, none⟩,
  ⟨"RightTriangleEqual", 0x22B5, none⟩, ⟨"RightUpDownVector", 0x294F, none⟩,
  ⟨"RightUpTeeVector", 0x295C, none⟩, ⟨"RightUpVector", 0x21BE, none⟩,
  ⟨"RightUpVectorBar", 0x2954, none⟩, ⟨"RightVector", 0x21C0, none⟩,
  ⟨"RightVectorBar", 0x2953, none⟩, ⟨"Rightarrow", 0x21D2, none⟩, ⟨"Ropf", 0x211D, none⟩,
  ⟨"RoundImplies", 0x2970, none⟩, ⟨"Rrightarrow", 0x21DB, none⟩, ⟨"Rscr", 0x211B, none⟩,
  ⟨"Rsh", 0x21B1, none⟩, ⟨"RuleDelayed", 0x29F4, none⟩]

/-- The names that start with a capital S. -/
def namesUpperS : List Entry := [
  ⟨"SHCHcy", 0x429, none⟩, ⟨"SHcy", 0x428, none⟩, ⟨"SOFTcy", 0x42C, none⟩,
  ⟨"Sacute", 0x15A, none⟩, ⟨"Sc", 0x2ABC, none⟩, ⟨"Scaron", 0x160, none⟩, ⟨"Scedil", 0x15E, none⟩,
  ⟨"Scirc", 0x15C, none⟩, ⟨"Scy", 0x421, none⟩, ⟨"Sfr", 0x1D516, none⟩,
  ⟨"ShortDownArrow", 0x2193, none⟩, ⟨"ShortLeftArrow", 0x2190, none⟩,
  ⟨"ShortRightArrow", 0x2192, none⟩, ⟨"ShortUpArrow", 0x2191, none⟩, ⟨"Sigma", 0x3A3, none⟩,
  ⟨"SmallCircle", 0x2218, none⟩, ⟨"Sopf", 0x1D54A, none⟩, ⟨"Sqrt", 0x221A, none⟩,
  ⟨"Square", 0x25A1, none⟩, ⟨"SquareIntersection", 0x2293, none⟩, ⟨"SquareSubset", 0x228F, none⟩,
  ⟨"SquareSubsetEqual", 0x2291, none⟩, ⟨"SquareSuperset", 0x2290, none⟩,
  ⟨"SquareSupersetEqual", 0x2292, none⟩, ⟨"SquareUnion", 0x2294, none⟩, ⟨"Sscr", 0x1D4AE, none⟩,
  ⟨"Star", 0x22C6, none⟩, ⟨"Sub", 0x22D0, none⟩, ⟨"Subset", 0x22D0, none⟩,
  ⟨"SubsetEqual", 0x2286, none⟩, ⟨"Succeeds", 0x227B, none⟩, ⟨"SucceedsEqual", 0x2AB0, none⟩,
  ⟨"SucceedsSlantEqual", 0x227D, none⟩, ⟨"SucceedsTilde", 0x227F, none⟩,
  ⟨"SuchThat", 0x220B, none⟩, ⟨"Sum", 0x2211, none⟩, ⟨"Sup", 0x22D1, none⟩,
  ⟨"Superset", 0x2283, none⟩, ⟨"SupersetEqual", 0x2287, none⟩, ⟨"Supset", 0x22D1, none⟩]

/-- The names that start with a capital T. -/
def namesUpperT : List Entry := [
  ⟨"THORN", 0xDE, none⟩, ⟨"TRADE", 0x2122, none⟩, ⟨"TSHcy", 0x40B, none⟩, ⟨"TScy", 0x426, none⟩,
  ⟨"Tab", 0x9, none⟩, ⟨"Tau", 0x3A4, none⟩, ⟨"Tcaron", 0x164, none⟩, ⟨"Tcedil", 0x162, none⟩,
  ⟨"Tcy", 0x422, none⟩, ⟨"Tfr", 0x1D517, none⟩, ⟨"Therefore", 0x2234, none⟩,
  ⟨"Theta", 0x398, none⟩, ⟨"ThickSpace", 0x205F, some 0x200A⟩, ⟨"ThinSpace", 0x2009, none⟩,
  ⟨"Tilde", 0x223C, none⟩, ⟨"TildeEqual", 0x2243, none⟩, ⟨"TildeFullEqual", 0x2245, none⟩,
  ⟨"TildeTilde", 0x2248, none⟩, ⟨"Topf", 0x1D54B, none⟩, ⟨"TripleDot", 0x20DB, none⟩,
  ⟨"Tscr", 0x1D4AF, none⟩, ⟨"Tstrok", 0x166, none⟩]

/-- The names that start with a capital U. -/
def namesUpperU : List Entry := [
  ⟨"Uacute", 0xDA, none⟩, ⟨"Uarr", 0x219F, none⟩, ⟨"Uarrocir", 0x2949, none⟩,
  ⟨"Ubrcy", 0x40E, none⟩, ⟨"Ubreve", 0x16C, none⟩, ⟨"Ucirc", 0xDB, none⟩, ⟨"Ucy", 0x423, none⟩,
  ⟨"Udblac", 0x170, none⟩, ⟨"Ufr", 0x1D518, none⟩, ⟨"Ugrave", 0xD9, none⟩, ⟨"Umacr", 0x16A, none⟩,
  ⟨"UnderBar", 0x5F, none⟩, ⟨"UnderBrace", 0x23DF, none⟩, ⟨"UnderBracket", 0x23B5, none⟩,
  ⟨"UnderParenthesis", 0x23DD, none⟩, ⟨"Union", 0x22C3, none⟩, ⟨"UnionPlus", 0x228E, none⟩,
  ⟨"Uogon", 0x172, none⟩, ⟨"Uopf", 0x1D54C, none⟩, ⟨"UpArrow", 0x2191, none⟩,
  ⟨"UpArrowBar", 0x2912, none⟩, ⟨"UpArrowDownArrow", 0x21C5, none⟩, ⟨"UpDownArrow", 0x2195, none⟩,
  ⟨"UpEquilibrium", 0x296E, none⟩, ⟨"UpTee", 0x22A5, none⟩, ⟨"UpTeeArrow", 0x21A5, none⟩,
  ⟨"Uparrow", 0x21D1, none⟩, ⟨"Updownarrow", 0x21D5, none⟩, ⟨"UpperLeftArrow", 0x2196, none⟩,
  ⟨"UpperRightArrow", 0x2197, none⟩, ⟨"Upsi", 0x3D2, none⟩, ⟨"Upsilon", 0x3A5, none⟩,
  ⟨"Uring", 0x16E, none⟩, ⟨"Uscr", 0x1D4B0, none⟩, ⟨"Utilde", 0x168, none⟩, ⟨"Uuml", 0xDC, none⟩]

/-- The names that start with a capital V. -/
def namesUpperV : List Entry := [
  ⟨"VDash", 0x22AB, none⟩, ⟨"Vbar", 0x2AEB, none⟩, ⟨"Vcy", 0x412, none⟩, ⟨"Vdash", 0x22A9, none⟩,
  ⟨"Vdashl", 0x2AE6, none⟩, ⟨"Vee", 0x22C1, none⟩, ⟨"Verbar", 0x2016, none⟩,
  ⟨"Vert", 0x2016, none⟩, ⟨"VerticalBar", 0x2223, none⟩, ⟨"VerticalLine", 0x7C, none⟩,
  ⟨"VerticalSeparator", 0x2758, none⟩, ⟨"VerticalTilde", 0x2240, none⟩,
  ⟨"VeryThinSpace", 0x200A, none⟩, ⟨"Vfr", 0x1D519, none⟩, ⟨"Vopf", 0x1D54D, none⟩,
  ⟨"Vscr", 0x1D4B1, none⟩, ⟨"Vvdash", 0x22AA, none⟩]

/-- The names that start with a capital W. -/
def namesUpperW : List Entry := [
  ⟨"Wcirc", 0x174, none⟩, ⟨"Wedge", 0x22C0, none⟩, ⟨"Wfr", 0x1D51A, none⟩,
  ⟨"Wopf", 0x1D54E, none⟩, ⟨"Wscr", 0x1D4B2, none⟩]

/-- The names that start with a capital X. -/
def namesUpperX : List Entry := [
  ⟨"Xfr", 0x1D51B, none⟩, ⟨"Xi", 0x39E, none⟩, ⟨"Xopf", 0x1D54F, none⟩, ⟨"Xscr", 0x1D4B3, none⟩]

/-- The names that start with a capital Y. -/
def namesUpperY : List Entry := [
  ⟨"YAcy", 0x42F, none⟩, ⟨"YIcy", 0x407, none⟩, ⟨"YUcy", 0x42E, none⟩, ⟨"Yacute", 0xDD, none⟩,
  ⟨"Ycirc", 0x176, none⟩, ⟨"Ycy", 0x42B, none⟩, ⟨"Yfr", 0x1D51C, none⟩, ⟨"Yopf", 0x1D550, none⟩,
  ⟨"Yscr", 0x1D4B4, none⟩, ⟨"Yuml", 0x178, none⟩]

/-- The names that start with a capital Z. -/
def namesUpperZ : List Entry := [
  ⟨"ZHcy", 0x416, none⟩, ⟨"Zacute", 0x179, none⟩, ⟨"Zcaron", 0x17D, none⟩, ⟨"Zcy", 0x417, none⟩,
  ⟨"Zdot", 0x17B, none⟩, ⟨"ZeroWidthSpace", 0x200B, none⟩, ⟨"Zeta", 0x396, none⟩,
  ⟨"Zfr", 0x2128, none⟩, ⟨"Zopf", 0x2124, none⟩, ⟨"Zscr", 0x1D4B5, none⟩]

/-- The names that start with a small a. -/
def namesLowerA : List Entry := [
  ⟨"aacute", 0xE1, none⟩, ⟨"abreve", 0x103, none⟩, ⟨"ac", 0x223E, none⟩,
  ⟨"acE", 0x223E, some 0x333⟩, ⟨"acd", 0x223F, none⟩, ⟨"acirc", 0xE2, none⟩,
  ⟨"acute", 0xB4, none⟩, ⟨"acy", 0x430, none⟩, ⟨"aelig", 0xE6, none⟩, ⟨"af", 0x2061, none⟩,
  ⟨"afr", 0x1D51E, none⟩, ⟨"agrave", 0xE0, none⟩, ⟨"alefsym", 0x2135, none⟩,
  ⟨"aleph", 0x2135, none⟩, ⟨"alpha", 0x3B1, none⟩, ⟨"amacr", 0x101, none⟩,
  ⟨"amalg", 0x2A3F, none⟩, ⟨"amp", 0x26, none⟩, ⟨"and", 0x2227, none⟩, ⟨"andand", 0x2A55, none⟩,
  ⟨"andd", 0x2A5C, none⟩, ⟨"andslope", 0x2A58, none⟩, ⟨"andv", 0x2A5A, none⟩,
  ⟨"ang", 0x2220, none⟩, ⟨"ange", 0x29A4, none⟩, ⟨"angle", 0x2220, none⟩,
  ⟨"angmsd", 0x2221, none⟩, ⟨"angmsdaa", 0x29A8, none⟩, ⟨"angmsdab", 0x29A9, none⟩,
  ⟨"angmsdac", 0x29AA, none⟩, ⟨"angmsdad", 0x29AB, none⟩, ⟨"angmsdae", 0x29AC, none⟩,
  ⟨"angmsdaf", 0x29AD, none⟩, ⟨"angmsdag", 0x29AE, none⟩, ⟨"angmsdah", 0x29AF, none⟩,
  ⟨"angrt", 0x221F, none⟩, ⟨"angrtvb", 0x22BE, none⟩, ⟨"angrtvbd", 0x299D, none⟩,
  ⟨"angsph", 0x2222, none⟩, ⟨"angst", 0xC5, none⟩, ⟨"angzarr", 0x237C, none⟩,
  ⟨"aogon", 0x105, none⟩, ⟨"aopf", 0x1D552, none⟩, ⟨"ap", 0x2248, none⟩, ⟨"apE", 0x2A70, none⟩,
  ⟨"apacir", 0x2A6F, none⟩, ⟨"ape", 0x224A, none⟩, ⟨"apid", 0x224B, none⟩, ⟨"apos", 0x27, none⟩,
  ⟨"approx", 0x2248, none⟩, ⟨"approxeq", 0x224A, none⟩, ⟨"aring", 0xE5, none⟩,
  ⟨"ascr", 0x1D4B6, none⟩, ⟨"ast", 0x2A, none⟩, ⟨"asymp", 0x2248, none⟩,
  ⟨"asympeq", 0x224D, none⟩, ⟨"atilde", 0xE3, none⟩, ⟨"auml", 0xE4, none⟩,
  ⟨"awconint", 0x2233, none⟩, ⟨"awint", 0x2A11, none⟩]

/-- The names that start with a small b. -/
def namesLowerB : List Entry := [
  ⟨"bNot", 0x2AED, none⟩, ⟨"backcong", 0x224C, none⟩, ⟨"backepsilon", 0x3F6, none⟩,
  ⟨"backprime", 0x2035, none⟩, ⟨"backsim", 0x223D, none⟩, ⟨"backsimeq", 0x22CD, none⟩,
  ⟨"barvee", 0x22BD, none⟩, ⟨"barwed", 0x2305, none⟩, ⟨"barwedge", 0x2305, none⟩,
  ⟨"bbrk", 0x23B5, none⟩, ⟨"bbrktbrk", 0x23B6, none⟩, ⟨"bcong", 0x224C, none⟩,
  ⟨"bcy", 0x431, none⟩, ⟨"bdquo", 0x201E, none⟩, ⟨"becaus", 0x2235, none⟩,
  ⟨"because", 0x2235, none⟩, ⟨"bemptyv", 0x29B0, none⟩, ⟨"bepsi", 0x3F6, none⟩,
  ⟨"bernou", 0x212C, none⟩, ⟨"beta", 0x3B2, none⟩, ⟨"beth", 0x2136, none⟩,
  ⟨"between", 0x226C, none⟩, ⟨"bfr", 0x1D51F, none⟩, ⟨"bigcap", 0x22C2, none⟩,
  ⟨"bigcirc", 0x25EF, none⟩, ⟨"bigcup", 0x22C3, none⟩, ⟨"bigodot", 0x2A00, none⟩,
  ⟨"bigoplus", 0x2A01, none⟩, ⟨"bigotimes", 0x2A02, none⟩, ⟨"bigsqcup", 0x2A06, none⟩,
  ⟨"bigstar", 0x2605, none⟩, ⟨"bigtriangledown", 0x25BD, none⟩, ⟨"bigtriangleup", 0x25B3, none⟩,
  ⟨"biguplus", 0x2A04, none⟩, ⟨"bigvee", 0x22C1, none⟩, ⟨"bigwedge", 0x22C0, none⟩,
  ⟨"bkarow", 0x290D, none⟩, ⟨"blacklozenge", 0x29EB, none⟩, ⟨"blacksquare", 0x25AA, none⟩,
  ⟨"blacktriangle", 0x25B4, none⟩, ⟨"blacktriangledown", 0x25BE, none⟩,
  ⟨"blacktriangleleft", 0x25C2, none⟩, ⟨"blacktriangleright", 0x25B8, none⟩,
  ⟨"blank", 0x2423, none⟩, ⟨"blk12", 0x2592, none⟩, ⟨"blk14", 0x2591, none⟩,
  ⟨"blk34", 0x2593, none⟩, ⟨"block", 0x2588, none⟩, ⟨"bne", 0x3D, some 0x20E5⟩,
  ⟨"bnequiv", 0x2261, some 0x20E5⟩, ⟨"bnot", 0x2310, none⟩, ⟨"bopf", 0x1D553, none⟩,
  ⟨"bot", 0x22A5, none⟩, ⟨"bottom", 0x22A5, none⟩, ⟨"bowtie", 0x22C8, none⟩,
  ⟨"boxDL", 0x2557, none⟩, ⟨"boxDR", 0x2554, none⟩, ⟨"boxDl", 0x2556, none⟩,
  ⟨"boxDr", 0x2553, none⟩, ⟨"boxH", 0x2550, none⟩, ⟨"boxHD", 0x2566, none⟩,
  ⟨"boxHU", 0x2569, none⟩, ⟨"boxHd", 0x2564, none⟩, ⟨"boxHu", 0x2567, none⟩,
  ⟨"boxUL", 0x255D, none⟩, ⟨"boxUR", 0x255A, none⟩, ⟨"boxUl", 0x255C, none⟩,
  ⟨"boxUr", 0x2559, none⟩, ⟨"boxV", 0x2551, none⟩, ⟨"boxVH", 0x256C, none⟩,
  ⟨"boxVL", 0x2563, none⟩, ⟨"boxVR", 0x2560, none⟩, ⟨"boxVh", 0x256B, none⟩,
  ⟨"boxVl", 0x2562, none⟩, ⟨"boxVr", 0x255F, none⟩, ⟨"boxbox", 0x29C9, none⟩,
  ⟨"boxdL", 0x2555, none⟩, ⟨"boxdR", 0x2552, none⟩, ⟨"boxdl", 0x2510, none⟩,
  ⟨"boxdr", 0x250C, none⟩, ⟨"boxh", 0x2500, none⟩, ⟨"boxhD", 0x2565, none⟩,
  ⟨"boxhU", 0x2568, none⟩, ⟨"boxhd", 0x252C, none⟩, ⟨"boxhu", 0x2534, none⟩,
  ⟨"boxminus", 0x229F, none⟩, ⟨"boxplus", 0x229E, none⟩, ⟨"boxtimes", 0x22A0, none⟩,
  ⟨"boxuL", 0x255B, none⟩, ⟨"boxuR", 0x2558, none⟩, ⟨"boxul", 0x2518, none⟩,
  ⟨"boxur", 0x2514, none⟩, ⟨"boxv", 0x2502, none⟩, ⟨"boxvH", 0x256A, none⟩,
  ⟨"boxvL", 0x2561, none⟩, ⟨"boxvR", 0x255E, none⟩, ⟨"boxvh", 0x253C, none⟩,
  ⟨"boxvl", 0x2524, none⟩, ⟨"boxvr", 0x251C, none⟩, ⟨"bprime", 0x2035, none⟩,
  ⟨"breve", 0x2D8, none⟩, ⟨"brvbar", 0xA6, none⟩, ⟨"bscr", 0x1D4B7, none⟩,
  ⟨"bsemi", 0x204F, none⟩, ⟨"bsim", 0x223D, none⟩, ⟨"bsime", 0x22CD, none⟩, ⟨"bsol", 0x5C, none⟩,
  ⟨"bsolb", 0x29C5, none⟩, ⟨"bsolhsub", 0x27C8, none⟩, ⟨"bull", 0x2022, none⟩,
  ⟨"bullet", 0x2022, none⟩, ⟨"bump", 0x224E, none⟩, ⟨"bumpE", 0x2AAE, none⟩,
  ⟨"bumpe", 0x224F, none⟩, ⟨"bumpeq", 0x224F, none⟩]

/-- The names that start with a small c. -/
def namesLowerC : List Entry := [
  ⟨"cacute", 0x107, none⟩, ⟨"cap", 0x2229, none⟩, ⟨"capand", 0x2A44, none⟩,
  ⟨"capbrcup", 0x2A49, none⟩, ⟨"capcap", 0x2A4B, none⟩, ⟨"capcup", 0x2A47, none⟩,
  ⟨"capdot", 0x2A40, none⟩, ⟨"caps", 0x2229, some 0xFE00⟩, ⟨"caret", 0x2041, none⟩,
  ⟨"caron", 0x2C7, none⟩, ⟨"ccaps", 0x2A4D, none⟩, ⟨"ccaron", 0x10D, none⟩,
  ⟨"ccedil", 0xE7, none⟩, ⟨"ccirc", 0x109, none⟩, ⟨"ccups", 0x2A4C, none⟩,
  ⟨"ccupssm", 0x2A50, none⟩, ⟨"cdot", 0x10B, none⟩, ⟨"cedil", 0xB8, none⟩,
  ⟨"cemptyv", 0x29B2, none⟩, ⟨"cent", 0xA2, none⟩, ⟨"centerdot", 0xB7, none⟩,
  ⟨"cfr", 0x1D520, none⟩, ⟨"chcy", 0x447, none⟩, ⟨"check", 0x2713, none⟩,
  ⟨"checkmark", 0x2713, none⟩, ⟨"chi", 0x3C7, none⟩, ⟨"cir", 0x25CB, none⟩,
  ⟨"cirE", 0x29C3, none⟩, ⟨"circ", 0x2C6, none⟩, ⟨"circeq", 0x2257, none⟩,
  ⟨"circlearrowleft", 0x21BA, none⟩, ⟨"circlearrowright", 0x21BB, none⟩, ⟨"circledR", 0xAE, none⟩,
  ⟨"circledS", 0x24C8, none⟩, ⟨"circledast", 0x229B, none⟩, ⟨"circledcirc", 0x229A, none⟩,
  ⟨"circleddash", 0x229D, none⟩, ⟨"cire", 0x2257, none⟩, ⟨"cirfnint", 0x2A10, none⟩,
  ⟨"cirmid", 0x2AEF, none⟩, ⟨"cirscir", 0x29C2, none⟩, ⟨"clubs", 0x2663, none⟩,
  ⟨"clubsuit", 0x2663, none⟩, ⟨"colon", 0x3A, none⟩, ⟨"colone", 0x2254, none⟩,
  ⟨"coloneq", 0x2254, none⟩, ⟨"comma", 0x2C, none⟩, ⟨"commat", 0x40, none⟩,
  ⟨"comp", 0x2201, none⟩, ⟨"compfn", 0x2218, none⟩, ⟨"complement", 0x2201, none⟩,
  ⟨"complexes", 0x2102, none⟩, ⟨"cong", 0x2245, none⟩, ⟨"congdot", 0x2A6D, none⟩,
  ⟨"conint", 0x222E, none⟩, ⟨"copf", 0x1D554, none⟩, ⟨"coprod", 0x2210, none⟩,
  ⟨"copy", 0xA9, none⟩, ⟨"copysr", 0x2117, none⟩, ⟨"crarr", 0x21B5, none⟩,
  ⟨"cross", 0x2717, none⟩, ⟨"cscr", 0x1D4B8, none⟩, ⟨"csub", 0x2ACF, none⟩,
  ⟨"csube", 0x2AD1, none⟩, ⟨"csup", 0x2AD0, none⟩, ⟨"csupe", 0x2AD2, none⟩,
  ⟨"ctdot", 0x22EF, none⟩, ⟨"cudarrl", 0x2938, none⟩, ⟨"cudarrr", 0x2935, none⟩,
  ⟨"cuepr", 0x22DE, none⟩, ⟨"cuesc", 0x22DF, none⟩, ⟨"cularr", 0x21B6, none⟩,
  ⟨"cularrp", 0x293D, none⟩, ⟨"cup", 0x222A, none⟩, ⟨"cupbrcap", 0x2A48, none⟩,
  ⟨"cupcap", 0x2A46, none⟩, ⟨"cupcup", 0x2A4A, none⟩, ⟨"cupdot", 0x228D, none⟩,
  ⟨"cupor", 0x2A45, none⟩, ⟨"cups", 0x222A, some 0xFE00⟩, ⟨"curarr", 0x21B7, none⟩,
  ⟨"curarrm", 0x293C, none⟩, ⟨"curlyeqprec", 0x22DE, none⟩, ⟨"curlyeqsucc", 0x22DF, none⟩,
  ⟨"curlyvee", 0x22CE, none⟩, ⟨"curlywedge", 0x22CF, none⟩, ⟨"curren", 0xA4, none⟩,
  ⟨"curvearrowleft", 0x21B6, none⟩, ⟨"curvearrowright", 0x21B7, none⟩, ⟨"cuvee", 0x22CE, none⟩,
  ⟨"cuwed", 0x22CF, none⟩, ⟨"cwconint", 0x2232, none⟩, ⟨"cwint", 0x2231, none⟩,
  ⟨"cylcty", 0x232D, none⟩]

/-- The names that start with a small d. -/
def namesLowerD : List Entry := [
  ⟨"dArr", 0x21D3, none⟩, ⟨"dHar", 0x2965, none⟩, ⟨"dagger", 0x2020, none⟩,
  ⟨"daleth", 0x2138, none⟩, ⟨"darr", 0x2193, none⟩, ⟨"dash", 0x2010, none⟩,
  ⟨"dashv", 0x22A3, none⟩, ⟨"dbkarow", 0x290F, none⟩, ⟨"dblac", 0x2DD, none⟩,
  ⟨"dcaron", 0x10F, none⟩, ⟨"dcy", 0x434, none⟩, ⟨"dd", 0x2146, none⟩, ⟨"ddagger", 0x2021, none⟩,
  ⟨"ddarr", 0x21CA, none⟩, ⟨"ddotseq", 0x2A77, none⟩, ⟨"deg", 0xB0, none⟩, ⟨"delta", 0x3B4, none⟩,
  ⟨"demptyv", 0x29B1, none⟩, ⟨"dfisht", 0x297F, none⟩, ⟨"dfr", 0x1D521, none⟩,
  ⟨"dharl", 0x21C3, none⟩, ⟨"dharr", 0x21C2, none⟩, ⟨"diam", 0x22C4, none⟩,
  ⟨"diamond", 0x22C4, none⟩, ⟨"diamondsuit", 0x2666, none⟩, ⟨"diams", 0x2666, none⟩,
  ⟨"die", 0xA8, none⟩, ⟨"digamma", 0x3DD, none⟩, ⟨"disin", 0x22F2, none⟩, ⟨"div", 0xF7, none⟩,
  ⟨"divide", 0xF7, none⟩, ⟨"divideontimes", 0x22C7, none⟩, ⟨"divonx", 0x22C7, none⟩,
  ⟨"djcy", 0x452, none⟩, ⟨"dlcorn", 0x231E, none⟩, ⟨"dlcrop", 0x230D, none⟩,
  ⟨"dollar", 0x24, none⟩, ⟨"dopf", 0x1D555, none⟩, ⟨"dot", 0x2D9, none⟩, ⟨"doteq", 0x2250, none⟩,
  ⟨"doteqdot", 0x2251, none⟩, ⟨"dotminus", 0x2238, none⟩, ⟨"dotplus", 0x2214, none⟩,
  ⟨"dotsquare", 0x22A1, none⟩, ⟨"doublebarwedge", 0x2306, none⟩, ⟨"downarrow", 0x2193, none⟩,
  ⟨"downdownarrows", 0x21CA, none⟩, ⟨"downharpoonleft", 0x21C3, none⟩,
  ⟨"downharpoonright", 0x21C2, none⟩, ⟨"drbkarow", 0x2910, none⟩, ⟨"drcorn", 0x231F, none⟩,
  ⟨"drcrop", 0x230C, none⟩, ⟨"dscr", 0x1D4B9, none⟩, ⟨"dscy", 0x455, none⟩,
  ⟨"dsol", 0x29F6, none⟩, ⟨"dstrok", 0x111, none⟩, ⟨"dtdot", 0x22F1, none⟩,
  ⟨"dtri", 0x25BF, none⟩, ⟨"dtrif", 0x25BE, none⟩, ⟨"duarr", 0x21F5, none⟩,
  ⟨"duhar", 0x296F, none⟩, ⟨"dwangle", 0x29A6, none⟩, ⟨"dzcy", 0x45F, none⟩,
  ⟨"dzigrarr", 0x27FF, none⟩]

/-- The names that start with a small e. -/
def namesLowerE : List Entry := [
  ⟨"eDDot", 0x2A77, none⟩, ⟨"eDot", 0x2251, none⟩, ⟨"eacute", 0xE9, none⟩,
  ⟨"easter", 0x2A6E, none⟩, ⟨"ecaron", 0x11B, none⟩, ⟨"ecir", 0x2256, none⟩,
  ⟨"ecirc", 0xEA, none⟩, ⟨"ecolon", 0x2255, none⟩, ⟨"ecy", 0x44D, none⟩, ⟨"edot", 0x117, none⟩,
  ⟨"ee", 0x2147, none⟩, ⟨"efDot", 0x2252, none⟩, ⟨"efr", 0x1D522, none⟩, ⟨"eg", 0x2A9A, none⟩,
  ⟨"egrave", 0xE8, none⟩, ⟨"egs", 0x2A96, none⟩, ⟨"egsdot", 0x2A98, none⟩, ⟨"el", 0x2A99, none⟩,
  ⟨"elinters", 0x23E7, none⟩, ⟨"ell", 0x2113, none⟩, ⟨"els", 0x2A95, none⟩,
  ⟨"elsdot", 0x2A97, none⟩, ⟨"emacr", 0x113, none⟩, ⟨"empty", 0x2205, none⟩,
  ⟨"emptyset", 0x2205, none⟩, ⟨"emptyv", 0x2205, none⟩, ⟨"emsp", 0x2003, none⟩,
  ⟨"emsp13", 0x2004, none⟩, ⟨"emsp14", 0x2005, none⟩, ⟨"eng", 0x14B, none⟩,
  ⟨"ensp", 0x2002, none⟩, ⟨"eogon", 0x119, none⟩, ⟨"eopf", 0x1D556, none⟩, ⟨"epar", 0x22D5, none⟩,
  ⟨"eparsl", 0x29E3, none⟩, ⟨"eplus", 0x2A71, none⟩, ⟨"epsi", 0x3B5, none⟩,
  ⟨"epsilon", 0x3B5, none⟩, ⟨"epsiv", 0x3F5, none⟩, ⟨"eqcirc", 0x2256, none⟩,
  ⟨"eqcolon", 0x2255, none⟩, ⟨"eqsim", 0x2242, none⟩, ⟨"eqslantgtr", 0x2A96, none⟩,
  ⟨"eqslantless", 0x2A95, none⟩, ⟨"equals", 0x3D, none⟩, ⟨"equest", 0x225F, none⟩,
  ⟨"equiv", 0x2261, none⟩, ⟨"equivDD", 0x2A78, none⟩, ⟨"eqvparsl", 0x29E5, none⟩,
  ⟨"erDot", 0x2253, none⟩, ⟨"erarr", 0x2971, none⟩, ⟨"escr", 0x212F, none⟩,
  ⟨"esdot", 0x2250, none⟩, ⟨"esim", 0x2242, none⟩, ⟨"eta", 0x3B7, none⟩, ⟨"eth", 0xF0, none⟩,
  ⟨"euml", 0xEB, none⟩, ⟨"euro", 0x20AC, none⟩, ⟨"excl", 0x21, none⟩, ⟨"exist", 0x2203, none⟩,
  ⟨"expectation", 0x2130, none⟩, ⟨"exponentiale", 0x2147, none⟩]

/-- The names that start with a small f. -/
def namesLowerF : List Entry := [
  ⟨"fallingdotseq", 0x2252, none⟩, ⟨"fcy", 0x444, none⟩, ⟨"female", 0x2640, none⟩,
  ⟨"ffilig", 0xFB03, none⟩, ⟨"fflig", 0xFB00, none⟩, ⟨"ffllig", 0xFB04, none⟩,
  ⟨"ffr", 0x1D523, none⟩, ⟨"filig", 0xFB01, none⟩, ⟨"fjlig", 0x66, some 0x6A⟩,
  ⟨"flat", 0x266D, none⟩, ⟨"fllig", 0xFB02, none⟩, ⟨"fltns", 0x25B1, none⟩, ⟨"fnof", 0x192, none⟩,
  ⟨"fopf", 0x1D557, none⟩, ⟨"forall", 0x2200, none⟩, ⟨"fork", 0x22D4, none⟩,
  ⟨"forkv", 0x2AD9, none⟩, ⟨"fpartint", 0x2A0D, none⟩, ⟨"frac12", 0xBD, none⟩,
  ⟨"frac13", 0x2153, none⟩, ⟨"frac14", 0xBC, none⟩, ⟨"frac15", 0x2155, none⟩,
  ⟨"frac16", 0x2159, none⟩, ⟨"frac18", 0x215B, none⟩, ⟨"frac23", 0x2154, none⟩,
  ⟨"frac25", 0x2156, none⟩, ⟨"frac34", 0xBE, none⟩, ⟨"frac35", 0x2157, none⟩,
  ⟨"frac38", 0x215C, none⟩, ⟨"frac45", 0x2158, none⟩, ⟨"frac56", 0x215A, none⟩,
  ⟨"frac58", 0x215D, none⟩, ⟨"frac78", 0x215E, none⟩, ⟨"frasl", 0x2044, none⟩,
  ⟨"frown", 0x2322, none⟩, ⟨"fscr", 0x1D4BB, none⟩]

/-- The names that start with a small g. -/
def namesLowerG : List Entry := [
  ⟨"gE", 0x2267, none⟩, ⟨"gEl", 0x2A8C, none⟩, ⟨"gacute", 0x1F5, none⟩, ⟨"gamma", 0x3B3, none⟩,
  ⟨"gammad", 0x3DD, none⟩, ⟨"gap", 0x2A86, none⟩, ⟨"gbreve", 0x11F, none⟩, ⟨"gcirc", 0x11D, none⟩,
  ⟨"gcy", 0x433, none⟩, ⟨"gdot", 0x121, none⟩, ⟨"ge", 0x2265, none⟩, ⟨"gel", 0x22DB, none⟩,
  ⟨"geq", 0x2265, none⟩, ⟨"geqq", 0x2267, none⟩, ⟨"geqslant", 0x2A7E, none⟩,
  ⟨"ges", 0x2A7E, none⟩, ⟨"gescc", 0x2AA9, none⟩, ⟨"gesdot", 0x2A80, none⟩,
  ⟨"gesdoto", 0x2A82, none⟩, ⟨"gesdotol", 0x2A84, none⟩, ⟨"gesl", 0x22DB, some 0xFE00⟩,
  ⟨"gesles", 0x2A94, none⟩, ⟨"gfr", 0x1D524, none⟩, ⟨"gg", 0x226B, none⟩, ⟨"ggg", 0x22D9, none⟩,
  ⟨"gimel", 0x2137, none⟩, ⟨"gjcy", 0x453, none⟩, ⟨"gl", 0x2277, none⟩, ⟨"glE", 0x2A92, none⟩,
  ⟨"gla", 0x2AA5, none⟩, ⟨"glj", 0x2AA4, none⟩, ⟨"gnE", 0x2269, none⟩, ⟨"gnap", 0x2A8A, none⟩,
  ⟨"gnapprox", 0x2A8A, none⟩, ⟨"gne", 0x2A88, none⟩, ⟨"gneq", 0x2A88, none⟩,
  ⟨"gneqq", 0x2269, none⟩, ⟨"gnsim", 0x22E7, none⟩, ⟨"gopf", 0x1D558, none⟩,
  ⟨"grave", 0x60, none⟩, ⟨"gscr", 0x210A, none⟩, ⟨"gsim", 0x2273, none⟩, ⟨"gsime", 0x2A8E, none⟩,
  ⟨"gsiml", 0x2A90, none⟩, ⟨"gt", 0x3E, none⟩, ⟨"gtcc", 0x2AA7, none⟩, ⟨"gtcir", 0x2A7A, none⟩,
  ⟨"gtdot", 0x22D7, none⟩, ⟨"gtlPar", 0x2995, none⟩, ⟨"gtquest", 0x2A7C, none⟩,
  ⟨"gtrapprox", 0x2A86, none⟩, ⟨"gtrarr", 0x2978, none⟩, ⟨"gtrdot", 0x22D7, none⟩,
  ⟨"gtreqless", 0x22DB, none⟩, ⟨"gtreqqless", 0x2A8C, none⟩, ⟨"gtrless", 0x2277, none⟩,
  ⟨"gtrsim", 0x2273, none⟩, ⟨"gvertneqq", 0x2269, some 0xFE00⟩, ⟨"gvnE", 0x2269, some 0xFE00⟩]

/-- The names that start with a small h. -/
def namesLowerH : List Entry := [
  ⟨"hArr", 0x21D4, none⟩, ⟨"hairsp", 0x200A, none⟩, ⟨"half", 0xBD, none⟩,
  ⟨"hamilt", 0x210B, none⟩, ⟨"hardcy", 0x44A, none⟩, ⟨"harr", 0x2194, none⟩,
  ⟨"harrcir", 0x2948, none⟩, ⟨"harrw", 0x21AD, none⟩, ⟨"hbar", 0x210F, none⟩,
  ⟨"hcirc", 0x125, none⟩, ⟨"hearts", 0x2665, none⟩, ⟨"heartsuit", 0x2665, none⟩,
  ⟨"hellip", 0x2026, none⟩, ⟨"hercon", 0x22B9, none⟩, ⟨"hfr", 0x1D525, none⟩,
  ⟨"hksearow", 0x2925, none⟩, ⟨"hkswarow", 0x2926, none⟩, ⟨"hoarr", 0x21FF, none⟩,
  ⟨"homtht", 0x223B, none⟩, ⟨"hookleftarrow", 0x21A9, none⟩, ⟨"hookrightarrow", 0x21AA, none⟩,
  ⟨"hopf", 0x1D559, none⟩, ⟨"horbar", 0x2015, none⟩, ⟨"hscr", 0x1D4BD, none⟩,
  ⟨"hslash", 0x210F, none⟩, ⟨"hstrok", 0x127, none⟩, ⟨"hybull", 0x2043, none⟩,
  ⟨"hyphen", 0x2010, none⟩]

/-- The names that start with a small i. -/
def namesLowerI : List Entry := [
  ⟨"iacute", 0xED, none⟩, ⟨"ic", 0x2063, none⟩, ⟨"icirc", 0xEE, none⟩, ⟨"icy", 0x438, none⟩,
  ⟨"iecy", 0x435, none⟩, ⟨"iexcl", 0xA1, none⟩, ⟨"iff", 0x21D4, none⟩, ⟨"ifr", 0x1D526, none⟩,
  ⟨"igrave", 0xEC, none⟩, ⟨"ii", 0x2148, none⟩, ⟨"iiiint", 0x2A0C, none⟩, ⟨"iiint", 0x222D, none⟩,
  ⟨"iinfin", 0x29DC, none⟩, ⟨"iiota", 0x2129, none⟩, ⟨"ijlig", 0x133, none⟩,
  ⟨"imacr", 0x12B, none⟩, ⟨"image", 0x2111, none⟩, ⟨"imagline", 0x2110, none⟩,
  ⟨"imagpart", 0x2111, none⟩, ⟨"imath", 0x131, none⟩, ⟨"imof", 0x22B7, none⟩,
  ⟨"imped", 0x1B5, none⟩, ⟨"in", 0x2208, none⟩, ⟨"incare", 0x2105, none⟩, ⟨"infin", 0x221E, none⟩,
  ⟨"infintie", 0x29DD, none⟩, ⟨"inodot", 0x131, none⟩, ⟨"int", 0x222B, none⟩,
  ⟨"intcal", 0x22BA, none⟩, ⟨"integers", 0x2124, none⟩, ⟨"intercal", 0x22BA, none⟩,
  ⟨"intlarhk", 0x2A17, none⟩, ⟨"intprod", 0x2A3C, none⟩, ⟨"iocy", 0x451, none⟩,
  ⟨"iogon", 0x12F, none⟩, ⟨"iopf", 0x1D55A, none⟩, ⟨"iota", 0x3B9, none⟩, ⟨"iprod", 0x2A3C, none⟩,
  ⟨"iquest", 0xBF, none⟩, ⟨"iscr", 0x1D4BE, none⟩, ⟨"isin", 0x2208, none⟩,
  ⟨"isinE", 0x22F9, none⟩, ⟨"isindot", 0x22F5, none⟩, ⟨"isins", 0x22F4, none⟩,
  ⟨"isinsv", 0x22F3, none⟩, ⟨"isinv", 0x2208, none⟩, ⟨"it", 0x2062, none⟩,
  ⟨"itilde", 0x129, none⟩, ⟨"iukcy", 0x456, none⟩, ⟨"iuml", 0xEF, none⟩]

/-- The names that start with a small j. -/
def namesLowerJ : List Entry := [
  ⟨"jcirc", 0x135, none⟩, ⟨"jcy", 0x439, none⟩, ⟨"jfr", 0x1D527, none⟩, ⟨"jmath", 0x237, none⟩,
  ⟨"jopf", 0x1D55B, none⟩, ⟨"jscr", 0x1D4BF, none⟩, ⟨"jsercy", 0x458, none⟩,
  ⟨"jukcy", 0x454, none⟩]

/-- The names that start with a small k. -/
def namesLowerK : List Entry := [
  ⟨"kappa", 0x3BA, none⟩, ⟨"kappav", 0x3F0, none⟩, ⟨"kcedil", 0x137, none⟩, ⟨"kcy", 0x43A, none⟩,
  ⟨"kfr", 0x1D528, none⟩, ⟨"kgreen", 0x138, none⟩, ⟨"khcy", 0x445, none⟩, ⟨"kjcy", 0x45C, none⟩,
  ⟨"kopf", 0x1D55C, none⟩, ⟨"kscr", 0x1D4C0, none⟩]

/-- The names that start with a small l. -/
def namesLowerL : List Entry := [
  ⟨"lAarr", 0x21DA, none⟩, ⟨"lArr", 0x21D0, none⟩, ⟨"lAtail", 0x291B, none⟩,
  ⟨"lBarr", 0x290E, none⟩, ⟨"lE", 0x2266, none⟩, ⟨"lEg", 0x2A8B, none⟩, ⟨"lHar", 0x2962, none⟩,
  ⟨"lacute", 0x13A, none⟩, ⟨"laemptyv", 0x29B4, none⟩, ⟨"lagran", 0x2112, none⟩,
  ⟨"lambda", 0x3BB, none⟩, ⟨"lang", 0x27E8, none⟩, ⟨"langd", 0x2991, none⟩,
  ⟨"langle", 0x27E8, none⟩, ⟨"lap", 0x2A85, none⟩, ⟨"laquo", 0xAB, none⟩, ⟨"larr", 0x2190, none⟩,
  ⟨"larrb", 0x21E4, none⟩, ⟨"larrbfs", 0x291F, none⟩, ⟨"larrfs", 0x291D, none⟩,
  ⟨"larrhk", 0x21A9, none⟩, ⟨"larrlp", 0x21AB, none⟩, ⟨"larrpl", 0x2939, none⟩,
  ⟨"larrsim", 0x2973, none⟩, ⟨"larrtl", 0x21A2, none⟩, ⟨"lat", 0x2AAB, none⟩,
  ⟨"latail", 0x2919, none⟩, ⟨"late", 0x2AAD, none⟩, ⟨"lates", 0x2AAD, some 0xFE00⟩,
  ⟨"lbarr", 0x290C, none⟩, ⟨"lbbrk", 0x2772, none⟩, ⟨"lbrace", 0x7B, none⟩,
  ⟨"lbrack", 0x5B, none⟩, ⟨"lbrke", 0x298B, none⟩, ⟨"lbrksld", 0x298F, none⟩,
  ⟨"lbrkslu", 0x298D, none⟩, ⟨"lcaron", 0x13E, none⟩, ⟨"lcedil", 0x13C, none⟩,
  ⟨"lceil", 0x2308, none⟩, ⟨"lcub", 0x7B, none⟩, ⟨"lcy", 0x43B, none⟩, ⟨"ldca", 0x2936, none⟩,
  ⟨"ldquo", 0x201C, none⟩, ⟨"ldquor", 0x201E, none⟩, ⟨"ldrdhar", 0x2967, none⟩,
  ⟨"ldrushar", 0x294B, none⟩, ⟨"ldsh", 0x21B2, none⟩, ⟨"le", 0x2264, none⟩,
  ⟨"leftarrow", 0x2190, none⟩, ⟨"leftarrowtail", 0x21A2, none⟩, ⟨"leftharpoondown", 0x21BD, none⟩,
  ⟨"leftharpoonup", 0x21BC, none⟩, ⟨"leftleftarrows", 0x21C7, none⟩,
  ⟨"leftrightarrow", 0x2194, none⟩, ⟨"leftrightarrows", 0x21C6, none⟩,
  ⟨"leftrightharpoons", 0x21CB, none⟩, ⟨"leftrightsquigarrow", 0x21AD, none⟩,
  ⟨"leftthreetimes", 0x22CB, none⟩, ⟨"leg", 0x22DA, none⟩, ⟨"leq", 0x2264, none⟩,
  ⟨"leqq", 0x2266, none⟩, ⟨"leqslant", 0x2A7D, none⟩, ⟨"les", 0x2A7D, none⟩,
  ⟨"lescc", 0x2AA8, none⟩, ⟨"lesdot", 0x2A7F, none⟩, ⟨"lesdoto", 0x2A81, none⟩,
  ⟨"lesdotor", 0x2A83, none⟩, ⟨"lesg", 0x22DA, some 0xFE00⟩, ⟨"lesges", 0x2A93, none⟩,
  ⟨"lessapprox", 0x2A85, none⟩, ⟨"lessdot", 0x22D6, none⟩, ⟨"lesseqgtr", 0x22DA, none⟩,
  ⟨"lesseqqgtr", 0x2A8B, none⟩, ⟨"lessgtr", 0x2276, none⟩, ⟨"lesssim", 0x2272, none⟩,
  ⟨"lfisht", 0x297C, none⟩, ⟨"lfloor", 0x230A, none⟩, ⟨"lfr", 0x1D529, none⟩,
  ⟨"lg", 0x2276, none⟩, ⟨"lgE", 0x2A91, none⟩, ⟨"lhard", 0x21BD, none⟩, ⟨"lharu", 0x21BC, none⟩,
  ⟨"lharul", 0x296A, none⟩, ⟨"lhblk", 0x2584, none⟩, ⟨"ljcy", 0x459, none⟩, ⟨"ll", 0x226A, none⟩,
  ⟨"llarr", 0x21C7, none⟩, ⟨"llcorner", 0x231E, none⟩, ⟨"llhard", 0x296B, none⟩,
  ⟨"lltri", 0x25FA, none⟩, ⟨"lmidot", 0x140, none⟩, ⟨"lmoust", 0x23B0, none⟩,
  ⟨"lmoustache", 0x23B0, none⟩, ⟨"lnE", 0x2268, none⟩, ⟨"lnap", 0x2A89, none⟩,
  ⟨"lnapprox", 0x2A89, none⟩, ⟨"lne", 0x2A87, none⟩, ⟨"lneq", 0x2A87, none⟩,
  ⟨"lneqq", 0x2268, none⟩, ⟨"lnsim", 0x22E6, none⟩, ⟨"loang", 0x27EC, none⟩,
  ⟨"loarr", 0x21FD, none⟩, ⟨"lobrk", 0x27E6, none⟩, ⟨"longleftarrow", 0x27F5, none⟩,
  ⟨"longleftrightarrow", 0x27F7, none⟩, ⟨"longmapsto", 0x27FC, none⟩,
  ⟨"longrightarrow", 0x27F6, none⟩, ⟨"looparrowleft", 0x21AB, none⟩,
  ⟨"looparrowright", 0x21AC, none⟩, ⟨"lopar", 0x2985, none⟩, ⟨"lopf", 0x1D55D, none⟩,
  ⟨"loplus", 0x2A2D, none⟩, ⟨"lotimes", 0x2A34, none⟩, ⟨"lowast", 0x2217, none⟩,
  ⟨"lowbar", 0x5F, none⟩, ⟨"loz", 0x25CA, none⟩, ⟨"lozenge", 0x25CA, none⟩,
  ⟨"lozf", 0x29EB, none⟩, ⟨"lpar", 0x28, none⟩, ⟨"lparlt", 0x2993, none⟩, ⟨"lrarr", 0x21C6, none⟩,
  ⟨"lrcorner", 0x231F, none⟩, ⟨"lrhar", 0x21CB, none⟩, ⟨"lrhard", 0x296D, none⟩,
  ⟨"lrm", 0x200E, none⟩, ⟨"lrtri", 0x22BF, none⟩, ⟨"lsaquo", 0x2039, none⟩,
  ⟨"lscr", 0x1D4C1, none⟩, ⟨"lsh", 0x21B0, none⟩, ⟨"lsim", 0x2272, none⟩, ⟨"lsime", 0x2A8D, none⟩,
  ⟨"lsimg", 0x2A8F, none⟩, ⟨"lsqb", 0x5B, none⟩, ⟨"lsquo", 0x2018, none⟩,
  ⟨"lsquor", 0x201A, none⟩, ⟨"lstrok", 0x142, none⟩, ⟨"lt", 0x3C, none⟩, ⟨"ltcc", 0x2AA6, none⟩,
  ⟨"ltcir", 0x2A79, none⟩, ⟨"ltdot", 0x22D6, none⟩, ⟨"lthree", 0x22CB, none⟩,
  ⟨"ltimes", 0x22C9, none⟩, ⟨"ltlarr", 0x2976, none⟩, ⟨"ltquest", 0x2A7B, none⟩,
  ⟨"ltrPar", 0x2996, none⟩, ⟨"ltri", 0x25C3, none⟩, ⟨"ltrie", 0x22B4, none⟩,
  ⟨"ltrif", 0x25C2, none⟩, ⟨"lurdshar", 0x294A, none⟩, ⟨"luruhar", 0x2966, none⟩,
  ⟨"lvertneqq", 0x2268, some 0xFE00⟩, ⟨"lvnE", 0x2268, some 0xFE00⟩]

/-- The names that start with a small m. -/
def namesLowerM : List Entry := [
  ⟨"mDDot", 0x223A, none⟩, ⟨"macr", 0xAF, none⟩, ⟨"male", 0x2642, none⟩, ⟨"malt", 0x2720, none⟩,
  ⟨"maltese", 0x2720, none⟩, ⟨"map", 0x21A6, none⟩, ⟨"mapsto", 0x21A6, none⟩,
  ⟨"mapstodown", 0x21A7, none⟩, ⟨"mapstoleft", 0x21A4, none⟩, ⟨"mapstoup", 0x21A5, none⟩,
  ⟨"marker", 0x25AE, none⟩, ⟨"mcomma", 0x2A29, none⟩, ⟨"mcy", 0x43C, none⟩,
  ⟨"mdash", 0x2014, none⟩, ⟨"measuredangle", 0x2221, none⟩, ⟨"mfr", 0x1D52A, none⟩,
  ⟨"mho", 0x2127, none⟩, ⟨"micro", 0xB5, none⟩, ⟨"mid", 0x2223, none⟩, ⟨"midast", 0x2A, none⟩,
  ⟨"midcir", 0x2AF0, none⟩, ⟨"middot", 0xB7, none⟩, ⟨"minus", 0x2212, none⟩,
  ⟨"minusb", 0x229F, none⟩, ⟨"minusd", 0x2238, none⟩, ⟨"minusdu", 0x2A2A, none⟩,
  ⟨"mlcp", 0x2ADB, none⟩, ⟨"mldr", 0x2026, none⟩, ⟨"mnplus", 0x2213, none⟩,
  ⟨"models", 0x22A7, none⟩, ⟨"mopf", 0x1D55E, none⟩, ⟨"mp", 0x2213, none⟩,
  ⟨"mscr", 0x1D4C2, none⟩, ⟨"mstpos", 0x223E, none⟩, ⟨"mu", 0x3BC, none⟩,
  ⟨"multimap", 0x22B8, none⟩, ⟨"mumap", 0x22B8, none⟩]

/-- The names that start with a small n. -/
def namesLowerN : List Entry := [
  ⟨"nGg", 0x22D9, some 0x338⟩, ⟨"nGt", 0x226B, some 0x20D2⟩, ⟨"nGtv", 0x226B, some 0x338⟩,
  ⟨"nLeftarrow", 0x21CD, none⟩, ⟨"nLeftrightarrow", 0x21CE, none⟩, ⟨"nLl", 0x22D8, some 0x338⟩,
  ⟨"nLt", 0x226A, some 0x20D2⟩, ⟨"nLtv", 0x226A, some 0x338⟩, ⟨"nRightarrow", 0x21CF, none⟩,
  ⟨"nVDash", 0x22AF, none⟩, ⟨"nVdash", 0x22AE, none⟩, ⟨"nabla", 0x2207, none⟩,
  ⟨"nacute", 0x144, none⟩, ⟨"nang", 0x2220, some 0x20D2⟩, ⟨"nap", 0x2249, none⟩,
  ⟨"napE", 0x2A70, some 0x338⟩, ⟨"napid", 0x224B, some 0x338⟩, ⟨"napos", 0x149, none⟩,
  ⟨"napprox", 0x2249, none⟩, ⟨"natur", 0x266E, none⟩, ⟨"natural", 0x266E, none⟩,
  ⟨"naturals", 0x2115, none⟩, ⟨"nbsp", 0xA0, none⟩, ⟨"nbump", 0x224E, some 0x338⟩,
  ⟨"nbumpe", 0x224F, some 0x338⟩, ⟨"ncap", 0x2A43, none⟩, ⟨"ncaron", 0x148, none⟩,
  ⟨"ncedil", 0x146, none⟩, ⟨"ncong", 0x2247, none⟩, ⟨"ncongdot", 0x2A6D, some 0x338⟩,
  ⟨"ncup", 0x2A42, none⟩, ⟨"ncy", 0x43D, none⟩, ⟨"ndash", 0x2013, none⟩, ⟨"ne", 0x2260, none⟩,
  ⟨"neArr", 0x21D7, none⟩, ⟨"nearhk", 0x2924, none⟩, ⟨"nearr", 0x2197, none⟩,
  ⟨"nearrow", 0x2197, none⟩, ⟨"nedot", 0x2250, some 0x338⟩, ⟨"nequiv", 0x2262, none⟩,
  ⟨"nesear", 0x2928, none⟩, ⟨"nesim", 0x2242, some 0x338⟩, ⟨"nexist", 0x2204, none⟩,
  ⟨"nexists", 0x2204, none⟩, ⟨"nfr", 0x1D52B, none⟩, ⟨"ngE", 0x2267, some 0x338⟩,
  ⟨"nge", 0x2271, none⟩, ⟨"ngeq", 0x2271, none⟩, ⟨"ngeqq", 0x2267, some 0x338⟩,
  ⟨"ngeqslant", 0x2A7E, some 0x338⟩, ⟨"nges", 0x2A7E, some 0x338⟩, ⟨"ngsim", 0x2275, none⟩,
  ⟨"ngt", 0x226F, none⟩, ⟨"ngtr", 0x226F, none⟩, ⟨"nhArr", 0x21CE, none⟩, ⟨"nharr", 0x21AE, none⟩,
  ⟨"nhpar", 0x2AF2, none⟩, ⟨"ni", 0x220B, none⟩, ⟨"nis", 0x22FC, none⟩, ⟨"nisd", 0x22FA, none⟩,
  ⟨"niv", 0x220B, none⟩, ⟨"njcy", 0x45A, none⟩, ⟨"nlArr", 0x21CD, none⟩,
  ⟨"nlE", 0x2266, some 0x338⟩, ⟨"nlarr", 0x219A, none⟩, ⟨"nldr", 0x2025, none⟩,
  ⟨"nle", 0x2270, none⟩, ⟨"nleftarrow", 0x219A, none⟩, ⟨"nleftrightarrow", 0x21AE, none⟩,
  ⟨"nleq", 0x2270, none⟩, ⟨"nleqq", 0x2266, some 0x338⟩, ⟨"nleqslant", 0x2A7D, some 0x338⟩,
  ⟨"nles", 0x2A7D, some 0x338⟩, ⟨"nless", 0x226E, none⟩, ⟨"nlsim", 0x2274, none⟩,
  ⟨"nlt", 0x226E, none⟩, ⟨"nltri", 0x22EA, none⟩, ⟨"nltrie", 0x22EC, none⟩,
  ⟨"nmid", 0x2224, none⟩, ⟨"nopf", 0x1D55F, none⟩, ⟨"not", 0xAC, none⟩, ⟨"notin", 0x2209, none⟩,
  ⟨"notinE", 0x22F9, some 0x338⟩, ⟨"notindot", 0x22F5, some 0x338⟩, ⟨"notinva", 0x2209, none⟩,
  ⟨"notinvb", 0x22F7, none⟩, ⟨"notinvc", 0x22F6, none⟩, ⟨"notni", 0x220C, none⟩,
  ⟨"notniva", 0x220C, none⟩, ⟨"notnivb", 0x22FE, none⟩, ⟨"notnivc", 0x22FD, none⟩,
  ⟨"npar", 0x2226, none⟩, ⟨"nparallel", 0x2226, none⟩, ⟨"nparsl", 0x2AFD, some 0x20E5⟩,
  ⟨"npart", 0x2202, some 0x338⟩, ⟨"npolint", 0x2A14, none⟩, ⟨"npr", 0x2280, none⟩,
  ⟨"nprcue", 0x22E0, none⟩, ⟨"npre", 0x2AAF, some 0x338⟩, ⟨"nprec", 0x2280, none⟩,
  ⟨"npreceq", 0x2AAF, some 0x338⟩, ⟨"nrArr", 0x21CF, none⟩, ⟨"nrarr", 0x219B, none⟩,
  ⟨"nrarrc", 0x2933, some 0x338⟩, ⟨"nrarrw", 0x219D, some 0x338⟩, ⟨"nrightarrow", 0x219B, none⟩,
  ⟨"nrtri", 0x22EB, none⟩, ⟨"nrtrie", 0x22ED, none⟩, ⟨"nsc", 0x2281, none⟩,
  ⟨"nsccue", 0x22E1, none⟩, ⟨"nsce", 0x2AB0, some 0x338⟩, ⟨"nscr", 0x1D4C3, none⟩,
  ⟨"nshortmid", 0x2224, none⟩, ⟨"nshortparallel", 0x2226, none⟩, ⟨"nsim", 0x2241, none⟩,
  ⟨"nsime", 0x2244, none⟩, ⟨"nsimeq", 0x2244, none⟩, ⟨"nsmid", 0x2224, none⟩,
  ⟨"nspar", 0x2226, none⟩, ⟨"nsqsube", 0x22E2, none⟩, ⟨"nsqsupe", 0x22E3, none⟩,
  ⟨"nsub", 0x2284, none⟩, ⟨"nsubE", 0x2AC5, some 0x338⟩, ⟨"nsube", 0x2288, none⟩,
  ⟨"nsubset", 0x2282, some 0x20D2⟩, ⟨"nsubseteq", 0x2288, none⟩,
  ⟨"nsubseteqq", 0x2AC5, some 0x338⟩, ⟨"nsucc", 0x2281, none⟩, ⟨"nsucceq", 0x2AB0, some 0x338⟩,
  ⟨"nsup", 0x2285, none⟩, ⟨"nsupE", 0x2AC6, some 0x338⟩, ⟨"nsupe", 0x2289, none⟩,
  ⟨"nsupset", 0x2283, some 0x20D2⟩, ⟨"nsupseteq", 0x2289, none⟩,
  ⟨"nsupseteqq", 0x2AC6, some 0x338⟩, ⟨"ntgl", 0x2279, none⟩, ⟨"ntilde", 0xF1, none⟩,
  ⟨"ntlg", 0x2278, none⟩, ⟨"ntriangleleft", 0x22EA, none⟩, ⟨"ntrianglelefteq", 0x22EC, none⟩,
  ⟨"ntriangleright", 0x22EB, none⟩, ⟨"ntrianglerighteq", 0x22ED, none⟩, ⟨"nu", 0x3BD, none⟩,
  ⟨"num", 0x23, none⟩, ⟨"numero", 0x2116, none⟩, ⟨"numsp", 0x2007, none⟩,
  ⟨"nvDash", 0x22AD, none⟩, ⟨"nvHarr", 0x2904, none⟩, ⟨"nvap", 0x224D, some 0x20D2⟩,
  ⟨"nvdash", 0x22AC, none⟩, ⟨"nvge", 0x2265, some 0x20D2⟩, ⟨"nvgt", 0x3E, some 0x20D2⟩,
  ⟨"nvinfin", 0x29DE, none⟩, ⟨"nvlArr", 0x2902, none⟩, ⟨"nvle", 0x2264, some 0x20D2⟩,
  ⟨"nvlt", 0x3C, some 0x20D2⟩, ⟨"nvltrie", 0x22B4, some 0x20D2⟩, ⟨"nvrArr", 0x2903, none⟩,
  ⟨"nvrtrie", 0x22B5, some 0x20D2⟩, ⟨"nvsim", 0x223C, some 0x20D2⟩, ⟨"nwArr", 0x21D6, none⟩,
  ⟨"nwarhk", 0x2923, none⟩, ⟨"nwarr", 0x2196, none⟩, ⟨"nwarrow", 0x2196, none⟩,
  ⟨"nwnear", 0x2927, none⟩]

/-- The names that start with a small o. -/
def namesLowerO : List Entry := [
  ⟨"oS", 0x24C8, none⟩, ⟨"oacute", 0xF3, none⟩, ⟨"oast", 0x229B, none⟩, ⟨"ocir", 0x229A, none⟩,
  ⟨"ocirc", 0xF4, none⟩, ⟨"ocy", 0x43E, none⟩, ⟨"odash", 0x229D, none⟩, ⟨"odblac", 0x151, none⟩,
  ⟨"odiv", 0x2A38, none⟩, ⟨"odot", 0x2299, none⟩, ⟨"odsold", 0x29BC, none⟩,
  ⟨"oelig", 0x153, none⟩, ⟨"ofcir", 0x29BF, none⟩, ⟨"ofr", 0x1D52C, none⟩, ⟨"ogon", 0x2DB, none⟩,
  ⟨"ograve", 0xF2, none⟩, ⟨"ogt", 0x29C1, none⟩, ⟨"ohbar", 0x29B5, none⟩, ⟨"ohm", 0x3A9, none⟩,
  ⟨"oint", 0x222E, none⟩, ⟨"olarr", 0x21BA, none⟩, ⟨"olcir", 0x29BE, none⟩,
  ⟨"olcross", 0x29BB, none⟩, ⟨"oline", 0x203E, none⟩, ⟨"olt", 0x29C0, none⟩,
  ⟨"omacr", 0x14D, none⟩, ⟨"omega", 0x3C9, none⟩, ⟨"omicron", 0x3BF, none⟩,
  ⟨"omid", 0x29B6, none⟩, ⟨"ominus", 0x2296, none⟩, ⟨"oopf", 0x1D560, none⟩,
  ⟨"opar", 0x29B7, none⟩, ⟨"operp", 0x29B9, none⟩, ⟨"oplus", 0x2295, none⟩, ⟨"or", 0x2228, none⟩,
  ⟨"orarr", 0x21BB, none⟩, ⟨"ord", 0x2A5D, none⟩, ⟨"order", 0x2134, none⟩,
  ⟨"orderof", 0x2134, none⟩, ⟨"ordf", 0xAA, none⟩, ⟨"ordm", 0xBA, none⟩, ⟨"origof", 0x22B6, none⟩,
  ⟨"oror", 0x2A56, none⟩, ⟨"orslope", 0x2A57, none⟩, ⟨"orv", 0x2A5B, none⟩,
  ⟨"oscr", 0x2134, none⟩, ⟨"oslash", 0xF8, none⟩, ⟨"osol", 0x2298, none⟩, ⟨"otilde", 0xF5, none⟩,
  ⟨"otimes", 0x2297, none⟩, ⟨"otimesas", 0x2A36, none⟩, ⟨"ouml", 0xF6, none⟩,
  ⟨"ovbar", 0x233D, none⟩]

/-- The names that start with a small p. -/
def namesLowerP : List Entry := [
  ⟨"par", 0x2225, none⟩, ⟨"para", 0xB6, none⟩, ⟨"parallel", 0x2225, none⟩,
  ⟨"parsim", 0x2AF3, none⟩, ⟨"parsl", 0x2AFD, none⟩, ⟨"part", 0x2202, none⟩, ⟨"pcy", 0x43F, none⟩,
  ⟨"percnt", 0x25, none⟩, ⟨"period", 0x2E, none⟩, ⟨"permil", 0x2030, none⟩,
  ⟨"perp", 0x22A5, none⟩, ⟨"pertenk", 0x2031, none⟩, ⟨"pfr", 0x1D52D, none⟩, ⟨"phi", 0x3C6, none⟩,
  ⟨"phiv", 0x3D5, none⟩, ⟨"phmmat", 0x2133, none⟩, ⟨"phone", 0x260E, none⟩, ⟨"pi", 0x3C0, none⟩,
  ⟨"pitchfork", 0x22D4, none⟩, ⟨"piv", 0x3D6, none⟩, ⟨"planck", 0x210F, none⟩,
  ⟨"planckh", 0x210E, none⟩, ⟨"plankv", 0x210F, none⟩, ⟨"plus", 0x2B, none⟩,
  ⟨"plusacir", 0x2A23, none⟩, ⟨"plusb", 0x229E, none⟩, ⟨"pluscir", 0x2A22, none⟩,
  ⟨"plusdo", 0x2214, none⟩, ⟨"plusdu", 0x2A25, none⟩, ⟨"pluse", 0x2A72, none⟩,
  ⟨"plusmn", 0xB1, none⟩, ⟨"plussim", 0x2A26, none⟩, ⟨"plustwo", 0x2A27, none⟩,
  ⟨"pm", 0xB1, none⟩, ⟨"pointint", 0x2A15, none⟩, ⟨"popf", 0x1D561, none⟩, ⟨"pound", 0xA3, none⟩,
  ⟨"pr", 0x227A, none⟩, ⟨"prE", 0x2AB3, none⟩, ⟨"prap", 0x2AB7, none⟩, ⟨"prcue", 0x227C, none⟩,
  ⟨"pre", 0x2AAF, none⟩, ⟨"prec", 0x227A, none⟩, ⟨"precapprox", 0x2AB7, none⟩,
  ⟨"preccurlyeq", 0x227C, none⟩, ⟨"preceq", 0x2AAF, none⟩, ⟨"precnapprox", 0x2AB9, none⟩,
  ⟨"precneqq", 0x2AB5, none⟩, ⟨"precnsim", 0x22E8, none⟩, ⟨"precsim", 0x227E, none⟩,
  ⟨"prime", 0x2032, none⟩, ⟨"primes", 0x2119, none⟩, ⟨"prnE", 0x2AB5, none⟩,
  ⟨"prnap", 0x2AB9, none⟩, ⟨"prnsim", 0x22E8, none⟩, ⟨"prod", 0x220F, none⟩,
  ⟨"profalar", 0x232E, none⟩, ⟨"profline", 0x2312, none⟩, ⟨"profsurf", 0x2313, none⟩,
  ⟨"prop", 0x221D, none⟩, ⟨"propto", 0x221D, none⟩, ⟨"prsim", 0x227E, none⟩,
  ⟨"prurel", 0x22B0, none⟩, ⟨"pscr", 0x1D4C5, none⟩, ⟨"psi", 0x3C8, none⟩,
  ⟨"puncsp", 0x2008, none⟩]

/-- The names that start with a small q. -/
def namesLowerQ : List Entry := [
  ⟨"qfr", 0x1D52E, none⟩, ⟨"qint", 0x2A0C, none⟩, ⟨"qopf", 0x1D562, none⟩,
  ⟨"qprime", 0x2057, none⟩, ⟨"qscr", 0x1D4C6, none⟩, ⟨"quaternions", 0x210D, none⟩,
  ⟨"quatint", 0x2A16, none⟩, ⟨"quest", 0x3F, none⟩, ⟨"questeq", 0x225F, none⟩,
  ⟨"quot", 0x22, none⟩]

/-- The names that start with a small r. -/
def namesLowerR : List Entry := [
  ⟨"rAarr", 0x21DB, none⟩, ⟨"rArr", 0x21D2, none⟩, ⟨"rAtail", 0x291C, none⟩,
  ⟨"rBarr", 0x290F, none⟩, ⟨"rHar", 0x2964, none⟩, ⟨"race", 0x223D, some 0x331⟩,
  ⟨"racute", 0x155, none⟩, ⟨"radic", 0x221A, none⟩, ⟨"raemptyv", 0x29B3, none⟩,
  ⟨"rang", 0x27E9, none⟩, ⟨"rangd", 0x2992, none⟩, ⟨"range", 0x29A5, none⟩,
  ⟨"rangle", 0x27E9, none⟩, ⟨"raquo", 0xBB, none⟩, ⟨"rarr", 0x2192, none⟩,
  ⟨"rarrap", 0x2975, none⟩, ⟨"rarrb", 0x21E5, none⟩, ⟨"rarrbfs", 0x2920, none⟩,
  ⟨"rarrc", 0x2933, none⟩, ⟨"rarrfs", 0x291E, none⟩, ⟨"rarrhk", 0x21AA, none⟩,
  ⟨"rarrlp", 0x21AC, none⟩, ⟨"rarrpl", 0x2945, none⟩, ⟨"rarrsim", 0x2974, none⟩,
  ⟨"rarrtl", 0x21A3, none⟩, ⟨"rarrw", 0x219D, none⟩, ⟨"ratail", 0x291A, none⟩,
  ⟨"ratio", 0x2236, none⟩, ⟨"rationals", 0x211A, none⟩, ⟨"rbarr", 0x290D, none⟩,
  ⟨"rbbrk", 0x2773, none⟩, ⟨"rbrace", 0x7D, none⟩, ⟨"rbrack", 0x5D, none⟩,
  ⟨"rbrke", 0x298C, none⟩, ⟨"rbrksld", 0x298E, none⟩, ⟨"rbrkslu", 0x2990, none⟩,
  ⟨"rcaron", 0x159, none⟩, ⟨"rcedil", 0x157, none⟩, ⟨"rceil", 0x2309, none⟩, ⟨"rcub", 0x7D, none⟩,
  ⟨"rcy", 0x440, none⟩, ⟨"rdca", 0x2937, none⟩, ⟨"rdldhar", 0x2969, none⟩,
  ⟨"rdquo", 0x201D, none⟩, ⟨"rdquor", 0x201D, none⟩, ⟨"rdsh", 0x21B3, none⟩,
  ⟨"real", 0x211C, none⟩, ⟨"realine", 0x211B, none⟩, ⟨"realpart", 0x211C, none⟩,
  ⟨"reals", 0x211D, none⟩, ⟨"rect", 0x25AD, none⟩, ⟨"reg", 0xAE, none⟩, ⟨"rfisht", 0x297D, none⟩,
  ⟨"rfloor", 0x230B, none⟩, ⟨"rfr", 0x1D52F, none⟩, ⟨"rhard", 0x21C1, none⟩,
  ⟨"rharu", 0x21C0, none⟩, ⟨"rharul", 0x296C, none⟩, ⟨"rho", 0x3C1, none⟩, ⟨"rhov", 0x3F1, none⟩,
  ⟨"rightarrow", 0x2192, none⟩, ⟨"rightarrowtail", 0x21A3, none⟩,
  ⟨"rightharpoondown", 0x21C1, none⟩, ⟨"rightharpoonup", 0x21C0, none⟩,
  ⟨"rightleftarrows", 0x21C4, none⟩, ⟨"rightleftharpoons", 0x21CC, none⟩,
  ⟨"rightrightarrows", 0x21C9, none⟩, ⟨"rightsquigarrow", 0x219D, none⟩,
  ⟨"rightthreetimes", 0x22CC, none⟩, ⟨"ring", 0x2DA, none⟩, ⟨"risingdotseq", 0x2253, none⟩,
  ⟨"rlarr", 0x21C4, none⟩, ⟨"rlhar", 0x21CC, none⟩, ⟨"rlm", 0x200F, none⟩,
  ⟨"rmoust", 0x23B1, none⟩, ⟨"rmoustache", 0x23B1, none⟩, ⟨"rnmid", 0x2AEE, none⟩,
  ⟨"roang", 0x27ED, none⟩, ⟨"roarr", 0x21FE, none⟩, ⟨"robrk", 0x27E7, none⟩,
  ⟨"ropar", 0x2986, none⟩, ⟨"ropf", 0x1D563, none⟩, ⟨"roplus", 0x2A2E, none⟩,
  ⟨"rotimes", 0x2A35, none⟩, ⟨"rpar", 0x29, none⟩, ⟨"rpargt", 0x2994, none⟩,
  ⟨"rppolint", 0x2A12, none⟩, ⟨"rrarr", 0x21C9, none⟩, ⟨"rsaquo", 0x203A, none⟩,
  ⟨"rscr", 0x1D4C7, none⟩, ⟨"rsh", 0x21B1, none⟩, ⟨"rsqb", 0x5D, none⟩, ⟨"rsquo", 0x2019, none⟩,
  ⟨"rsquor", 0x2019, none⟩, ⟨"rthree", 0x22CC, none⟩, ⟨"rtimes", 0x22CA, none⟩,
  ⟨"rtri", 0x25B9, none⟩, ⟨"rtrie", 0x22B5, none⟩, ⟨"rtrif", 0x25B8, none⟩,
  ⟨"rtriltri", 0x29CE, none⟩, ⟨"ruluhar", 0x2968, none⟩, ⟨"rx", 0x211E, none⟩]

/-- The names that start with a small s. -/
def namesLowerS : List Entry := [
  ⟨"sacute", 0x15B, none⟩, ⟨"sbquo", 0x201A, none⟩, ⟨"sc", 0x227B, none⟩, ⟨"scE", 0x2AB4, none⟩,
  ⟨"scap", 0x2AB8, none⟩, ⟨"scaron", 0x161, none⟩, ⟨"sccue", 0x227D, none⟩, ⟨"sce", 0x2AB0, none⟩,
  ⟨"scedil", 0x15F, none⟩, ⟨"scirc", 0x15D, none⟩, ⟨"scnE", 0x2AB6, none⟩,
  ⟨"scnap", 0x2ABA, none⟩, ⟨"scnsim", 0x22E9, none⟩, ⟨"scpolint", 0x2A13, none⟩,
  ⟨"scsim", 0x227F, none⟩, ⟨"scy", 0x441, none⟩, ⟨"sdot", 0x22C5, none⟩, ⟨"sdotb", 0x22A1, none⟩,
  ⟨"sdote", 0x2A66, none⟩, ⟨"seArr", 0x21D8, none⟩, ⟨"searhk", 0x2925, none⟩,
  ⟨"searr", 0x2198, none⟩, ⟨"searrow", 0x2198, none⟩, ⟨"sect", 0xA7, none⟩, ⟨"semi", 0x3B, none⟩,
  ⟨"seswar", 0x2929, none⟩, ⟨"setminus", 0x2216, none⟩, ⟨"setmn", 0x2216, none⟩,
  ⟨"sext", 0x2736, none⟩, ⟨"sfr", 0x1D530, none⟩, ⟨"sfrown", 0x2322, none⟩,
  ⟨"sharp", 0x266F, none⟩, ⟨"shchcy", 0x449, none⟩, ⟨"shcy", 0x448, none⟩,
  ⟨"shortmid", 0x2223, none⟩, ⟨"shortparallel", 0x2225, none⟩, ⟨"shy", 0xAD, none⟩,
  ⟨"sigma", 0x3C3, none⟩, ⟨"sigmaf", 0x3C2, none⟩, ⟨"sigmav", 0x3C2, none⟩, ⟨"sim", 0x223C, none⟩,
  ⟨"simdot", 0x2A6A, none⟩, ⟨"sime", 0x2243, none⟩, ⟨"simeq", 0x2243, none⟩,
  ⟨"simg", 0x2A9E, none⟩, ⟨"simgE", 0x2AA0, none⟩, ⟨"siml", 0x2A9D, none⟩,
  ⟨"simlE", 0x2A9F, none⟩, ⟨"simne", 0x2246, none⟩, ⟨"simplus", 0x2A24, none⟩,
  ⟨"simrarr", 0x2972, none⟩, ⟨"slarr", 0x2190, none⟩, ⟨"smallsetminus", 0x2216, none⟩,
  ⟨"smashp", 0x2A33, none⟩, ⟨"smeparsl", 0x29E4, none⟩, ⟨"smid", 0x2223, none⟩,
  ⟨"smile", 0x2323, none⟩, ⟨"smt", 0x2AAA, none⟩, ⟨"smte", 0x2AAC, none⟩,
  ⟨"smtes", 0x2AAC, some 0xFE00⟩, ⟨"softcy", 0x44C, none⟩, ⟨"sol", 0x2F, none⟩,
  ⟨"solb", 0x29C4, none⟩, ⟨"solbar", 0x233F, none⟩, ⟨"sopf", 0x1D564, none⟩,
  ⟨"spades", 0x2660, none⟩, ⟨"spadesuit", 0x2660, none⟩, ⟨"spar", 0x2225, none⟩,
  ⟨"sqcap", 0x2293, none⟩, ⟨"sqcaps", 0x2293, some 0xFE00⟩, ⟨"sqcup", 0x2294, none⟩,
  ⟨"sqcups", 0x2294, some 0xFE00⟩, ⟨"sqsub", 0x228F, none⟩, ⟨"sqsube", 0x2291, none⟩,
  ⟨"sqsubset", 0x228F, none⟩, ⟨"sqsubseteq", 0x2291, none⟩, ⟨"sqsup", 0x2290, none⟩,
  ⟨"sqsupe", 0x2292, none⟩, ⟨"sqsupset", 0x2290, none⟩, ⟨"sqsupseteq", 0x2292, none⟩,
  ⟨"squ", 0x25A1, none⟩, ⟨"square", 0x25A1, none⟩, ⟨"squarf", 0x25AA, none⟩,
  ⟨"squf", 0x25AA, none⟩, ⟨"srarr", 0x2192, none⟩, ⟨"sscr", 0x1D4C8, none⟩,
  ⟨"ssetmn", 0x2216, none⟩, ⟨"ssmile", 0x2323, none⟩, ⟨"sstarf", 0x22C6, none⟩,
  ⟨"star", 0x2606, none⟩, ⟨"starf", 0x2605, none⟩, ⟨"straightepsilon", 0x3F5, none⟩,
  ⟨"straightphi", 0x3D5, none⟩, ⟨"strns", 0xAF, none⟩, ⟨"sub", 0x2282, none⟩,
  ⟨"subE", 0x2AC5, none⟩, ⟨"subdot", 0x2ABD, none⟩, ⟨"sube", 0x2286, none⟩,
  ⟨"subedot", 0x2AC3, none⟩, ⟨"submult", 0x2AC1, none⟩, ⟨"subnE", 0x2ACB, none⟩,
  ⟨"subne", 0x228A, none⟩, ⟨"subplus", 0x2ABF, none⟩, ⟨"subrarr", 0x2979, none⟩,
  ⟨"subset", 0x2282, none⟩, ⟨"subseteq", 0x2286, none⟩, ⟨"subseteqq", 0x2AC5, none⟩,
  ⟨"subsetneq", 0x228A, none⟩, ⟨"subsetneqq", 0x2ACB, none⟩, ⟨"subsim", 0x2AC7, none⟩,
  ⟨"subsub", 0x2AD5, none⟩, ⟨"subsup", 0x2AD3, none⟩, ⟨"succ", 0x227B, none⟩,
  ⟨"succapprox", 0x2AB8, none⟩, ⟨"succcurlyeq", 0x227D, none⟩, ⟨"succeq", 0x2AB0, none⟩,
  ⟨"succnapprox", 0x2ABA, none⟩, ⟨"succneqq", 0x2AB6, none⟩, ⟨"succnsim", 0x22E9, none⟩,
  ⟨"succsim", 0x227F, none⟩, ⟨"sum", 0x2211, none⟩, ⟨"sung", 0x266A, none⟩, ⟨"sup", 0x2283, none⟩,
  ⟨"sup1", 0xB9, none⟩, ⟨"sup2", 0xB2, none⟩, ⟨"sup3", 0xB3, none⟩, ⟨"supE", 0x2AC6, none⟩,
  ⟨"supdot", 0x2ABE, none⟩, ⟨"supdsub", 0x2AD8, none⟩, ⟨"supe", 0x2287, none⟩,
  ⟨"supedot", 0x2AC4, none⟩, ⟨"suphsol", 0x27C9, none⟩, ⟨"suphsub", 0x2AD7, none⟩,
  ⟨"suplarr", 0x297B, none⟩, ⟨"supmult", 0x2AC2, none⟩, ⟨"supnE", 0x2ACC, none⟩,
  ⟨"supne", 0x228B, none⟩, ⟨"supplus", 0x2AC0, none⟩, ⟨"supset", 0x2283, none⟩,
  ⟨"supseteq", 0x2287, none⟩, ⟨"supseteqq", 0x2AC6, none⟩, ⟨"supsetneq", 0x228B, none⟩,
  ⟨"supsetneqq", 0x2ACC, none⟩, ⟨"supsim", 0x2AC8, none⟩, ⟨"supsub", 0x2AD4, none⟩,
  ⟨"supsup", 0x2AD6, none⟩, ⟨"swArr", 0x21D9, none⟩, ⟨"swarhk", 0x2926, none⟩,
  ⟨"swarr", 0x2199, none⟩, ⟨"swarrow", 0x2199, none⟩, ⟨"swnwar", 0x292A, none⟩,
  ⟨"szlig", 0xDF, none⟩]

/-- The names that start with a small t. -/
def namesLowerT : List Entry := [
  ⟨"target", 0x2316, none⟩, ⟨"tau", 0x3C4, none⟩, ⟨"tbrk", 0x23B4, none⟩, ⟨"tcaron", 0x165, none⟩,
  ⟨"tcedil", 0x163, none⟩, ⟨"tcy", 0x442, none⟩, ⟨"tdot", 0x20DB, none⟩, ⟨"telrec", 0x2315, none⟩,
  ⟨"tfr", 0x1D531, none⟩, ⟨"there4", 0x2234, none⟩, ⟨"therefore", 0x2234, none⟩,
  ⟨"theta", 0x3B8, none⟩, ⟨"thetasym", 0x3D1, none⟩, ⟨"thetav", 0x3D1, none⟩,
  ⟨"thickapprox", 0x2248, none⟩, ⟨"thicksim", 0x223C, none⟩, ⟨"thinsp", 0x2009, none⟩,
  ⟨"thkap", 0x2248, none⟩, ⟨"thksim", 0x223C, none⟩, ⟨"thorn", 0xFE, none⟩,
  ⟨"tilde", 0x2DC, none⟩, ⟨"times", 0xD7, none⟩, ⟨"timesb", 0x22A0, none⟩,
  ⟨"timesbar", 0x2A31, none⟩, ⟨"timesd", 0x2A30, none⟩, ⟨"tint", 0x222D, none⟩,
  ⟨"toea", 0x2928, none⟩, ⟨"top", 0x22A4, none⟩, ⟨"topbot", 0x2336, none⟩,
  ⟨"topcir", 0x2AF1, none⟩, ⟨"topf", 0x1D565, none⟩, ⟨"topfork", 0x2ADA, none⟩,
  ⟨"tosa", 0x2929, none⟩, ⟨"tprime", 0x2034, none⟩, ⟨"trade", 0x2122, none⟩,
  ⟨"triangle", 0x25B5, none⟩, ⟨"triangledown", 0x25BF, none⟩, ⟨"triangleleft", 0x25C3, none⟩,
  ⟨"trianglelefteq", 0x22B4, none⟩, ⟨"triangleq", 0x225C, none⟩, ⟨"triangleright", 0x25B9, none⟩,
  ⟨"trianglerighteq", 0x22B5, none⟩, ⟨"tridot", 0x25EC, none⟩, ⟨"trie", 0x225C, none⟩,
  ⟨"triminus", 0x2A3A, none⟩, ⟨"triplus", 0x2A39, none⟩, ⟨"trisb", 0x29CD, none⟩,
  ⟨"tritime", 0x2A3B, none⟩, ⟨"trpezium", 0x23E2, none⟩, ⟨"tscr", 0x1D4C9, none⟩,
  ⟨"tscy", 0x446, none⟩, ⟨"tshcy", 0x45B, none⟩, ⟨"tstrok", 0x167, none⟩, ⟨"twixt", 0x226C, none⟩,
  ⟨"twoheadleftarrow", 0x219E, none⟩, ⟨"twoheadrightarrow", 0x21A0, none⟩]

/-- The names that start with a small u. -/
def namesLowerU : List Entry := [
  ⟨"uArr", 0x21D1, none⟩, ⟨"uHar", 0x2963, none⟩, ⟨"uacute", 0xFA, none⟩, ⟨"uarr", 0x2191, none⟩,
  ⟨"ubrcy", 0x45E, none⟩, ⟨"ubreve", 0x16D, none⟩, ⟨"ucirc", 0xFB, none⟩, ⟨"ucy", 0x443, none⟩,
  ⟨"udarr", 0x21C5, none⟩, ⟨"udblac", 0x171, none⟩, ⟨"udhar", 0x296E, none⟩,
  ⟨"ufisht", 0x297E, none⟩, ⟨"ufr", 0x1D532, none⟩, ⟨"ugrave", 0xF9, none⟩,
  ⟨"uharl", 0x21BF, none⟩, ⟨"uharr", 0x21BE, none⟩, ⟨"uhblk", 0x2580, none⟩,
  ⟨"ulcorn", 0x231C, none⟩, ⟨"ulcorner", 0x231C, none⟩, ⟨"ulcrop", 0x230F, none⟩,
  ⟨"ultri", 0x25F8, none⟩, ⟨"umacr", 0x16B, none⟩, ⟨"uml", 0xA8, none⟩, ⟨"uogon", 0x173, none⟩,
  ⟨"uopf", 0x1D566, none⟩, ⟨"uparrow", 0x2191, none⟩, ⟨"updownarrow", 0x2195, none⟩,
  ⟨"upharpoonleft", 0x21BF, none⟩, ⟨"upharpoonright", 0x21BE, none⟩, ⟨"uplus", 0x228E, none⟩,
  ⟨"upsi", 0x3C5, none⟩, ⟨"upsih", 0x3D2, none⟩, ⟨"upsilon", 0x3C5, none⟩,
  ⟨"upuparrows", 0x21C8, none⟩, ⟨"urcorn", 0x231D, none⟩, ⟨"urcorner", 0x231D, none⟩,
  ⟨"urcrop", 0x230E, none⟩, ⟨"uring", 0x16F, none⟩, ⟨"urtri", 0x25F9, none⟩,
  ⟨"uscr", 0x1D4CA, none⟩, ⟨"utdot", 0x22F0, none⟩, ⟨"utilde", 0x169, none⟩,
  ⟨"utri", 0x25B5, none⟩, ⟨"utrif", 0x25B4, none⟩, ⟨"uuarr", 0x21C8, none⟩, ⟨"uuml", 0xFC, none⟩,
  ⟨"uwangle", 0x29A7, none⟩]

/-- The names that start with a small v. -/
def namesLowerV : List Entry := [
  ⟨"vArr", 0x21D5, none⟩, ⟨"vBar", 0x2AE8, none⟩, ⟨"vBarv", 0x2AE9, none⟩,
  ⟨"vDash", 0x22A8, none⟩, ⟨"vangrt", 0x299C, none⟩, ⟨"varepsilon", 0x3F5, none⟩,
  ⟨"varkappa", 0x3F0, none⟩, ⟨"varnothing", 0x2205, none⟩, ⟨"varphi", 0x3D5, none⟩,
  ⟨"varpi", 0x3D6, none⟩, ⟨"varpropto", 0x221D, none⟩, ⟨"varr", 0x2195, none⟩,
  ⟨"varrho", 0x3F1, none⟩, ⟨"varsigma", 0x3C2, none⟩, ⟨"varsubsetneq", 0x228A, some 0xFE00⟩,
  ⟨"varsubsetneqq", 0x2ACB, some 0xFE00⟩, ⟨"varsupsetneq", 0x228B, some 0xFE00⟩,
  ⟨"varsupsetneqq", 0x2ACC, some 0xFE00⟩, ⟨"vartheta", 0x3D1, none⟩,
  ⟨"vartriangleleft", 0x22B2, none⟩, ⟨"vartriangleright", 0x22B3, none⟩, ⟨"vcy", 0x432, none⟩,
  ⟨"vdash", 0x22A2, none⟩, ⟨"vee", 0x2228, none⟩, ⟨"veebar", 0x22BB, none⟩,
  ⟨"veeeq", 0x225A, none⟩, ⟨"vellip", 0x22EE, none⟩, ⟨"verbar", 0x7C, none⟩, ⟨"vert", 0x7C, none⟩,
  ⟨"vfr", 0x1D533, none⟩, ⟨"vltri", 0x22B2, none⟩, ⟨"vnsub", 0x2282, some 0x20D2⟩,
  ⟨"vnsup", 0x2283, some 0x20D2⟩, ⟨"vopf", 0x1D567, none⟩, ⟨"vprop", 0x221D, none⟩,
  ⟨"vrtri", 0x22B3, none⟩, ⟨"vscr", 0x1D4CB, none⟩, ⟨"vsubnE", 0x2ACB, some 0xFE00⟩,
  ⟨"vsubne", 0x228A, some 0xFE00⟩, ⟨"vsupnE", 0x2ACC, some 0xFE00⟩,
  ⟨"vsupne", 0x228B, some 0xFE00⟩, ⟨"vzigzag", 0x299A, none⟩]

/-- The names that start with a small w. -/
def namesLowerW : List Entry := [
  ⟨"wcirc", 0x175, none⟩, ⟨"wedbar", 0x2A5F, none⟩, ⟨"wedge", 0x2227, none⟩,
  ⟨"wedgeq", 0x2259, none⟩, ⟨"weierp", 0x2118, none⟩, ⟨"wfr", 0x1D534, none⟩,
  ⟨"wopf", 0x1D568, none⟩, ⟨"wp", 0x2118, none⟩, ⟨"wr", 0x2240, none⟩, ⟨"wreath", 0x2240, none⟩,
  ⟨"wscr", 0x1D4CC, none⟩]

/-- The names that start with a small x. -/
def namesLowerX : List Entry := [
  ⟨"xcap", 0x22C2, none⟩, ⟨"xcirc", 0x25EF, none⟩, ⟨"xcup", 0x22C3, none⟩,
  ⟨"xdtri", 0x25BD, none⟩, ⟨"xfr", 0x1D535, none⟩, ⟨"xhArr", 0x27FA, none⟩,
  ⟨"xharr", 0x27F7, none⟩, ⟨"xi", 0x3BE, none⟩, ⟨"xlArr", 0x27F8, none⟩, ⟨"xlarr", 0x27F5, none⟩,
  ⟨"xmap", 0x27FC, none⟩, ⟨"xnis", 0x22FB, none⟩, ⟨"xodot", 0x2A00, none⟩,
  ⟨"xopf", 0x1D569, none⟩, ⟨"xoplus", 0x2A01, none⟩, ⟨"xotime", 0x2A02, none⟩,
  ⟨"xrArr", 0x27F9, none⟩, ⟨"xrarr", 0x27F6, none⟩, ⟨"xscr", 0x1D4CD, none⟩,
  ⟨"xsqcup", 0x2A06, none⟩, ⟨"xuplus", 0x2A04, none⟩, ⟨"xutri", 0x25B3, none⟩,
  ⟨"xvee", 0x22C1, none⟩, ⟨"xwedge", 0x22C0, none⟩]

/-- The names that start with a small y. -/
def namesLowerY : List Entry := [
  ⟨"yacute", 0xFD, none⟩, ⟨"yacy", 0x44F, none⟩, ⟨"ycirc", 0x177, none⟩, ⟨"ycy", 0x44B, none⟩,
  ⟨"yen", 0xA5, none⟩, ⟨"yfr", 0x1D536, none⟩, ⟨"yicy", 0x457, none⟩, ⟨"yopf", 0x1D56A, none⟩,
  ⟨"yscr", 0x1D4CE, none⟩, ⟨"yucy", 0x44E, none⟩, ⟨"yuml", 0xFF, none⟩]

/-- The names that start with a small z. -/
def namesLowerZ : List Entry := [
  ⟨"zacute", 0x17A, none⟩, ⟨"zcaron", 0x17E, none⟩, ⟨"zcy", 0x437, none⟩, ⟨"zdot", 0x17C, none⟩,
  ⟨"zeetrf", 0x2128, none⟩, ⟨"zeta", 0x3B6, none⟩, ⟨"zfr", 0x1D537, none⟩, ⟨"zhcy", 0x436, none⟩,
  ⟨"zigrarr", 0x21DD, none⟩, ⟨"zopf", 0x1D56B, none⟩, ⟨"zscr", 0x1D4CF, none⟩,
  ⟨"zwj", 0x200D, none⟩, ⟨"zwnj", 0x200C, none⟩]

/-- The names that start with a given letter. -/
def namesFrom (c : Char) : List Entry :=
  match c with
  | 'A' => namesUpperA
  | 'B' => namesUpperB
  | 'C' => namesUpperC
  | 'D' => namesUpperD
  | 'E' => namesUpperE
  | 'F' => namesUpperF
  | 'G' => namesUpperG
  | 'H' => namesUpperH
  | 'I' => namesUpperI
  | 'J' => namesUpperJ
  | 'K' => namesUpperK
  | 'L' => namesUpperL
  | 'M' => namesUpperM
  | 'N' => namesUpperN
  | 'O' => namesUpperO
  | 'P' => namesUpperP
  | 'Q' => namesUpperQ
  | 'R' => namesUpperR
  | 'S' => namesUpperS
  | 'T' => namesUpperT
  | 'U' => namesUpperU
  | 'V' => namesUpperV
  | 'W' => namesUpperW
  | 'X' => namesUpperX
  | 'Y' => namesUpperY
  | 'Z' => namesUpperZ
  | 'a' => namesLowerA
  | 'b' => namesLowerB
  | 'c' => namesLowerC
  | 'd' => namesLowerD
  | 'e' => namesLowerE
  | 'f' => namesLowerF
  | 'g' => namesLowerG
  | 'h' => namesLowerH
  | 'i' => namesLowerI
  | 'j' => namesLowerJ
  | 'k' => namesLowerK
  | 'l' => namesLowerL
  | 'm' => namesLowerM
  | 'n' => namesLowerN
  | 'o' => namesLowerO
  | 'p' => namesLowerP
  | 'q' => namesLowerQ
  | 'r' => namesLowerR
  | 's' => namesLowerS
  | 't' => namesLowerT
  | 'u' => namesLowerU
  | 'v' => namesLowerV
  | 'w' => namesLowerW
  | 'x' => namesLowerX
  | 'y' => namesLowerY
  | 'z' => namesLowerZ
  | _ => []

/-- The names that need no semicolon. -/
def legacyNames : List String := [
  "AElig", "AMP", "Aacute", "Acirc", "Agrave", "Aring", "Atilde", "Auml", "COPY", "Ccedil", "ETH",
  "Eacute", "Ecirc", "Egrave", "Euml", "GT", "Iacute", "Icirc", "Igrave", "Iuml", "LT", "Ntilde",
  "Oacute", "Ocirc", "Ograve", "Oslash", "Otilde", "Ouml", "QUOT", "REG", "THORN", "Uacute",
  "Ucirc", "Ugrave", "Uuml", "Yacute", "aacute", "acirc", "acute", "aelig", "agrave", "amp",
  "aring", "atilde", "auml", "brvbar", "ccedil", "cedil", "cent", "copy", "curren", "deg",
  "divide", "eacute", "ecirc", "egrave", "eth", "euml", "frac12", "frac14", "frac34", "gt",
  "iacute", "icirc", "iexcl", "igrave", "iquest", "iuml", "laquo", "lt", "macr", "micro",
  "middot", "nbsp", "not", "ntilde", "oacute", "ocirc", "ograve", "ordf", "ordm", "oslash",
  "otilde", "ouml", "para", "plusmn", "pound", "quot", "raquo", "reg", "sect", "shy", "sup1",
  "sup2", "sup3", "szlig", "thorn", "times", "uacute", "ucirc", "ugrave", "uml", "uuml", "yacute",
  "yen", "yuml"]

end Assessment.Markup.Entity
