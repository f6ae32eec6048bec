/-!
# Escaping

The five characters that mean something in markup, and how each is written so that it means nothing:
the ampersand, the angle brackets and both quotes. Escaped text can stand between tags and between
quotes of either kind.
-/

namespace Assessment.Markup

/-- A character as it is written in escaped text. -/
def escapeChar (c : Char) : List Char :=
  if c = '&' then "&amp;".toList
  else if c = '<' then "&lt;".toList
  else if c = '>' then "&gt;".toList
  else if c = '\x22' then "&quot;".toList
  else if c = '\x27' then "&#x27;".toList
  else [c]

/-- Text escaped for markup, quotes included. -/
def escape (s : List Char) : List Char := s.flatMap escapeChar

@[simp] theorem escape_nil : escape [] = [] := rfl

@[simp] theorem escape_cons (c : Char) (s : List Char) :
    escape (c :: s) = escapeChar c ++ escape s := rfl

/-- Escaping goes character by character, so it commutes with joining texts. -/
@[simp] theorem escape_append (s t : List Char) : escape (s ++ t) = escape s ++ escape t :=
  List.flatMap_append

end Assessment.Markup
