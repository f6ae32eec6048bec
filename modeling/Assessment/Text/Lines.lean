/-!
# Lines

Text files end their lines in different ways. Here every end of a line becomes one line feed.
-/

namespace Assessment.Text

/-- The text with one line feed for every end of a line. -/
def unixLines : List Char → List Char
  | [] => []
  | '\r' :: '\n' :: s => '\n' :: unixLines s
  | '\r' :: s => '\n' :: unixLines s
  | c :: s => c :: unixLines s

end Assessment.Text
