import Assessment.Markup.Escape
import Assessment.Text.Blank

/-!
# White space while an item is rendered

Inside preformatted blocks, text that is nothing but white space is layout of the document and is not
shown. Inside code it is shown.
-/

namespace Assessment.Item

/-- How white space is treated at a node. -/
structure Spacing where
  /-- The node is inside a preformatted block. -/
  inPre : Bool := false
  /-- White space is kept even there. -/
  preserve : Bool := false
  deriving DecidableEq, Repr

namespace Spacing

/-- The treatment at the root of what is rendered. -/
def root : Spacing := {}

/-- The treatment inside a preformatted block. -/
def pre : Spacing := { inPre := true }

/-- The treatment with the flags that are given replaced. -/
def withFlags (spacing : Spacing) (inPre preserve : Option Bool) : Spacing :=
  { inPre := inPre.getD spacing.inPre, preserve := preserve.getD spacing.preserve }

/-- The treatment with white space kept. -/
def keeping (spacing : Spacing) : Spacing := spacing.withFlags none (some true)

/-- Text as it is shown: escaped, or nothing if it is layout. -/
def render (spacing : Spacing) (s : List Char) : List Char :=
  if spacing.inPre && !spacing.preserve && Text.isBlankText s then [] else Markup.escape s

end Spacing

end Assessment.Item
