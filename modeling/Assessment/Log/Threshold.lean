import Assessment.Failure
import Assessment.Log
import Assessment.Text.Blank
import Assessment.Text.Cut

/-!
# Which messages are heard

Messages below a threshold are not heard. The threshold is a number, given as such or by a name that
the numbers in use have.
-/

namespace Assessment.Log

open Assessment.Text

/-- A threshold as it is given. -/
inductive Threshold where
  /-- By its number. -/
  | number (n : Int)
  /-- By a name. -/
  | name (s : List Char)
  deriving DecidableEq, Repr

/-- The names of thresholds. -/
def thresholdNames : List (List Char × Int) := [
  ("CRITICAL".toList, 50), ("FATAL".toList, 50), ("ERROR".toList, 40), ("WARN".toList, 30),
  ("WARNING".toList, 30), ("INFO".toList, 20), ("DEBUG".toList, 10), ("NOTSET".toList, 0)]

/-- The capital letter of a letter. Two letters outside of the ASCII range have a capital in it. -/
def capital (c : Char) : Char :=
  if c = '\u0131' then 'I' else if c = '\u017F' then 'S' else c.toUpper

/-- The number of a threshold. The case of its name does not count. -/
def Threshold.value : Threshold → Except Failure Int
  | number n => .ok n
  | name s =>
    match thresholdNames.lookup ((trim s).map capital) with
    | some n => .ok n
    | none => .error (.unknownLevel s)

/-- The threshold when nothing is asked for. -/
def defaultThreshold : Int := 20

/-- The threshold that is asked for. If everything is to be heard, nothing else is looked at. -/
def threshold (verbose : Bool) (given : Option Threshold) : Except Failure Int :=
  if verbose then .ok Level.debug.number
  else
    match given with
    | some t => t.value
    | none => .ok defaultThreshold

/-- The messages that are heard. -/
def heard (threshold : Int) (entries : List Entry) : List Entry :=
  entries.filter fun entry => threshold ≤ entry.level.number

/-- The name under which a part of a program speaks: below the name of the library. -/
def nestedName (name : List Char) : List Char :=
  let root := rootName.toList
  if name = root || startsWith (root ++ ['.']) name then name else root ++ '.' :: name

end Assessment.Log
