/-!
# Options by name

Options can be given as a collection of named values of any kind. Here the values are checked against
the fields that a record has. All that is wrong is collected: names that no field has, values of the
wrong kind and fields that must be given and are not.
-/

namespace Assessment.Options

/-- A value given for a field. `φ` are the functions that can be given. -/
inductive Value (φ : Type) where
  /-- A text. -/
  | text (s : List Char)
  /-- A function. -/
  | function (f : φ)
  /-- Nothing, given as a value. -/
  | null
  /-- Something that no field takes. -/
  | other

/-- What is wrong with a field. -/
inductive ProblemKind where
  /-- There is no such field. -/
  | unknown
  /-- The value is not a text. -/
  | notText
  /-- The value is not a function. -/
  | notFunction
  /-- The value is not a truth value. -/
  | notTruth
  /-- The field must be given. -/
  | missing
  deriving DecidableEq, Repr

/-- Something wrong with a field. -/
structure Problem where
  /-- The name of the field. -/
  field : List Char
  /-- What is wrong. -/
  kind : ProblemKind
  deriving DecidableEq, Repr

/-- A value for a field, and what is wrong with what was given for it. -/
structure Checked (α : Type) where
  /-- The value, which counts only if nothing is wrong. -/
  value : α
  /-- What is wrong. -/
  problems : List Problem

/-- Values by the names of fields. -/
abbrev Fields (φ : Type) := List (List Char × Value φ)

namespace Fields

variable {φ : Type}

/-- The value given under a name. -/
def get? (fields : Fields φ) (name : String) : Option (Value φ) :=
  (fields.find? fun field => field.1 == name.toList).map (·.2)

/-- A text, or the given one if the field is left out. -/
def text (fields : Fields φ) (name : String) (default : List Char) : Checked (List Char) :=
  match fields.get? name with
  | none => ⟨default, []⟩
  | some (.text s) => ⟨s, []⟩
  | some _ => ⟨default, [⟨name.toList, .notText⟩]⟩

/-- A text, or none if the field is left out or nothing is given for it. -/
def optionalText (fields : Fields φ) (name : String) : Checked (Option (List Char)) :=
  match fields.get? name with
  | none | some .null => ⟨none, []⟩
  | some (.text s) => ⟨some s, []⟩
  | some _ => ⟨none, [⟨name.toList, .notText⟩]⟩

/-- A function, or the given one if the field is left out. -/
def function {α : Type} (fields : Fields φ) (name : String) (select : φ → Option α) (default : α) :
    Checked α :=
  match fields.get? name with
  | none => ⟨default, []⟩
  | some (.function f) =>
    match select f with
    | some a => ⟨a, []⟩
    | none => ⟨default, [⟨name.toList, .notFunction⟩]⟩
  | some _ => ⟨default, [⟨name.toList, .notFunction⟩]⟩

/-- A function, or none if the field is left out or nothing is given for it. -/
def optionalFunction {α : Type} (fields : Fields φ) (name : String) (select : φ → Option α) :
    Checked (Option α) :=
  match fields.get? name with
  | some .null => ⟨none, []⟩
  | _ => fields.function name (fun f => (select f).map some) none

/-- A function that must be given. `blank` only stands in for it when it is not. -/
def requiredFunction {α : Type} (fields : Fields φ) (name : String) (select : φ → Option α)
    (blank : α) : Checked α :=
  match fields.get? name with
  | none => ⟨blank, [⟨name.toList, .missing⟩]⟩
  | some _ => fields.function name select blank

/-- The names that no field has. -/
def unknown (fields : Fields φ) (known : List String) : List Problem :=
  (fields.filter fun field => !known.any fun name => name.toList == field.1).map fun field =>
    ⟨field.1, .unknown⟩

end Fields

/-- The record, if nothing is wrong. -/
def finish {α : Type} (record : α) (problems : List Problem) : Except (List Problem) α :=
  if problems.isEmpty then .ok record else .error problems

end Assessment.Options
