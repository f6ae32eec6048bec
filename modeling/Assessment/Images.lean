import Assessment.Html.Document
import Assessment.Log
import Assessment.Number.Decimal
import Assessment.Path
import Assessment.Text.Quoted

/-!
# Images

Redirecting the sources of images. A source that names a file of the package is resolved against the path
of the item and replaced by the address of that file. All other sources stay.
-/

namespace Assessment.Images

open Assessment.Html Assessment.Options Assessment.Text

/-- The options of redirecting. -/
structure Options where
  /-- The address of a file, by its path and the source as it was written. -/
  resolveUrl : List Char → List Char → List Char
  /-- The source is not to be touched. -/
  isExternal : List Char → Bool := Path.isExternal
  /-- The path of the file that a source in an item names, by the path of the item. -/
  resolvePath : List Char → List Char → Option (List Char) := Path.resolve
  /-- The way to read HTML. -/
  builder : List Char := defaultBuilder

/-- A function that can be given as an option. -/
inductive Callback where
  /-- It makes a text of a path and a source. -/
  | url (f : List Char → List Char → List Char)
  /-- It tests a source. -/
  | test (p : List Char → Bool)
  /-- It makes a path of the path of an item and a source. -/
  | path (f : List Char → List Char → Option (List Char))

namespace Callback

/-- The function that makes a text. -/
def url? : Callback → Option (List Char → List Char → List Char)
  | url f => some f
  | _ => none

/-- The function that tests. -/
def test? : Callback → Option (List Char → Bool)
  | test p => some p
  | _ => none

/-- The function that makes a path. -/
def path? : Callback → Option (List Char → List Char → Option (List Char))
  | path f => some f
  | _ => none

end Callback

/-- The options that are given by name. The address has no default. -/
def Options.ofFields (fields : Fields Callback) : Except (List Problem) Options :=
  let url := fields.requiredFunction "resolve_url" Callback.url? fun path _ => path
  let external := fields.function "is_external_source" Callback.test? Path.isExternal
  let path := fields.function "path_resolver" Callback.path? Path.resolve
  let builder := fields.text "features" defaultBuilder
  finish ⟨url.value, external.value, path.value, builder.value⟩
    (url.problems ++ external.problems ++ path.problems ++ builder.problems ++
      fields.unknown ["resolve_url", "is_external_source", "path_resolver", "features"])

/-- What became of the HTML. -/
structure Redirected where
  /-- The HTML. -/
  html : List Char
  /-- The paths and sources for which addresses were made, in order. -/
  calls : List (List Char × List Char)
  /-- What was said. -/
  entries : List Log.Entry

/-- What was done so far. -/
structure Progress where
  /-- The paths and sources for which addresses were made. -/
  calls : List (List Char × List Char) := []
  /-- The sources that were not resolved. -/
  unresolved : List (List Char) := []

/-- What becomes of a source. -/
inductive Decision where
  /-- It stays. -/
  | keep
  /-- It stays because it names no file. -/
  | unresolved
  /-- It is replaced by the address of the file with the given path. -/
  | redirect (path : List Char)
  deriving DecidableEq, Repr

/-- What becomes of a source in the item with the given path. -/
def decideSource (options : Options) (item src : List Char) : Decision :=
  if src.isEmpty || options.isExternal src then .keep
  else
    match options.resolvePath item src with
    | some path => if path.isEmpty then .unresolved else .redirect path
    | none => .unresolved

/-- An element with its source redirected, if it is an image. -/
def redirectElement (options : Options) (item : List Char) (progress : Progress) (name : List Char)
    (attributes : Attributes) : Attributes × Progress :=
  if name = "img".toList then
    match attributes.get? "src".toList with
    | none => (attributes, progress)
    | some src =>
      match decideSource options item src with
      | .keep => (attributes, progress)
      | .unresolved =>
        (attributes, { progress with unresolved := progress.unresolved ++ [src] })
      | .redirect path =>
        (attributes.put "src".toList (options.resolveUrl path src),
          { progress with calls := progress.calls ++ [(path, src)] })
  else (attributes, progress)

/-- What is said of a source that names no file. -/
def unresolvedEntry (item src : List Char) : Log.Entry :=
  ⟨.debug, .images, "Could not resolve image source ".toList ++ quoted src ++ " from ".toList ++ item⟩

/-- What is said when all sources have been redirected. -/
def redirectedEntry (item : List Char) (n : Nat) : Log.Entry :=
  ⟨.debug, .images,
    "Rewrote ".toList ++ Number.decimal n ++ " image source(s) for ".toList ++ item⟩

/-- The HTML of the item with the given path, with the sources of its images redirected. -/
def redirect (options : Options) (item html : List Char) : Except Failure Redirected := do
  let nodes ← Html.read options.builder html
  let (changed, progress) := Node.updateAll (redirectElement options item) ({} : Progress) nodes
  return {
    html := serialize changed
    calls := progress.calls
    entries := progress.unresolved.map (unresolvedEntry item) ++
      [redirectedEntry item progress.calls.length] }

end Assessment.Images
