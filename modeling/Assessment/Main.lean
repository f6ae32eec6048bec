import Assessment.Cli.Run

/-!
# The main function

The outer layer of the program: it reads the settings and the file of the item, and writes what the
program has done. Messages go to the standard error stream.
-/

namespace Assessment.Cli

/-- Why a file was not read. -/
def readError : IO.Error → ReadError
  | .noFileOrDirectory .. => .notFound
  | .permissionDenied .. => .denied
  | .inappropriateType _ code _ =>
    if code = 21 then .isDirectory else .notDirectory
  | error => .other (toString error).toList

/-- The bytes of a file. -/
def readBytes (path : List Char) : IO (Except ReadError (List UInt8)) := do
  try
    return .ok (← IO.FS.readBinFile (String.ofList path)).toList
  catch error => return .error (readError error)

/-- The variables that count for the settings: those of the settings themselves, and those to which
the file of settings refers. -/
def readVariables (file : Option (List UInt8)) : IO (List (List Char × List Char)) := do
  let text := (Settings.File.text file).toOption.getD []
  let names := Settings.variableNames ++ Settings.Reference.names text
  let found ← names.mapM fun name => do
    return (← IO.getEnv (String.ofList name)).map fun value => (name, value.toList)
  return found.filterMap id

end Assessment.Cli

open Assessment in
/-- Runs the program and returns its exit status. -/
def main (arguments : List String) : IO UInt32 := do
  let arguments := arguments.map String.toList
  let file := (← Cli.readBytes Settings.fileName).toOption
  let settings := Settings.load { environment := ← Cli.readVariables file, file := file }
  let item ← match Cli.itemPath? arguments with
    | some path => Cli.readBytes path
    | none => pure (.error .notFound)
  let outcome := Cli.run settings (fun _ => item) arguments
  for entry in outcome.entries do
    IO.eprintln (String.ofList entry.line)
  match outcome.result with
  | .ok ended =>
    IO.print (String.ofList ended.output)
    return ended.status.toUInt32
  | .error failure =>
    IO.eprintln (String.ofList failure.message)
    return 1
