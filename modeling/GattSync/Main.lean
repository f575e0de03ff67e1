import GattSync.CommandLine

/-!
# The program

Reads the files that the arguments name, prints the report, and fails with its error.
-/

open GattSync

/-- The content of a file, or why it cannot be read. -/
def readFile (path : String) : IO (Except String String) := do
  try
    return .ok (← IO.FS.readFile path)
  catch e =>
    return .error (toString e)

def main (args : List String) : IO UInt32 := do
  let mut contents : List (String × Except String String) := []
  for path in CommandLine.files args do
    contents := (path, ← readFile path) :: contents
  let report := CommandLine.run args fun path =>
    (contents.lookup path).getD (.error "not read")
  IO.print report.output
  match report.error with
  | some e =>
    IO.eprintln ("Error: " ++ e.message)
    return 1
  | none => return 0
