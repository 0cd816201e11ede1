import PolicyGraph.CommandLine.Libraries

/-!
# The program

Reads files and prints; everything else is the command line's.
-/

open PolicyGraph PolicyGraph.CommandLine

/-- What is found at a path of the file system. -/
def readText (path : String) : IO (Except FileFault String) := do
  if path.contains '\x00' then return .error .nulByte
  try
    match String.fromUTF8? (← IO.FS.readBinFile path) with
    | some s => return .ok s
    | none => return .error .notUtf8
  catch
    | .noFileOrDirectory .. => return .error .notFound
    -- The system's error numbers are negated.
    | .inappropriateType _ code _ =>
      return .error (if code == -20 then .notDirectory else .isDirectory)
    | e@(.invalidArgument _ code _) =>
      return .error (if code == -36 then .nameTooLong else .other (toString e))
    | e => return .error (.other (toString e))

/-- Prints the events that matter to whoever runs the command. -/
def report (events : List Event) : IO Unit :=
  for e in events do
    if e.level != .debug then
      let fields := e.fields.map fun (name, text) => " " ++ name ++ "=" ++ text
      IO.eprintln (e.level.name ++ " " ++ e.message ++ String.join fields)

def main (arguments : List String) : IO UInt32 := do
  let outcome ← run .own readText arguments
  report outcome.events
  IO.print outcome.stdout
  return outcome.exit.toUInt32
