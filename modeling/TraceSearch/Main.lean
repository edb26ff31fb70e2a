import TraceSearch.Command.Run

/-!
# The program

The outer layer: the files, the environment and the terminal of the machine. It carries no network,
so every exchange with a model finds it unreachable.

Source: `main`.
-/

namespace TraceSearch.Command

/-- The failure of a file in the terms of the library. -/
def fileError (e : IO.Error) : Host.FileError :=
  let number : Option UInt32 := match e with
    | .noFileOrDirectory _ number _ => some number
    | .permissionDenied _ number _ => some number
    | .inappropriateType _ number _ => some number
    | .invalidArgument _ number _ => some number
    | .resourceExhausted _ number _ => some number
    | _ => none
  (number.bind fun n => Host.FileError.ofNumber? n.toNat).getD (.other (toString e))

/-- The variables that the program looks at. -/
def knownVariables : List String :=
  ["HOME", "XDG_CONFIG_HOME"] ++
    Settings.sections.flatMap fun sec => sec.entries.map fun entry =>
      "TRAWL__" ++ sec.name.toUpper ++ "__" ++ entry.name.toUpper

def readEnvironment : IO Settings.Environment := do
  let found ← knownVariables.mapM fun name => do return (name, ← IO.getEnv name)
  return found.filterMap fun (name, value) => value.map fun v => (name, v)

def thisMachine (environment : Settings.Environment) : Machine IO where
  environment := environment
  contentOf path := do
    try return .ok (← IO.FS.readBinFile path)
    catch e => return .error (fileError e)
  store path text := do
    try
      IO.FS.writeFile path text
      return .ok ()
    catch e => return .error (fileError e)
  print text := IO.print text
  exchange _ := return .error (.connect .unreachable)
  serve _ _ := return .error (Host.ConnectError.message .unreachable)

end TraceSearch.Command

/-- Runs the program and reports a failure on the error stream. -/
def main (arguments : List String) : IO UInt32 := do
  let environment ← TraceSearch.Command.readEnvironment
  let machine := TraceSearch.Command.thisMachine environment
  let outcome ← TraceSearch.Command.runArguments machine arguments
  match outcome with
  | .failed e => IO.eprint e.report
  | _ => pure ()
  return outcome.code
