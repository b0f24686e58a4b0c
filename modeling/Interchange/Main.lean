import Interchange.Startup

/-!
# The command line

Starts the service from the environment of the process and shows what is logged. The library holds
no network layer, so no address can be claimed and the start ends there.
-/

namespace Interchange.CommandLine

/-- The variables that are looked at. -/
def variableNames : List String :=
  [ "TRANSIT_DATA", "BIND_ADDR", "DEFINITIVE_MIN_TRANSFER_TIME", "ABORT_AFTER_NORMAL_TRIPS" ]

/-- Reads the file at a path, if one is given. -/
def readData (path : Option String) : IO (Except String (List UInt8)) := do
  match path with
  | none => return .error "no path"
  | some path =>
    try
      return .ok (← IO.FS.readBinFile path).toList
    catch e =>
      return .error (toString e)

/-- Starts the service and tells the exit code. -/
def start : IO UInt32 := do
  let values ← variableNames.mapM fun name => return (name, ← IO.getEnv name)
  let lookup (name : String) : Option String := (values.lookup name).join
  let bytes ← readData (lookup "TRANSIT_DATA")
  let (result, events) :=
    Startup.run lookup (fun _ => bytes) fun _ => .error "there is no network layer"
  for e in Startup.shown (← IO.getEnv "RUST_LOG") events do
    IO.println (e.level.text ++ " " ++ e.source.target ++ ": " ++ e.line)
  match result with
  | .listening _ _ => return 0
  | .failed => return 1

end Interchange.CommandLine

/-- The program. -/
def main : IO UInt32 := Interchange.CommandLine.start
