import MediaTransport.CommandLine.Run

/-!
# The program

Reads the arguments, runs the command that they name and prints its report.  The
command runs on an unrouted host: it binds and announces what a command on a
network would, and it reports that nothing can be reached.
-/

namespace MediaTransport

open CommandLine

/-- A random word below a bound. -/
def randomBelow (bound : Nat) : IO Nat :=
  IO.rand 0 (bound - 1)

/-- Random first values for the counters of a stream. -/
def randomCounters : IO Counters := do
  return {
    ssrc := UInt32.ofNat (← randomBelow UInt32.size)
    sequence := UInt16.ofNat (← randomBelow UInt16.size)
    timestamp := UInt32.ofNat (← randomBelow UInt32.size) }

/-- The content of a file, or why it cannot be read. -/
def readContent (file : String) : IO (Except String (List UInt8)) := do
  try
    return .ok (← IO.FS.readBinFile file).toList
  catch e =>
    return .error (toString e)

/-- Prints what a command did. -/
def print (o : Outcome) : IO UInt32 := do
  IO.print o.output
  IO.eprint o.errors
  return o.code.toUInt32

/-- Runs a command. -/
def runCommand (c : Command) : IO UInt32 := do
  let content ← match c.file? with
    | some file => readContent file
    | none => pure (.ok [])
  print (c.run .unrouted (← randomCounters) content {}).outcome

end MediaTransport

/-- Runs the program. -/
def main (arguments : List String) : IO UInt32 := do
  match MediaTransport.CommandLine.Request.ofArguments arguments with
  | .run command => MediaTransport.runCommand command
  | .help text =>
    IO.print text
    return 0
  | .invalid => return 2
