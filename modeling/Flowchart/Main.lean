import Flowchart.CommandLine.Run

/-!
The command line program.
-/
namespace Flowchart.CommandLine

/-- What a number and words of the system stand for. Some of its calls give the number negated,
    in 32 bits. -/
def problemOfCode (code : UInt32) (description : String) : FileProblem :=
  match if code.toNat < Nat.pow 2 31 then code.toNat else Nat.pow 2 32 - code.toNat with
  | 2 => .notFound
  | 20 => .notDirectory
  | 21 => .isDirectory
  | number => .other description.toList number

/-- What the system reports about a file. -/
def problemOf : IO.Error → FileProblem
  | .noFileOrDirectory _ code details => problemOfCode code details
  | .permissionDenied _ code details => problemOfCode code details
  | .inappropriateType _ code details => problemOfCode code details
  | .invalidArgument _ code details => problemOfCode code details
  | .resourceExhausted _ code details => problemOfCode code details
  | .noSuchThing _ code details => problemOfCode code details
  | .otherError code details => problemOfCode code details
  | e => .other e.toString.toList 5

/-- The text of bytes in UTF-8. -/
def decodeBytes (bytes : ByteArray) : Except FileProblem Text :=
  match String.fromUTF8? bytes with
  | some s => .ok s.toList
  | none => .error .notText

/-- The files of the system and the standard input. -/
def systemHost : Host IO where
  read path := do
    try
      return decodeBytes (← IO.FS.readBinFile (String.ofList path))
    catch e => return .error (problemOf e)
  input := do
    try
      return decodeBytes (← (← IO.getStdin).readBinToEnd)
    catch e => return .error (problemOf e)
  write path t := do
    try
      IO.FS.writeFile (String.ofList path) (String.ofList t)
      return .ok ()
    catch e => return .error (problemOf e)

end Flowchart.CommandLine

/-- Runs the arguments of the command line. -/
def main (arguments : List String) : IO UInt32 := do
  let request := Flowchart.CommandLine.Request.ofArguments (arguments.map String.toList)
  let outcome ← Flowchart.CommandLine.run Flowchart.CommandLine.systemHost request
  for line in outcome.errors do
    IO.eprintln (String.ofList line)
  IO.print (String.ofList outcome.output)
  return outcome.code.toUInt32
