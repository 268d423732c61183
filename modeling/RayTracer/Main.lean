import RayTracer.Command.Run

/-!
# The command

Asks the file system, and writes what `Command.compose` gives.
-/

namespace RayTracer.Command

def readFile? (path : String) : IO (Option String) :=
  try return some (← IO.FS.readFile path) catch _ => return none

def reportFailure (message : String) (code : UInt32) : IO UInt32 := do
  IO.eprintln ("Error: " ++ message)
  return code

/-- Opens the file of a path for writing, emptied if it is there. -/
def open? (path : String) : IO (Option IO.FS.Handle) :=
  try return some (← IO.FS.Handle.mk path .write) catch _ => return none

/-- Writes the text of a picture to where the options say. -/
def deliver (output : Output) : IO UInt32 := do
  try
    match output.path with
    | none => (← IO.getStdout).putStr output.text
    | some path =>
      let some handle ← open? path
        | return ← reportFailure (RunError.uncreatable path).message
            (RunError.uncreatable path).exitCode
      handle.putStr output.text
      handle.flush
    return (Outcome.written output).exitCode
  catch cause => reportFailure (toString cause) 1

end RayTracer.Command

open RayTracer.Command in
def main (arguments : List String) : IO UInt32 := do
  match Options.ofArguments arguments with
  | .error cause =>
    IO.eprintln ("error: " ++ cause.message)
    return (Outcome.usage cause).exitCode
  | .ok options =>
    let content ← match options.config with
      | none => pure none
      | some path => readFile? path
    match compose options (fun _ => content) 1 with
    | .error cause => reportFailure cause.message cause.exitCode
    | .ok text => deliver ⟨options.output, text⟩
