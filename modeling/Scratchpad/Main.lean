import Scratchpad.Console

/-! The program. Under a name that ends in `repl` it is a notepad at the terminal, under any other
the command line. -/
namespace Scratchpad

partial def readInput (read : String) : IO String := do
  let line ← (← IO.getStdin).getLine
  if line.isEmpty then pure read else readInput (read ++ line)

def entryAt (path : String) : IO CommandLine.Entry :=
  try .file <$> IO.FS.readFile path
  catch
    | .noFileOrDirectory .. | .inappropriateType .. => pure .noFile
    | .userError reason => pure (.undecodable reason)
    | .permissionDenied _ _ reason => pure (.unreadable reason)
    | error => pure (.inaccessible (toString error))

def runCommandLine (diagnostics : Bool) (arguments : List String) : IO UInt32 := do
  let source := (CommandLine.Options.ofArguments arguments).toOption.map CommandLine.Options.source
  let input ← if source.any CommandLine.readsInput then readInput "" else pure ""
  let entry ← match source with
    | some (some argument) =>
      if CommandLine.readsInput (some argument) then pure .noFile
      else entryAt (CommandLine.cleanPath argument)
    | _ => pure .noFile
  match CommandLine.run .usual arguments input fun _ => entry with
  | .ok written => Console.write diagnostics written
  | .error stop =>
    let reason := match stop with
      | .refused refusal => refusal.message
      | .failed failure => failure.message
    (← IO.getStderr).putStrLn reason
    pure 1

end Scratchpad

open Scratchpad in
def main (arguments : List String) : IO UInt32 := do
  let diagnostics := Diagnostic.enabled (← IO.getEnv "COUNTPAD_DIAGNOSTICS")
  let name := (← IO.appPath).fileName.getD ""
  if name.endsWith "repl" then Console.start diagnostics
  else runCommandLine diagnostics arguments
