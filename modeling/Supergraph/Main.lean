import Supergraph.Command

open Supergraph

def readFile? (path : String) : IO (Option String) := do
  try
    return some (← IO.FS.readFile path)
  catch _ =>
    return none

def main (arguments : List String) : IO UInt32 := do
  let outcome ← Command.run readFile? arguments
  IO.print outcome.output
  IO.eprint outcome.error
  return outcome.exitCode
