import CacheMeter.CommandLine

/-!
# The program

Reads the settings file named on the command line and does what the command line
says.
-/

open CacheMeter

/-- The contents of a file, if it can be read. -/
def readContents (path : String) : IO (Option Bytes) := do
  try
    let contents ← IO.FS.readBinFile path
    return some contents.toList
  catch _ => return none

/-- Run the program. -/
def main (arguments : List String) : IO UInt32 := do
  let contents ←
    match CommandLine.fileNeeded? arguments with
    | some path => readContents path
    | none => pure none
  let outcome := CommandLine.outcome arguments fun _ => contents
  IO.print outcome.output
  IO.eprint outcome.errorText
  return UInt32.ofNat outcome.exitCode
