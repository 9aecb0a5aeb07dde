import Forth.Cli

/-!
# The program

Reads the files and the input that the command line asks for, runs the
program on them, and writes what it leaves behind.
-/

namespace Forth

/-- The steps that a run may take. -/
def runLimit : Nat := 1000000000000000000

/-- The files among the given paths that can be read. -/
def loadFiles (paths : List String) : IO Files :=
  paths.foldlM (fun files (path : String) => do
    try
      return files.insert path (← IO.FS.readBinFile path)
    catch _ => return files) .empty

end Forth

open Forth in
/-- Run the command line. -/
def main (arguments : List String) : IO UInt32 := do
  let preload ← IO.getEnv "TFORTH_PRELUDE"
  let (paths, interactive) :=
    match Cli.parse arguments with
    | .start i =>
      (i.script.toList ++ (i.preload.or preload).toList, i.script.isNone)
    | _ => ([], false)
  let input ←
    if interactive then (← IO.getStdin).readBinToEnd else pure .empty
  let files ← loadFiles paths
  let outcome := Cli.run arguments ⟨files, input, preload⟩ runLimit
  IO.print outcome.output
  IO.eprint outcome.errors
  return outcome.code
