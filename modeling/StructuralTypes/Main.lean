import StructuralTypes.CommandLine.Inspect
import StructuralTypes.Functions

/-!
# The program

Runs the command line on the arguments of the process.
-/

open StructuralTypes

def main (args : List String) : IO UInt32 := do
  let (prelude, lattice) := Prelude.initial
  let env : CommandLine.Environment :=
    ⟨.standard, prelude, CommandLine.Catalog.library prelude⟩
  let bench : Workbench := ⟨lattice, .new false none, ⟨"", ""⟩, [], []⟩
  let (status, after) := CommandLine.execute env args bench
  IO.print after.console.out
  IO.eprint after.console.err
  match status with
  | .ok n => return n.toUInt32
  | .error fault =>
    IO.eprintln fault.message
    return 1
