import StructuralTypes.Interpretation
import StructuralTypes.Lattice
import StructuralTypes.Report

/-!
# The workbench

What longer operations work with: the lattice, a report, the console, the pending picks and the
calls made so far. All of it stays as it is when an operation fails.
-/

namespace StructuralTypes

structure Console where
  out : String
  err : String
deriving DecidableEq, Inhabited

structure Workbench where
  lattice : Lattice
  report : Report
  console : Console
  picks : List Int
  calls : List Fn

abbrev Work := ExceptT Fault (StateM Workbench)

namespace Work

def ofAttempt {α : Type} (attempt : Attempt α) : Work α := fun w => (attempt, w)

def ofBuild {α : Type} (build : Build α) : Work α := fun w =>
  let (result, lattice) := build w.lattice
  (result, { w with lattice })

def ofTraced {α : Type} (traced : Traced α) : Work α := fun w =>
  (traced.result, { w with calls := w.calls ++ traced.calls })

/-- Prints a line on the standard output. -/
def sayLine (line : String) : Work Unit :=
  modify fun w => { w with console := { w.console with out := w.console.out ++ line ++ "\n" } }

/-- Prints a line on the standard error output. -/
def warnLine (line : String) : Work Unit :=
  modify fun w => { w with console := { w.console with err := w.console.err ++ line ++ "\n" } }

/-- Adds a complaint. The one that reaches the cap stays and stops the operation. -/
def complain (c : Complaint) : Work Unit := do
  let report := (← get).report.add c
  modify fun w => { w with report }
  if report.isFull then throw .tooManyIssues

/-- Prints a line if the report is a verbose one. -/
def inform (line : String) : Work Unit := do
  if (← get).report.verbose then warnLine line

def drawOutburst : Work String := do
  let (text, picks) := Outburst.draw (← get).picks
  modify fun w => { w with picks }
  return text

/-- Prints all complaints, if there are any, after an outburst. -/
def complainToConsole : Work Unit := do
  let issues := (← get).report.issues
  if !issues.isEmpty then
    warnLine (String.ofList (List.replicate 60 '*'))
    warnLine (← drawOutburst)
  issues.forM fun issue => do
    warnLine (String.join (List.replicate 20 "  -"))
    warnLine issue.text

/-- Complains and fails if there are complaints. -/
def assertNoIssues (message : String) : Work Unit := do
  if (← get).report.isSick then
    complainToConsole
    throw (.issuesFound ((← drawOutburst) ++ " " ++ message))

end Work

end StructuralTypes
