import StructuralTypes.Acyclicity
import StructuralTypes.CommandLine.Arguments
import StructuralTypes.CommandLine.Catalog
import StructuralTypes.Json.Reader
import StructuralTypes.Membership
import StructuralTypes.Outline
import StructuralTypes.Subsumption

/-!
# Inspecting a type

The command line: resolve the types that are named, read the members, and answer what is asked.
Nothing is answered unless everything that was named could be found and read.
-/

namespace StructuralTypes.CommandLine

def usage : String := "usage: typisch [-h] [-m MEMBER] [-s OTHER] [-o] [-c] target"

def helpText : String := "\n".intercalate
  [usage,
    "",
    "Inspect structural types and how they relate.",
    "",
    "positional arguments:",
    "  target                a prelude type like Integer, or",
    "                        package.module:attribute",
    "",
    "options:",
    "  -h, --help            show this help message and exit",
    "  -m MEMBER, --member MEMBER",
    "                        a JSON value to test for membership. May repeat.",
    "  -s OTHER, --supersedes OTHER",
    "                        compare with another type in both directions.",
    "  -o, --outline         show how the type is put together.",
    "  -c, --check           check the lattice for cycles; repeat for more chatter."]

/-- What is shown when nothing is asked for. -/
def introduction : String := "\n".intercalate
  ["Inspect a structural type from the command line.",
    "",
    usage,
    "",
    "",
    "For example:",
    "",
    "    typisch Integer -m 3 -m 3.5 -s Number",
    "",
    "will say whether 3 and 3.5 are integers,",
    "and how Integer and Number relate in the lattice.",
    "",
    "Types are named either from the prelude (" ++ ", ".intercalate Prelude.typeNames ++ ")",
    "or as `package.module:attribute` for a type defined elsewhere."]

/-- What the command line works with besides the workbench. -/
structure Environment where
  interpretation : Interpretation
  prelude : Prelude
  modules : List Module

/-- The type that a text names: one of the prelude, or the attribute of a module after a colon.
Complains if there is none. -/
def resolve (env : Environment) (text : String) : Work (Option Ty) := do
  let chars := text.toList
  let moduleName := chars.takeWhile (· ≠ ':')
  match chars.drop moduleName.length with
  | [] =>
    match env.prelude.types.lookup text with
    | some t => return some t
    | none =>
      Work.complain (.noSuchType text
        ("The prelude has: " ++ ", ".intercalate Prelude.typeNames))
      return none
  | _ :: name =>
    let found ← Work.ofAttempt
      (Catalog.find env.modules (String.ofList moduleName) (String.ofList name)).run
    match found with
    | .ok (.type t) => return some t
    | .ok (.thing className) =>
      Work.complain (.notAType text className)
      return none
    | .error why =>
      Work.complain (.noSuchType text why)
      return none

/-- Reads the members, each with its text; complains about those that are not JSON. -/
def readMembers : List (Option String) → Work (List (String × Value))
  | [] => return []
  | none :: _ => throw .missingMember
  | some text :: rest => do
    match Json.read text with
    | .ok v => return (text, v) :: (← readMembers rest)
    | .error flaw =>
      Work.complain (.badMember text (flaw.text text))
      readMembers rest

def answerMember (env : Environment) (target : Ty) (member : String × Value) : Work Unit := do
  let (text, v) := member
  let answer ← Work.ofTraced (target.has env.interpretation v)
  let name ← Work.ofAttempt target.name
  Work.sayLine (text ++ (if answer.isTruthy then " ∈ " else " ∉ ") ++ name)

def answerSupersedes (sup sub : Ty) : Work Unit := do
  let supName ← Work.ofAttempt sup.name
  let subName ← Work.ofAttempt sub.name
  let answer ← Work.ofBuild (Build.supersedes (.type sup) (.type sub))
  Work.sayLine (supName ++ " supersedes " ++ subName ++ ": " ++ (if answer then "True" else "False"))

/-- Compares two types in both directions. A cycle met on the way is complained about and ends the
inspection. -/
def compareBoth (target other : Ty) : Work Bool := do
  try
    answerSupersedes target other
    answerSupersedes other target
    return true
  catch
    | .cyclicLattice sup sub => do
      Work.complain (← Work.ofAttempt (Complaint.cyclicLattice "edges" [sup, sub]))
      Work.complainToConsole
      return false
    | fault => throw fault

/-- Checks the lattice around the types for cycles. -/
def checkTypes (types : List Ty) : Work Bool := do
  types.forM fun t => Work.checkLattice (.type t)
  if (← get).report.isSick then
    Work.complainToConsole
    return false
  Work.warnLine "Looks acyclic to me."
  return true

/-- Answers everything that is asked about a target. Whether all went well is the result. -/
def answer (env : Environment) (args : Arguments) (target : Ty) (other? : Option Ty)
    (members : List (String × Value)) : Work Bool := do
  Work.sayLine ((← Work.ofAttempt target.name) ++ " = " ++ (← Work.ofAttempt target.canonicalName))
  if args.outline then
    Work.sayLine (← Work.ofAttempt (target.outline Ty.defaultIndent))
  members.forM (answerMember env target)
  let compared ← match other? with
    | none => pure true
    | some other => compareBoth target other
  if !compared then return false
  if 0 < args.checks then checkTypes (target :: other?.toList) else return true

/-- Resolves and reads everything first, and answers only if there is nothing to complain about. -/
def inspect (env : Environment) (args : Arguments) : Work Bool := do
  let target? ← resolve env args.target
  let other? ← match args.other? with
    | some text => if text.isEmpty then pure none else resolve env text
    | none => pure none
  let members ← readMembers args.members
  match target? with
  | some target =>
    if (← get).report.isSick then
      Work.complainToConsole
      return false
    answer env args target other? members
  | none =>
    Work.complainToConsole
    return false

/-- The cap on the number of complaints of one inspection. -/
def issueCap : Int := 10

/-- Inspects with a report of its own; the status is zero if all went well. -/
def run (env : Environment) (args : Arguments) : Work Nat := do
  modify fun w => { w with report := .new (1 < args.checks) (some issueCap) }
  try
    return if ← inspect env args then 0 else 1
  catch
    | .tooManyIssues => do
      Work.complainToConsole
      Work.warnLine "Giving up after a few issues. One crisis at a time, eh?"
      return 1
    | fault => throw fault

/-- The whole command line: an introduction if there are no arguments, else what they ask for. -/
def execute (env : Environment) (args : List String) : Work Nat := do
  if args.isEmpty then
    Work.sayLine introduction
    return 0
  match parse args with
  | .ok arguments => run env arguments
  | .error .help =>
    Work.sayLine helpText
    return 0
  | .error (.misuse m) =>
    Work.warnLine usage
    Work.warnLine ("typisch: error: " ++ m.message)
    return 2

end StructuralTypes.CommandLine
