import StructuralTypes.CommandLine.Inspect
import StructuralTypes.Prelude
import StructuralTypes.Session.Step

/-!
# Sessions

A session gives names to types and reports and goes through steps: constructions, questions, and
work on reports. A step that fails leaves behind what had happened before it failed, and the next
step still runs.
-/

namespace StructuralTypes

/-- The names and reports of a session, the lattice with its prelude, the pending picks, and what
the current step has printed and called. -/
structure Session where
  prelude : Prelude
  lattice : Lattice
  bindings : List (String × Referent)
  reports : List (String × Report)
  picks : List Int
  nextHandle : Nat
  console : Console
  calls : List Fn

abbrev Stepping := ExceptT Fault (StateM Session)

/-- Puts an entry into a list of named things: a name that is there keeps its place. -/
def putNamed {α : Type} (name : String) (a : α) : List (String × α) → List (String × α)
  | [] => [(name, a)]
  | (n, b) :: rest => if n = name then (n, a) :: rest else (n, b) :: putNamed name a rest

namespace Session

/-- A fresh session, with only the prelude. -/
def initial : Session :=
  let (prelude, lattice) := Prelude.initial
  ⟨prelude, lattice, [], [], [], 0, ⟨"", ""⟩, []⟩

/-- The names that every session has, in order. -/
def sharedNames (s : Session) : List (String × Referent) :=
  ("Any", .type s.prelude.any) :: s.prelude.types.map fun (name, t) => (name, .type t)

/-- All names, those of the session before those that every session has. -/
def scope (s : Session) : List (String × Referent) := s.bindings ++ s.sharedNames

def resolve (s : Session) (name : String) : Attempt Referent :=
  match s.scope.lookup name with
  | some r => .ok r
  | none => .error (.unbound name)

def resolveReport (s : Session) (name : String) : Attempt Report :=
  match s.reports.lookup name with
  | some r => .ok r
  | none => .error (.unbound name)

/-- The first name that is bound to this very object. -/
def bindingOf? (s : Session) (r : Referent) : Option String :=
  (s.scope.find? fun (_, bound) => bound.isSame r).map Prod.fst

def view (s : Session) : Referent → Attempt NodeView
  | .type t => return .node (s.bindingOf? (.type t)) (← t.name)
  | .plain _ v => .ok (.plain v)

def composition (s : Session) : Ty → Attempt Composition
  | .bare _ | .any _ => .ok .none
  | .predicate _ pred => .ok (.guard pred)
  | .compound _ _ operands => return .operands (← operands.mapM fun t => s.view (.type t))
  | .without _ left right => return .exclusion (← s.view (.type left)) (← s.view (.type right))
  | .unary _ outer extractor inner =>
    return .container (← s.view (.type outer)) extractor (← s.view (.type inner))

def describe (s : Session) (r : Referent) : Attempt Description := do
  let t ← r.expect .kind
  return {
    kind := ← t.kind
    names := ← t.names
    docs := ← t.docs
    name := ← t.name
    canonicalName := ← t.canonicalName
    composition := ← s.composition t }

end Session

/-- Whether an index fits into a signed word of 64 bits. -/
def fitsWord (index : Int) : Bool := -9223372036854775808 ≤ index && index ≤ 9223372036854775807

/-- An element of a list counted from the front, or from the back by a negative number. -/
def elementAt {α : Type} (xs : List α) (index : Int) : Attempt α :=
  let place := if index < 0 then index + xs.length else index
  if !fitsWord index then .error .indexTooLarge
  else if place < 0 then .error .outOfRange
  else match xs[place.toNat]? with
    | some a => .ok a
    | none => .error .outOfRange

/-- The operands of a type made by one of the flattening operators. -/
def Referent.operands : Referent → Attempt (List Ty)
  | .type (.compound _ _ operands) => .ok operands
  | .type (.bare _) | .type (.any _) => .error (.lacks "NoneType" .operands)
  | .type (.predicate ..) => .error (.lacks "Guard" .operands)
  | .type (.without ..) => .error (.lacks "Exclusion" .operands)
  | .type (.unary ..) => .error (.lacks "Container" .operands)
  | .plain _ v => .error (.lacks v.qualifiedClassName .composition)

namespace Refinement

/-- Looks up the names in a refinement. -/
def resolve (s : Session) : Refinement → Attempt (Referent → Build Ty)
  | .operator op left => return Build.compound op (← s.resolve left)
  | .without left => return Build.without (← s.resolve left)
  | .container outer extractor => return Build.container (← s.resolve outer) extractor
  | .suchThat pred => .ok (Build.suchThat pred)
  | .withAlias name => .ok (Build.withAlias name)
  | .withoutAlias => .ok Build.withoutAlias
  | .withMetadata names? docs? => .ok (Build.withMetadata names? docs?)
  | .arrayOf => .ok s.prelude.arrayOf
  | .mappingOf => .ok s.prelude.mappingOf
  | .optional => .ok s.prelude.optional

end Refinement

namespace Stepping

def ofAttempt {α : Type} (attempt : Attempt α) : Stepping α := fun s => (attempt, s)

def ofBuild {α : Type} (build : Build α) : Stepping α := fun s =>
  let (result, lattice) := build s.lattice
  (result, { s with lattice })

/-- Works with a report and gives it back; what was printed or called counts for the session. -/
def ofWork {α : Type} (report : Report) (work : Work α) : Stepping (Attempt α × Report) := fun s =>
  let (result, w) := work ⟨s.lattice, report, s.console, s.picks, s.calls⟩
  (.ok (result, w.report),
    { s with lattice := w.lattice, console := w.console, picks := w.picks, calls := w.calls })

/-- Works with a report of the session. -/
def withReport (name : String) (work : Work Unit) : Stepping Answer := do
  let report ← ofAttempt ((← get).resolveReport name)
  let (result, report) ← ofWork report work
  modify fun s => { s with reports := putNamed name report s.reports }
  ofAttempt result
  return .done

def resolve (name : String) : Stepping Referent := do ofAttempt ((← get).resolve name)

def construct : Construction → Stepping Referent
  | .predicate pred name? => return .type (← ofBuild (Build.predicate pred name?))
  | .refine refinement operand => do
    let f ← ofAttempt (refinement.resolve (← get))
    let r ← resolve operand
    return .type (← ofBuild (f r))
  | .compose name base refinements => do
    let r ← resolve base
    let s ← get
    let steps ← ofAttempt (refinements.mapM fun f => f.resolve s)
    return .type (← ofBuild (Build.compose name r steps))
  | .bare => return .type (← ofBuild Build.bare)
  | .fetch of => resolve of
  | .plain written => do
    let v ← ofAttempt written
    let s ← get
    set { s with nextHandle := s.nextHandle + 1 }
    return .plain s.nextHandle v
  | .edge of d index => do
    let r ← resolve of
    let nodes ← ofBuild (r.edges d)
    ofAttempt (elementAt nodes index)
  | .operand of index => do
    let r ← resolve of
    let operands ← ofAttempt r.operands
    return .type (← ofAttempt (elementAt operands index))

def ask (I : Interpretation) : Question → Stepping Answer
  | .has of written => do
    let t ← ofAttempt ((← resolve of).expect .membership)
    let v ← ofAttempt written
    let traced := t.has I v
    modify fun s => { s with calls := s.calls ++ traced.calls }
    return .has (← ofAttempt traced.result)
  | .equals left right => do
    let l ← resolve left
    let _ ← ofAttempt (l.expect .equality)
    let r ← resolve right
    return .equals (← ofAttempt (l.equals r))
  | .same left right => return .same ((← resolve left).isSame (← resolve right))
  | .supersedes sup sub => do
    let above ← resolve sup
    let below ← resolve sub
    return .supersedes (← ofBuild (Build.supersedes above below))
  | .describe of => do
    let r ← resolve of
    return .description (← ofAttempt ((← get).describe r))
  | .edges of d => do
    let r ← resolve of
    let nodes ← ofBuild (r.edges d)
    let s ← get
    return .edges d (← ofAttempt (nodes.mapM s.view))
  | .outline of indent => return .outline (← ofAttempt ((← resolve of).outline indent))

/-- The complaint that a grievance comes down to. -/
def word : Grievance → Stepping Complaint
  | .complaint c => return c
  | .noSuchType text why => return .noSuchType text why
  | .notAType text found => return .notAType text (← ofAttempt found).className
  | .badMember text why => return .badMember text why
  | .cyclicLattice edge cycle => do
    let nodes ← cycle.mapM resolve
    ofAttempt (Complaint.cyclicLattice edge nodes)

/-- What the module of a session calls itself, which a text of the session can change. -/
def sessionTitle? (s : Session) : Option String :=
  match s.bindings.lookup "__name__" with
  | none => some "session"
  | some (.plain _ (.text points)) => some (Text.ofPoints points)
  | some _ => none

/-- The module of a session is a package if the session has a path, which should be something to go
through or nothing at all. -/
def sessionKind (s : Session) : CommandLine.ModuleKind :=
  match s.bindings.lookup "__path__" with
  | none => .plain
  | some (.plain h v) =>
    if v.isNull || v.items?.isSome then .package
    else .brokenPackage (Referent.plain h v).className
  | some r => .brokenPackage r.className

/-- The types and values of a session as a module that the command line can name. -/
def sessionModule (s : Session) : CommandLine.Module where
  name := "session"
  kind := sessionKind s
  attributes := s.bindings.map (fun (name, r) => (name, .ofReferent r))
    ++ CommandLine.Catalog.things "str" ["__name__"]
    ++ CommandLine.Catalog.things "NoneType" ["__doc__", "__package__", "__loader__", "__spec__"]
  title? := sessionTitle? s
  fallback? := (s.bindings.lookup "__getattr__").map (·.className)

/-- Runs the command line with the names of the session. -/
def commandLine (I : Interpretation) (arguments : List String) : Stepping Answer := do
  let s ← get
  let env : CommandLine.Environment :=
    ⟨I, s.prelude, sessionModule s :: CommandLine.Catalog.library s.prelude⟩
  let (result, _) ← ofWork (.new false none) (CommandLine.execute env arguments)
  return .status (← ofAttempt result)

def perform (I : Interpretation) : Step → Stepping Answer
  | .construct bind? c => do
    let r ← construct c
    if let some name := bind? then
      modify fun s => { s with bindings := putNamed name r s.bindings }
    match r with
    | .type t => return .built t.kind? (t.label.names?.getD [])
    | .plain _ v => return .plain v
  | .ask q => ask I q
  | .setEdges of d targets => do
    let r ← resolve of
    let nodes ← targets.mapM resolve
    let t ← ofAttempt (r.expect d.feature)
    modify fun s => { s with lattice := s.lattice.store d t.id nodes }
    return .done
  | .setPicks picks => do
    modify fun s => { s with picks }
    return .done
  | .newReport name verbose cap? => do
    modify fun s => { s with reports := putNamed name (.new verbose cap?) s.reports }
    return .done
  | .raise report g => do
    let _ ← ofAttempt ((← get).resolveReport report)
    let c ← word g
    withReport report (Work.complain c)
  | .inform report words => withReport report (Work.inform (" ".intercalate words))
  | .stateOf report => do
    let r ← ofAttempt ((← get).resolveReport report)
    return .reportState r.isSick (r.issues.map (·.text))
  | .complain report => withReport report Work.complainToConsole
  | .assertNoIssues report message => withReport report (Work.assertNoIssues message)
  | .check of report => do
    let r ← resolve of
    withReport report (Work.checkLattice r)
  | .commandLine arguments => commandLine I arguments

end Stepping

/-- What a step comes to: its answer or fault, what was printed, and the functions called. -/
structure Outcome where
  result : Attempt Answer
  console : Console
  calls : List Fn

namespace Outcome

/-- The calls that are told: those of functions from outside the prelude. -/
def toldCalls (o : Outcome) : List Fn := o.calls.filter fun f => !Fn.builtIn.contains f

end Outcome

namespace Session

def step (I : Interpretation) (s : Session) (st : Step) : Outcome × Session :=
  let (result, after) := Stepping.perform I st { s with console := ⟨"", ""⟩, calls := [] }
  (⟨result, after.console, after.calls⟩, after)

/-- The outcomes of steps, one for each. -/
def run (I : Interpretation) : Session → List Step → List Outcome
  | _, [] => []
  | s, st :: rest =>
    let (outcome, after) := s.step I st
    outcome :: run I after rest

end Session

end StructuralTypes
