import StructuralTypes.Report

/-!
# Steps and answers

What a session can be asked to do, and what it answers. Types and reports are referred to by name.
A value is written down in its step, which can fail; the fault counts when the value is needed.
-/

namespace StructuralTypes

/-- A function from types to types, as a step writes it down. The operators have their first
operand fixed. -/
inductive Refinement where
  | operator (op : Operator) (left : String)
  | without (left : String)
  | container (outer : String) (extractor : Fn)
  | suchThat (pred : Fn)
  | withAlias (name : String)
  | withoutAlias
  | withMetadata (names? docs? : Option (List String))
  | arrayOf
  | mappingOf
  | optional

/-- A step that results in a type or a plain value. -/
inductive Construction where
  | predicate (pred : Fn) (name? : Option String)
  | refine (refinement : Refinement) (operand : String)
  | compose (name base : String) (refinements : List Refinement)
  | bare
  | fetch (of : String)
  | plain (v : Attempt Value)
  | edge (of : String) (d : Direction) (index : Int)
  | operand (of : String) (index : Int)

/-- A step that asks about named things and changes no name. -/
inductive Question where
  | has (of : String) (v : Attempt Value)
  | equals (left right : String)
  | same (left right : String)
  | supersedes (sup sub : String)
  | describe (of : String)
  | edges (of : String) (d : Direction)
  | outline (of : String) (indent : String)

/-- An issue to be raised on a report. -/
inductive Grievance where
  | complaint (c : Complaint)
  | noSuchType (text why : String)
  | notAType (text : String) (found : Attempt Value)
  | badMember (text why : String)
  | cyclicLattice (edge : String) (cycle : List String)

/-- One request to a session. -/
inductive Step where
  | construct (bind? : Option String) (c : Construction)
  | ask (q : Question)
  | setEdges (of : String) (d : Direction) (targets : List String)
  | setPicks (picks : List Int)
  | newReport (name : String) (verbose : Bool) (cap? : Option Int)
  | raise (report : String) (g : Grievance)
  | inform (report : String) (words : List String)
  | stateOf (report : String)
  | complain (report : String)
  | assertNoIssues (report message : String)
  | check (of report : String)
  | commandLine (arguments : List String)

/-- A node as answers show it: the first name it is bound to, if any, and its own name. -/
inductive NodeView where
  | node (binding? : Option String) (name : String)
  | plain (v : Value)

/-- What a type is made of. -/
inductive Composition where
  | none
  | guard (pred : Fn)
  | operands (nodes : List NodeView)
  | exclusion (left right : NodeView)
  | container (outer : NodeView) (extractor : Fn) (inner : NodeView)

/-- What a type says about itself. -/
structure Description where
  kind : String
  names : List String
  docs : List String
  name : String
  canonicalName : String
  composition : Composition

/-- What a step that does not fail results in. -/
inductive Answer where
  | built (kind? : Option String) (names : List String)
  | plain (v : Value)
  | has (v : Value)
  | equals (b : Bool)
  | same (b : Bool)
  | supersedes (b : Bool)
  | description (d : Description)
  | edges (d : Direction) (nodes : List NodeView)
  | outline (text : String)
  | reportState (isSick : Bool) (issues : List String)
  | status (n : Nat)
  | done

end StructuralTypes
