import StructuralTypes.Fault

/-!
# Reports

A report collects complaints, up to a cap if it has one. Complaining to the console opens with an
outburst, whose words are chosen by picks.
-/

namespace StructuralTypes

structure Complaint where
  intro : String
  footer : List String
deriving DecidableEq, Inhabited

namespace Complaint

def text (c : Complaint) : String := "\n".intercalate (c.intro :: c.footer)

def noSuchType (name why : String) : Complaint :=
  ⟨"I cannot find a type called " ++ Text.quote name ++ ".", [why]⟩

def notAType (name className : String) : Complaint :=
  ⟨Text.quote name ++ " refers to something that is not a type.", ["It is a " ++ className ++ "."]⟩

def badMember (member why : String) : Complaint :=
  ⟨"I cannot read " ++ Text.quote member ++ " as a JSON value.", [why]⟩

/-- Names the members of a cycle through edges of the given kind. -/
def cyclicLattice (edge : String) (cycle : List Referent) : Attempt Complaint := do
  let shown ← cycle.mapM (·.display)
  return ⟨"These types form a cycle through their " ++ edge ++ ". The lattice must be acyclic.",
    " - The full cycle is:" :: shown.map ("     " ++ ·)⟩

end Complaint

/-- The complaints so far, in order. The cap may be any number; only one that is reached counts. -/
structure Report where
  verbose : Bool
  cap? : Option Int
  issues : List Complaint
deriving Inhabited

namespace Report

def new (verbose : Bool) (cap? : Option Int) : Report := ⟨verbose, cap?, []⟩

def isSick (r : Report) : Bool := !r.issues.isEmpty

def add (r : Report) (c : Complaint) : Report := { r with issues := r.issues ++ [c] }

/-- Whether the last complaint added was the one that reaches the cap. -/
def isFull (r : Report) : Bool := r.cap? = some (r.issues.length : Int)

end Report

namespace Outburst

def particles : List String := ["Oh, ", "Well, ", "Aw, ", "", ""]

def oaths : List String :=
  ["Drat", "Rats", "Fiddlesticks", "Good Grief", "Curses", "Crud", "Great Scott", "Nuts"]

def resignations : List String :=
  ["That does not add up.", "I cannot make sense of this.", "Something is out of order."]

/-- The word that a pick stands for; picks count round in a circle. -/
def choose (words : List String) (pick : Int) : String :=
  words.getD (pick % words.length).toNat ""

/-- The outburst for the next three picks, where missing ones count as zero, and the picks left. -/
def draw (picks : List Int) : String × List Int :=
  (choose particles (picks.getD 0 0) ++ choose oaths (picks.getD 1 0) ++ "! "
    ++ choose resignations (picks.getD 2 0), picks.drop 3)

end Outburst

end StructuralTypes
