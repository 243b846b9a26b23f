import StructuralTypes.Fault

/-!
# What functions do

Membership only depends on an interpretation of the functions that types refer to. Calls are
traced, so that two computations can be compared by the calls they make, failed ones included.
-/

namespace StructuralTypes

/-- What an extractor hands out: its items in order, and the fault it ends with, if any. -/
structure Extraction where
  items : List Value
  fault? : Option Fault

namespace Extraction

def ofAttempt : Attempt (List Value) → Extraction
  | .ok items => ⟨items, none⟩
  | .error fault => ⟨[], some fault⟩

end Extraction

/-- The behaviour of all functions: a test answers with a value of any kind. -/
structure Interpretation where
  test : Fn → Value → Attempt Value
  extract : Fn → Value → Extraction

/-- The outcome of a computation together with the functions it called, in order. -/
structure Traced (α : Type) where
  calls : List Fn
  result : Attempt α

namespace Traced

variable {α β : Type}

def fail (fault : Fault) : Traced α := ⟨[], .error fault⟩

def ofAttempt (result : Attempt α) : Traced α := ⟨[], result⟩

/-- A single call with its outcome. -/
def call (f : Fn) (result : Attempt α) : Traced α := ⟨[f], result⟩

def andThen (x : Traced α) (f : α → Traced β) : Traced β :=
  match x.result with
  | .error fault => ⟨x.calls, .error fault⟩
  | .ok a => ⟨x.calls ++ (f a).calls, (f a).result⟩

instance : Monad Traced where
  pure a := ⟨[], .ok a⟩
  bind := andThen

/-- Tests items from the left up to the first one that fails the test. -/
def allTruthy (test : α → Traced Value) : List α → Traced Bool
  | [] => pure true
  | a :: rest => do
    if (← test a).isTruthy then allTruthy test rest else pure false

/-- Tests what an extractor hands out; its fault counts only once all items have passed. -/
def allExtracted (test : Value → Traced Value) (extraction : Extraction) : Traced Bool := do
  if ← allTruthy test extraction.items then
    match extraction.fault? with
    | none => pure true
    | some fault => fail fault
  else pure false

end Traced

end StructuralTypes
