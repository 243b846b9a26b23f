/-!
# Strongly connected components

The components of a finite graph on the numbers below `n`, each one listed once all components
that it leads to are listed.
-/

namespace StructuralTypes.Components

/-- The state of a depth-first walk: the place each node had on the stack when it was met, the
stack with its top in front, and the components that are complete. -/
structure Walk where
  place : List (Nat × Nat)
  stack : List Nat
  complete : List (List Nat)

namespace Walk

def push (w : Walk) (q : Nat) : Walk :=
  { w with place := (q, w.stack.length) :: w.place, stack := q :: w.stack }

/-- Cuts the stack down to its lowest `height` nodes and lists the others, lowest first, as a
component. -/
def cut (w : Walk) (height : Nat) : Walk :=
  let count := w.stack.length - height
  { w with
    stack := w.stack.drop count
    complete := w.complete ++ [(w.stack.take count).reverse] }

end Walk

/-- Visits a node that has not been met and gives the lowest place on the stack that it leads back
to. -/
def connect (successors : Nat → List Nat) : Nat → Nat → Walk → Nat × Walk
  | 0, _, w => (w.stack.length, w)
  | depth + 1, q, w =>
    let height := w.stack.length
    let (low, w) := (successors q).foldl (fun (low, w) r =>
      match w.place.lookup r with
      | none =>
        let (low', w) := connect successors depth r w
        (min low low', w)
      | some place => (if w.stack.contains r then min low place else low, w)) (height, w.push q)
    (low, if low = height then w.cut height else w)

/-- The components of the graph with nodes `0, …, n - 1`. -/
def components (n : Nat) (successors : Nat → List Nat) : List (List Nat) :=
  let walk := (List.range n).foldl (fun w q =>
    match w.place.lookup q with
    | none => (connect successors n q w).2
    | some _ => w) (⟨[], [], []⟩ : Walk)
  walk.complete

end StructuralTypes.Components
