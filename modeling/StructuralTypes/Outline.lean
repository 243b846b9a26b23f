import StructuralTypes.Fault

/-!
# Outlines

A picture of how a type is put together: one line for each node of the tree, indented by depth,
with the kind and the names of the node.
-/

namespace StructuralTypes

namespace Ty

/-- The line of one node, without indentation: its kind, its name, its canonical name if that is
another one, and a note. -/
def caption (t : Ty) (note : String) : Attempt String := do
  let name ← t.name
  let canonical ← t.canonicalName
  let kind ← t.kind
  return kind ++ ": " ++ name ++ (if name ≠ canonical then " = " ++ canonical else "") ++ note

def extractorNote (extractor : Fn) : String := " by " ++ extractor.name?.getD "?"

def indentation (indent : String) (depth : Nat) : String := String.join (List.replicate depth indent)

mutual

/-- The lines of a tree at some depth: a node before its parts, the parts in order. -/
def outlineLines (indent : String) : Nat → Ty → Attempt (List String)
  | _, .bare _ => .error (.undrawable "Type")
  | depth, .any label => do
    return [indentation indent depth ++ (← (Ty.any label).caption "")]
  | depth, .predicate label pred => do
    return [indentation indent depth ++ (← (Ty.predicate label pred).caption "")]
  | depth, .compound label op operands => do
    let line ← (Ty.compound label op operands).caption ""
    return (indentation indent depth ++ line) :: (← operandLines indent (depth + 1) operands)
  | depth, .without label left right => do
    let line ← (Ty.without label left right).caption ""
    let leftLines ← outlineLines indent (depth + 1) left
    let rightLines ← outlineLines indent (depth + 1) right
    return (indentation indent depth ++ line) :: leftLines ++ rightLines
  | depth, .unary label outer extractor inner => do
    let line ← (Ty.unary label outer extractor inner).caption (extractorNote extractor)
    let outerLines ← outlineLines indent (depth + 1) outer
    let innerLines ← outlineLines indent (depth + 1) inner
    return (indentation indent depth ++ line) :: outerLines ++ innerLines

def operandLines (indent : String) : Nat → List Ty → Attempt (List String)
  | _, [] => .ok []
  | depth, t :: ts => do
    let lines ← outlineLines indent depth t
    return lines ++ (← operandLines indent depth ts)

end

def outline (indent : String) (t : Ty) : Attempt String := do
  return "\n".intercalate (← t.outlineLines indent 0)

/-- The indentation used unless another one is asked for. -/
def defaultIndent : String := "  "

end Ty

def Referent.outline (indent : String) : Referent → Attempt String
  | .type t => t.outline indent
  | .plain _ v => .error (.undrawable v.className)

end StructuralTypes
