import StructuralTypes.Prelude
import StructuralTypes.Proofs.WellFormedLattices

/-!
# What constructors add

A constructor takes serial numbers and adds nodes, also where it fails. It changes nothing else: the edges
of the nodes that were there before stay as they are.
-/

namespace StructuralTypes

/-- Nodes were added and serial numbers were taken. -/
structure Lattice.Extended (l l' : Lattice) : Prop where
  size_le : l.entries.size ≤ l'.entries.size
  serial_le : l.nextSerial ≤ l'.nextSerial
  entry_eq : ∀ i < l.entries.size, l'.entries[i]? = l.entries[i]?

namespace Lattice.Extended

variable {l l₁ l₂ : Lattice}

lemma refl (l : Lattice) : l.Extended l := ⟨le_rfl, le_rfl, fun _ _ => rfl⟩

lemma trans (h : l.Extended l₁) (h' : l₁.Extended l₂) : l.Extended l₂ := by
  refine ⟨h.size_le.trans h'.size_le, h.serial_le.trans h'.serial_le, fun i hi => ?_⟩
  rw [h'.entry_eq i (Nat.lt_of_lt_of_le hi h.size_le), h.entry_eq i hi]

end Lattice.Extended

/-- Whether it fails or not, a computation only adds to the lattice. -/
def Extending {α : Type} (x : Build α) : Prop := ∀ l : Lattice, l.Extended (x l).2

namespace Extending

variable {α β : Type}

lemma attempt (a : Attempt α) : Extending (Build.ofAttempt a) := fun l => .refl l

lemma pure (a : α) : Extending (Pure.pure a) := fun l => .refl l

lemma get : Extending (MonadState.get : Build Lattice) := fun l => .refl l

lemma bind {x : Build α} {f : α → Build β} (hx : Extending x) (hf : ∀ a, Extending (f a)) :
    Extending (x >>= f) := by
  intro l
  have hl := hx l
  rcases hrun : x l with ⟨fault | a, l₁⟩ <;> rw [hrun] at hl
  · rw [bind_of_error hrun]
    exact hl
  · rw [bind_of_ok hrun]
    exact hl.trans (hf a l₁)

lemma foldlM {f : β → α → Build β} {as : List α} (hf : ∀ b, ∀ a ∈ as, Extending (f b a)) (b : β) :
    Extending (as.foldlM f b) := by
  induction as generalizing b with
  | nil => exact pure b
  | cons a as ih =>
    rw [List.foldlM_cons]
    exact (hf b a List.mem_cons_self).bind fun c => ih (fun d e he => hf d e (List.mem_cons_of_mem a he)) c

lemma takeSerial : Extending Build.takeSerial := fun _ => ⟨le_rfl, Nat.le_succ _, fun _ _ => rfl⟩

lemma register (e : Edges) : Extending (Build.register e) := by
  intro l
  refine ⟨?_, le_rfl, fun i hi => ?_⟩
  · rw [show (Build.register e l).2.entries = l.entries.push e from rfl, Array.size_push]
    exact Nat.le_succ _
  · rw [show (Build.register e l).2.entries = l.entries.push e from rfl, Array.getElem?_push,
      if_neg (Nat.ne_of_lt hi)]

end Extending

section Constructors

open Extending

lemma extending_predicate (pred : Fn) (name? : Option String) : Extending (Build.predicate pred name?) :=
  takeSerial.bind fun _ => (register _).bind fun _ => pure _

lemma extending_any : Extending Build.any :=
  takeSerial.bind fun _ => (register _).bind fun _ => pure _

lemma extending_bare : Extending Build.bare :=
  takeSerial.bind fun _ => (register _).bind fun _ => pure _

lemma extending_compound (op : Operator) (left right : Referent) : Extending (Build.compound op left right) := by
  apply takeSerial.bind
  intro serial
  apply (attempt _).bind
  intro ranked
  apply (attempt _).bind
  intro docs
  apply get.bind
  intro l
  apply (attempt _).bind
  intro edges
  exact (register edges).bind fun _ => pure _

lemma extending_excluded (right : Referent) : Extending (Build.excluded right) := by
  unfold Build.excluded
  split
  · exact (extending_compound _ _ _).bind fun _ => pure _
  · exact pure _

lemma extending_without (left right : Referent) : Extending (Build.without left right) := by
  apply takeSerial.bind
  intro serial
  apply (extending_excluded right).bind
  intro right
  apply (attempt _).bind
  intro leftType
  apply (attempt _).bind
  intro leftName
  apply (attempt _).bind
  intro rightType
  apply (attempt _).bind
  intro rightName
  apply (attempt _).bind
  intro leftDoc
  apply (attempt _).bind
  intro rightDoc
  exact (register _).bind fun _ => pure _

lemma extending_container (outer : Referent) (extractor : Fn) (inner : Referent) :
    Extending (Build.container outer extractor inner) := by
  apply takeSerial.bind
  intro serial
  apply (attempt _).bind
  intro outerType
  apply (attempt _).bind
  intro outerName
  apply (attempt _).bind
  intro innerType
  apply (attempt _).bind
  intro innerName
  apply (attempt _).bind
  intro outerDoc
  apply (attempt _).bind
  intro innerDoc
  exact (register _).bind fun _ => pure _

lemma extending_relabel (t : Ty) (names? docs? : Option (List String)) :
    Extending (Build.relabel t names? docs?) :=
  get.bind fun _ => (register _).bind fun _ => pure _

lemma extending_suchThat (pred : Fn) (parent : Referent) : Extending (Build.suchThat pred parent) :=
  (extending_predicate pred none).bind fun _ => extending_compound _ _ parent

lemma extending_withAlias (name : String) (parent : Referent) : Extending (Build.withAlias name parent) := by
  apply (attempt _).bind
  intro t
  apply (attempt _).bind
  intro names
  exact extending_relabel t _ _

lemma extending_withoutAlias (parent : Referent) : Extending (Build.withoutAlias parent) := by
  apply (attempt _).bind
  intro t
  apply (attempt _).bind
  intro names
  split
  · exact pure t
  · exact extending_relabel t _ _

lemma extending_withMetadata (names? docs? : Option (List String)) (parent : Referent) :
    Extending (Build.withMetadata names? docs? parent) := by
  apply (attempt _).bind
  intro t
  exact extending_relabel t names? docs?

lemma extending_compose (name : String) (base : Referent) {steps : List (Referent → Build Ty)}
    (hsteps : ∀ f ∈ steps, ∀ r, Extending (f r)) : Extending (Build.compose name base steps) := by
  apply (foldlM (fun r f hf => (hsteps f hf r).bind fun _ => pure _) base).bind
  intro refined
  exact extending_withAlias name refined

end Constructors

end StructuralTypes
