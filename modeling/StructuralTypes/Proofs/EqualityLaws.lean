import StructuralTypes.Proofs.Construction
import StructuralTypes.Proofs.StructuralEquality

/-!
# Laws of equality

Between types that are made from tests and the type of all values, structural equality is an
equivalence, and equal types cannot be told apart by asking for members. The lattice plays no part in
this: a constructor may fail because of what it finds there, but the tree that it makes does not depend
on any edge. So the laws also hold of types that were made after edges had been overwritten.
-/

namespace StructuralTypes

section Ensuring

variable {α β : Type} {x : Build α} {f : α → Build β} {Q : α → Prop} {R : β → Prop}

/-- Where a computation succeeds, in whatever lattice, its result satisfies `Q`. -/
def Ensures (x : Build α) (Q : α → Prop) : Prop := ∀ l a, (x l).1 = .ok a → Q a

namespace Ensures

lemma pure {a : α} (h : Q a) : Ensures (Pure.pure a : Build α) Q := by
  intro l b hb
  obtain rfl : a = b := Except.ok.inj hb
  exact h

lemma bind (hx : Ensures x Q) (hf : ∀ a, Q a → Ensures (f a) R) : Ensures (x >>= f) R := by
  intro l b hb
  obtain ⟨a, l', hrun, hrest⟩ := ok_of_bind hb
  exact hf a (hx l a (by rw [hrun])) l' b hrest

/-- A step whose result does not matter. -/
lemma next (hf : ∀ a, Ensures (f a) R) : Ensures (x >>= f) R :=
  bind (Q := fun _ => True) (fun _ _ _ => trivial) fun a _ => hf a

lemma attempt {attempt : Attempt α} (hf : ∀ a, attempt = .ok a → Ensures (f a) R) :
    Ensures (Build.ofAttempt attempt >>= f) R :=
  bind (fun _ _ ha => ha) hf

end Ensures

end Ensuring

section Trees

variable {operators : Operator → Prop} {left right : Ty}

lemma Ty.Regular.parts {t : Ty} (h : t.Regular operators) : ∀ u ∈ t.parts, u.Regular operators := by
  intro u hu
  cases h with
  | any | predicate => cases hu
  | compound _ _ _ hts => exact hts u hu
  | without _ hl hr | unary _ _ hl hr =>
    simp only [Ty.parts, List.mem_cons, List.not_mem_nil, or_false] at hu
    rcases hu with rfl | rfl
    · exact hl
    · exact hr

lemma Ty.Regular.contribution {t : Ty} (h : t.Regular operators) (op : Operator) :
    ∀ u ∈ t.contribution op, u.Regular operators := by
  intro u hu
  rcases Ty.contribution_parts hu with rfl | hu
  · exact h
  · exact h.parts u hu

lemma ensures_any : Ensures Build.any (Ty.Regular operators) :=
  .next fun _ => .next fun _ => .pure (.any _)

lemma ensures_predicate (pred : Fn) (name? : Option String) :
    Ensures (Build.predicate pred name?) (Ty.Regular operators) :=
  .next fun _ => .next fun _ => .pure (.predicate _ pred)

lemma ensures_compound {op : Operator} (hop : operators op) (hl : left.Regular operators)
    (hr : right.Regular operators) :
    Ensures (Build.compound op (.type left) (.type right)) (Ty.Regular operators) := by
  refine .next fun serial => .attempt fun ranked hranked => .attempt fun docs _ => ?_
  refine .next fun l => .attempt fun edges _ => .next fun id => .pure ?_
  have hperm := mergeOperands_perm hranked
  refine .compound _ hop ?_ fun t ht => ?_
  · intro hnil
    rw [hnil] at hperm
    exact hl.contribution_ne_nil op (List.append_eq_nil_iff.mp hperm.nil_eq.symm).1
  · rcases List.mem_append.mp (hperm.mem_iff.mp ht) with ht | ht
    · exact hl.contribution op t ht
    · exact hr.contribution op t ht

lemma ensures_excluded (hop : operators .union) (hr : right.Regular operators) :
    Ensures (Build.excluded (.type right)) fun r => ∃ t, r = .type t ∧ t.Regular operators := by
  cases hr with
  | without _ ha hb => exact (ensures_compound hop ha hb).bind fun t ht => .pure ⟨t, rfl, ht⟩
  | any => exact .pure ⟨_, rfl, .any _⟩
  | predicate => exact .pure ⟨_, rfl, .predicate _ _⟩
  | compound _ hop' hne hts => exact .pure ⟨_, rfl, .compound _ hop' hne hts⟩
  | unary _ _ ho hi => exact .pure ⟨_, rfl, .unary _ _ ho hi⟩

lemma ensures_without (hop : operators .union) (hl : left.Regular operators)
    (hr : right.Regular operators) :
    Ensures (Build.without (.type left) (.type right)) (Ty.Regular operators) := by
  refine .next fun serial => (ensures_excluded hop hr).bind ?_
  rintro _ ⟨taken, rfl, htaken⟩
  refine .attempt ?_
  rintro _ ⟨⟩
  refine .next fun leftName => .attempt ?_
  rintro _ ⟨⟩
  exact .next fun _ => .next fun _ => .next fun _ => .next fun _ => .pure (.without _ hl htaken)

lemma ensures_container (extractor : Fn) (ho : left.Regular operators) (hi : right.Regular operators) :
    Ensures (Build.container (.type left) extractor (.type right)) (Ty.Regular operators) := by
  refine .next fun serial => .attempt ?_
  rintro _ ⟨⟩
  refine .next fun outerName => .attempt ?_
  rintro _ ⟨⟩
  exact .next fun _ => .next fun _ => .next fun _ => .next fun _ => .pure (.unary _ _ ho hi)

lemma ensures_relabel (names? docs? : Option (List String)) {t : Ty} (ht : t.Regular operators) :
    Ensures (Build.relabel t names? docs?) (Ty.Regular operators) :=
  .next fun _ => .next fun _ => .pure (ht.setLabel _)

lemma ensures_withMetadata (names? docs? : Option (List String)) {t : Ty} (ht : t.Regular operators) :
    Ensures (Build.withMetadata names? docs? (.type t)) (Ty.Regular operators) := by
  refine .attempt ?_
  rintro _ ⟨⟩
  exact ensures_relabel names? docs? ht

/-- Every refiner makes a tree without bare parts of trees without bare parts. -/
lemma ensures_apply (hoperators : ∀ op, operators op) {terms : Terms} {f : Refiner} {others : List Ty}
    (hothers : ∀ u ∈ others, u.Regular operators) (hf : f.Allowed terms others) {t : Ty}
    (ht : t.Regular operators) : Ensures (f.apply (.type t)) (Ty.Regular operators) := by
  cases f with
  | operator op left => exact ensures_compound (hoperators op) (hothers left hf.2) ht
  | without left => exact ensures_without (hoperators .union) (hothers left hf) ht
  | container outer extractor => exact ensures_container extractor (hothers outer hf) ht
  | suchThat pred =>
    exact (ensures_predicate pred none).bind fun guard hguard =>
      ensures_compound (hoperators .intersection) hguard ht
  | withAlias name =>
    refine .attempt ?_
    rintro _ ⟨⟩
    exact .next fun names => ensures_relabel _ _ ht
  | withoutAlias =>
    refine .attempt ?_
    rintro _ ⟨⟩
    refine .next fun names => ?_
    by_cases hone : names.length = 1
    · rw [if_pos hone]
      exact .pure ht
    · rw [if_neg hone]
      exact ensures_relabel _ _ ht
  | withDocs docs => exact ensures_withMetadata _ _ ht

end Trees

/-- A type that a constructor makes, or a change of metadata, with all its operands made likewise. Each
step may be taken in another lattice, with whatever edges. -/
inductive Built : Ty → Prop
  | any (l : Lattice) {t : Ty} : (Build.any l).1 = .ok t → Built t
  | predicate (l : Lattice) (pred : Fn) (name? : Option String) {t : Ty} :
      (Build.predicate pred name? l).1 = .ok t → Built t
  | refine (l : Lattice) (f : Refiner) (others : List Ty) {s t : Ty} : (∀ u ∈ others, Built u) →
      f.Allowed { documented := False, differences := True } others → Built s →
      (f.apply (.type s) l).1 = .ok t → Built t
  | relabel (l : Lattice) (names? docs? : Option (List String)) {s t : Ty} : Built s →
      (Build.withMetadata names? docs? (.type s) l).1 = .ok t → Built t

lemma Built.proper {t : Ty} (h : Built t) : t.Proper := by
  suffices hregular : t.Regular fun _ => True from hregular.proper
  induction h with
  | any l ht => exact ensures_any l _ ht
  | predicate l pred name? ht => exact ensures_predicate pred name? l _ ht
  | refine l f others _ hf _ ht ihothers ih =>
    exact ensures_apply (fun _ => trivial) ihothers hf ih l _ ht
  | relabel l names? docs? _ ht ih => exact ensures_withMetadata names? docs? ih l _ ht

/-- Structural equality always answers. It is an equivalence, equal types test every value alike down to
the calls, and in a lattice with any edges at all a type is found to contain itself. -/
theorem Built.equality_laws {a b : Ty} (ha : Built a) (hb : Built b) :
    (∃ answer, a.equals b = .ok answer ∧ b.equals a = .ok answer) ∧ a.equals a = .ok true ∧
      (∀ c, a.equals b = .ok true → b.equals c = .ok true → a.equals c = .ok true) ∧
      (a.equals b = .ok true → ∀ I v, a.has I v = b.has I v) ∧
      ∀ l, (Build.supersedes (.type a) (.type a) l).1 = .ok true := by
  have hrefl : a.equals a = .ok true := Ty.agrees_refl ha.proper false
  obtain ⟨answer, hanswer⟩ := Ty.equals_answers ha.proper hb.proper
  refine ⟨⟨answer, hanswer, ?_⟩, hrefl, fun c hab hbc => ?_, ?_, supersedes_of_equals hrefl⟩
  · rw [Ty.equals_comm hb.proper ha.proper]
    exact hanswer
  · rw [Ty.equals_iff_same] at hab hbc ⊢
    exact hab.trans hbc
  · exact fun h I v => Ty.has_eq_of_agrees h v

section Loop

/-- The numbers that are even and positive, declared by hand to lie below and above themselves. -/
def loopLattice : Lattice :=
  ⟨#[.empty, .empty, ⟨some [.type (numberType 2)], some [.type (numberType 2)]⟩], 3⟩

/-- Their copy under another name, made in that lattice. -/
def renamedType : Ty :=
  (numberType 2).setLabel ⟨3, 2, some ["both", "(even ∩ positive)"], (numberType 2).label.docs?⟩

lemma numberType_built : Built (numberType 2) ∧ Built renamedType := by
  have heven : Built (numberType 4) := .predicate .empty (.named "even") none rfl
  have hpositive : Built (numberType 3) := .predicate ⟨#[.empty], 1⟩ (.named "positive") none rfl
  have hboth : Built (numberType 2) :=
    .refine ⟨#[.empty, .empty], 2⟩ (.operator .intersection (numberType 4)) [numberType 4]
      (by simpa using heven) ⟨fun _ => trivial, List.mem_singleton_self _⟩ hpositive rfl
  exact ⟨hboth, .refine loopLattice (.withAlias "both") [] (by simp) trivial hboth rfl⟩

theorem Built.equality_laws_loop :
    Built (numberType 2) ∧ Built renamedType ∧ (numberType 2).equals renamedType = .ok true ∧
      (∀ I v, (numberType 2).has I v = renamedType.has I v) ∧
      loopLattice.OnCycle .subsets (numberType 2) ∧
      (Build.supersedes (.type (numberType 2)) (.type (numberType 2)) loopLattice).1 = .ok true := by
  obtain ⟨hboth, hrenamed⟩ := numberType_built
  have hequal : (numberType 2).equals renamedType = .ok true := rfl
  obtain ⟨-, -, -, hhas, hfound⟩ := hboth.equality_laws hrenamed
  exact ⟨hboth, hrenamed, hequal, hhas hequal, .single ⟨_, rfl, List.mem_singleton_self _⟩,
    hfound loopLattice⟩

end Loop

end StructuralTypes
