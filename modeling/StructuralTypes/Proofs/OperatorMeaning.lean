import StructuralTypes.Proofs.EdgeTruth
import StructuralTypes.Proofs.Interchange

/-!
# What operators mean

Operators dissolve operands and sort what is left. Where no test fails, that changes nothing about members: an
intersection has what both sides have, a union what one of them has, and a difference what both sides admit.
Exclusions are another matter. An exclusion that is taken away is replaced by the union of its sides, so what it
leaves out goes as well.
-/

namespace StructuralTypes

namespace Ty

variable {I : Interpretation} {v : Value} {t u : Ty}

/-- The test of a type answers, with something that counts as true exactly if `P` holds. -/
def Decides (I : Interpretation) (t : Ty) (v : Value) (P : Prop) : Prop :=
  ∃ a, (t.has I v).result = .ok a ∧ (a.isTruthy = true ↔ P)

lemma accepts_iff_of_result {a : Value} (ha : (t.has I v).result = .ok a) :
    t.Accepts I v ↔ a.isTruthy = true := by
  constructor
  · rintro ⟨b, hb, htrue⟩
    obtain rfl := Except.ok.inj (ha.symm.trans hb)
    exact htrue
  · exact fun htrue => ⟨a, ha, htrue⟩

lemma decides_iff {P : Prop} :
    t.Decides I v P ↔ (∃ a, (t.has I v).result = .ok a) ∧ (t.Accepts I v ↔ P) := by
  constructor
  · rintro ⟨a, ha, hiff⟩
    exact ⟨⟨a, ha⟩, (accepts_iff_of_result ha).trans hiff⟩
  · rintro ⟨⟨a, ha⟩, hiff⟩
    exact ⟨a, ha, (accepts_iff_of_result ha).symm.trans hiff⟩

namespace Total

lemma rejects_iff (h : t.Total I) : t.Rejects I v ↔ ¬t.Accepts I v :=
  ⟨fun hrejects haccepts => haccepts.not_fails hrejects, (h.accepts_or_rejects v).resolve_left⟩

lemma decides (h : t.Total I) {P : Prop} (hP : t.Accepts I v ↔ P) : t.Decides I v P :=
  decides_iff.mpr ⟨h.has_answers v, hP⟩

lemma parts (h : t.Total I) : ∀ p ∈ t.parts, p.Total I := by
  intro p hp
  cases h with
  | any | predicate => cases hp
  | compound _ _ hts => exact hts p hp
  | without _ hl hr | unary _ _ hl hr =>
    rcases List.mem_pair.mp hp with rfl | rfl
    · exact hl
    · exact hr

lemma contribution (h : t.Total I) (op : Operator) : ∀ u ∈ t.contribution op, u.Total I := by
  intro u hu
  rcases contribution_parts hu with rfl | hu
  · exact h
  · exact h.parts u hu

lemma setLabel (h : t.Total I) (label : Label) : (t.setLabel label).Total I := by
  cases h with
  | any => exact .any label
  | predicate _ hpred => exact .predicate label hpred
  | compound _ op hts => exact .compound label op hts
  | without _ hl hr => exact .without label hl hr
  | unary _ hextractor ho hi => exact .unary label hextractor ho hi

end Total

lemma has_setLabel (t : Ty) (label : Label) : (t.setLabel label).has I v = t.has I v := by
  cases t with
  | compound _ op _ => cases op <;> simp only [setLabel, has]
  | _ => simp only [setLabel, has]

/-- Whether an operand of a difference lets a value pass: a difference has to accept it, any other type to
reject it. -/
def Admits (I : Interpretation) (t : Ty) (v : Value) : Prop :=
  if t.isMadeBy .difference then t.Accepts I v else t.Rejects I v

/-- What a type contributes to a difference decides what it admits there. -/
lemma admits_iff : t.Admits I v ↔ ∀ u ∈ t.contribution .difference, u.Rejects I v := by
  cases t with
  | compound label op us =>
    cases op with
    | intersection => simp [Admits, isMadeBy, contribution, absorbed?, Operator.absorbs]
    | union => simp [Admits, isMadeBy, contribution, absorbed?, Operator.absorbs, rejects_union_iff]
    | difference => simp [Admits, isMadeBy, contribution, absorbed?, Operator.absorbs, accepts_difference_iff]
  | _ => simp [Admits, isMadeBy, contribution, absorbed?]

/-- What a type contributes to a union decides what it rejects. -/
lemma rejects_contribution_iff : t.Rejects I v ↔ ∀ u ∈ t.contribution .union, u.Rejects I v := by
  cases t with
  | compound label op us =>
    cases op with
    | union => exact rejects_union_iff
    | _ => simp [contribution, absorbed?, Operator.absorbs]
  | _ => simp [contribution, absorbed?]

lemma SameOrigin.has_eq (h : t.SameOrigin u) : u.has I v = t.has I v := by
  rw [← h.relabelled, has_setLabel]

lemma SameOrigin.admits_iff (h : t.SameOrigin u) : u.Admits I v ↔ t.Admits I v := by
  unfold Admits Accepts Rejects
  rw [h.isMadeBy, h.has_eq]

end Ty

/-- What the result of an operator has, by what its two operands have. -/
def Operator.Joins (I : Interpretation) (v : Value) (left right : Ty) : Operator → Prop
  | .intersection => left.Accepts I v ∧ right.Accepts I v
  | .union => left.Accepts I v ∨ right.Accepts I v
  | .difference => left.Admits I v ∧ right.Admits I v

section Merging

variable {I : Interpretation} {v : Value} {op : Operator} {left right t : Ty}

lemma Merges.total (h : Merges op left right t) (hl : left.Total I) (hr : right.Total I) : t.Total I := by
  obtain ⟨label, ts, rfl, hiff⟩ := h.operands
  exact .compound label op ((hiff _).mpr ⟨hl.contribution op, hr.contribution op⟩)

lemma Merges.accepts_both_iff (h : Merges .intersection left right t) :
    t.Accepts I v ↔ left.Accepts I v ∧ right.Accepts I v := by
  obtain ⟨label, ts, rfl, hiff⟩ := h.operands
  rw [Ty.accepts_intersection_iff, hiff]
  exact and_congr Ty.accepts_contribution_iff.symm Ty.accepts_contribution_iff.symm

lemma Merges.rejects_iff (h : Merges .union left right t) :
    t.Rejects I v ↔ left.Rejects I v ∧ right.Rejects I v := by
  obtain ⟨label, ts, rfl, hiff⟩ := h.operands
  rw [Ty.rejects_union_iff, hiff]
  exact and_congr Ty.rejects_contribution_iff.symm Ty.rejects_contribution_iff.symm

lemma Merges.accepts_iff (h : Merges op left right t) (hl : left.Total I) (hr : right.Total I) :
    t.Accepts I v ↔ op.Joins I v left right := by
  cases op with
  | intersection => exact h.accepts_both_iff
  | union =>
    have hrejects := h.rejects_iff (I := I) (v := v)
    rw [(h.total hl hr).rejects_iff, hl.rejects_iff, hr.rejects_iff, ← not_or, not_iff_not] at hrejects
    exact hrejects
  | difference =>
    obtain ⟨label, ts, rfl, hiff⟩ := h.operands
    rw [Ty.accepts_difference_iff, hiff]
    exact and_congr Ty.admits_iff.symm Ty.admits_iff.symm

end Merging

/-- The type admits what all leaves admit, and it is a difference unless there is just one leaf. -/
structure AdmitsAsLeaves (leaves : List Ty) (t : Ty) : Prop where
  admits_iff : ∀ I v, t.Admits I v ↔ ∀ k ∈ leaves, k.Admits I v
  total : ∀ I, (∀ k ∈ leaves, k.Total I) → t.Total I
  made : leaves.length ≠ 1 → t.isMadeBy .difference = true

section Trees

variable {terms : Terms} {l : Lattice} {ns : List Ty} {t u w : Ty} {leaves leaves' : List Ty}

lemma AdmitsAsLeaves.copy (h : AdmitsAsLeaves leaves t) (horigin : t.SameOrigin u) : AdmitsAsLeaves leaves u := by
  refine ⟨fun I v => horigin.admits_iff.trans (h.admits_iff I v), fun I hleaves => ?_, fun hlen => ?_⟩
  · rw [← horigin.relabelled]
    exact (h.total I hleaves).setLabel _
  · rw [horigin.isMadeBy]
    exact h.made hlen

lemma AdmitsAsLeaves.join (h : AdmitsAsLeaves leaves t) (h' : AdmitsAsLeaves leaves' u)
    (hw : Merges .difference t u w) : AdmitsAsLeaves (leaves ++ leaves') w := by
  have htotal : ∀ I, (∀ k ∈ leaves ++ leaves', k.Total I) → w.Total I := by
    intro I hleaves
    obtain ⟨hleft, hright⟩ := List.forall_mem_append.mp hleaves
    exact hw.total (h.total I hleft) (h'.total I hright)
  obtain ⟨label, ts, rfl, hiff⟩ := hw.operands
  refine ⟨fun I v => ?_, htotal, fun _ => by simp [Ty.isMadeBy]⟩
  calc (Ty.compound label .difference ts).Admits I v
    _ ↔ ∀ k ∈ ts, k.Rejects I v := by rw [Ty.admits_iff, contribution_compound]
    _ ↔ t.Admits I v ∧ u.Admits I v := by rw [hiff, ← Ty.admits_iff, ← Ty.admits_iff]
    _ ↔ ∀ k ∈ leaves ++ leaves', k.Admits I v := by
      rw [h.admits_iff, h'.admits_iff, List.forall_mem_append]

/-- However differences are nested, they have what all their leaves admit. -/
lemma yields_differences (h : WellFormed terms l ns) (hop : terms.differences) {a : Joining}
    (hleaves : a.leaves ⊆ ns) :
    Yields terms l ns (a.build .difference) fun _ ns' x => x ∈ ns' ∧ AdmitsAsLeaves a.leaves x := by
  induction a generalizing l ns with
  | leaf t =>
    refine Yields.pure h ⟨hleaves (List.mem_singleton_self t), ?_⟩
    exact ⟨by simp [Joining.leaves], by simp [Joining.leaves], by simp [Joining.leaves]⟩
  | copy copying of ih =>
    refine (ih h hleaves).bind ?_
    rintro x l' ns' h' - - ⟨hx, hadmits⟩
    exact (copies_apply h' copying hx).mono fun _ _ _ _ hu => ⟨hu.1, hadmits.copy hu.2⟩
  | join left right ihl ihr =>
    obtain ⟨hleft, hright⟩ := List.append_subset.mp hleaves
    refine (ihl h hleft).bind ?_
    rintro x l' ns' h' hns - ⟨hx, hadmits⟩
    refine (ihr h' fun k hk => hns (hright hk)).bind ?_
    rintro y l'' ns'' h'' hns' - ⟨hy, hadmits'⟩
    refine (yields_compound h'' (fun _ => hop) (hns' hx) hy).mono ?_
    rintro _ _ w - ⟨hw, hmerges, -⟩
    exact ⟨hw, hadmits.join hadmits' hmerges⟩

/-- What a computation comes to, stated apart from the lattice it leads to. -/
lemma Yields.outcome {α : Type} {x : Build α} {Q : Lattice → List Ty → α → Prop} (h : Yields terms l ns x Q)
    {R : α → Prop} (hR : ∀ l' ns' a, Q l' ns' a → R a) :
    (terms.documented → ∃ a, (x l).1 = .ok a) ∧ ∀ a, (x l).1 = .ok a → R a := by
  obtain ⟨ns', -, -, -, hanswers, hQ⟩ := h
  exact ⟨hanswers, fun a ha => hR _ _ a (hQ a ha)⟩

end Trees

/-- Flattening and sorting keep the meaning of operators: for operands whose functions never fail, an
intersection has what both of them have, a union what one of them has, and a difference what both admit. So
differences over leaves that are none, nested in whatever way and with whatever copies taken on the way, have
exactly what every leaf rejects. -/
theorem Made.operators_keep_meaning {documented : Prop} {l : Lattice} {ts : List Ty}
    (h : Made { documented, differences := True } l ts) (I : Interpretation) :
    (∀ op, ∀ left ∈ ts, ∀ right ∈ ts, left.Total I → right.Total I →
      (documented → ∃ t, (Build.compound op (.type left) (.type right) l).1 = .ok t) ∧
      ∀ t, (Build.compound op (.type left) (.type right) l).1 = .ok t →
        ∀ v, t.Decides I v (op.Joins I v left right)) ∧
    ∀ a : Joining, 2 ≤ a.leaves.length →
      (∀ k ∈ a.leaves, k ∈ ts ∧ k.Total I ∧ k.isMadeBy .difference = false) →
      (documented → ∃ t, (a.build .difference l).1 = .ok t) ∧
      ∀ t, (a.build .difference l).1 = .ok t → ∀ v, t.Decides I v (∀ k ∈ a.leaves, k.Rejects I v) := by
  obtain ⟨ns, hpop, hns⟩ := h.wellFormed
  constructor
  · intro op left hleft right hright hltotal hrtotal
    apply (yields_compound hpop (fun _ => trivial) (hns hleft) (hns hright)).outcome
    rintro _ _ t ⟨-, hmerges, -⟩ v
    exact (hmerges.total hltotal hrtotal).decides (hmerges.accepts_iff hltotal hrtotal)
  · intro a hlen hleaves
    apply (yields_differences hpop trivial fun k hk => hns (hleaves k hk).1).outcome
    rintro _ _ t ⟨-, hadmits⟩ v
    apply (hadmits.total I fun k hk => (hleaves k hk).2.1).decides
    have haccepts : t.Accepts I v ↔ t.Admits I v := by rw [Ty.Admits, if_pos (hadmits.made (by omega))]
    rw [haccepts, hadmits.admits_iff]
    refine forall₂_congr fun k hk => ?_
    rw [Ty.Admits, (hleaves k hk).2.2, if_neg Bool.false_ne_true]

/-- One test passes and the others fail, and extractors hand out nothing. -/
def soleInterpretation (name : String) : Interpretation :=
  ⟨fun f _ => .ok (.boolean (f = .named name)), fun _ _ => ⟨[], none⟩⟩

lemma soleInterpretation_total (name : String) : (soleInterpretation name).Total :=
  ⟨fun _ _ => ⟨_, rfl⟩, fun _ _ => rfl⟩

lemma Made.total {terms : Terms} {l : Lattice} {ts : List Ty} (h : Made terms l ts) {I : Interpretation}
    (hI : I.Total) {t : Ty} (ht : t ∈ ts) : t.Total I := by
  obtain ⟨ns, hpop, hns⟩ := h.wellFormed
  exact (hpop.sound t (hns ht)).regular.total hI

/-- Minus one, which is neither even nor positive, is admitted by the difference and by the union of both tests. So
it is a member of their difference, and of a difference over copies of the union and of what two more leaves have
in common. -/
theorem Made.operators_keep_meaning_numbers :
    let I := soleInterpretation "odd"
    let a : Joining := .join (.copy (.withAlias "either") (.leaf (numberType 1)))
      (.copy (.withAlias "none") (.join (.leaf (numberType 4)) (.leaf (numberType 2))))
    Made { documented := True, differences := True } numberLattice numberTypes ∧
      (∀ t ∈ numberTypes, t.Total I) ∧
      (∃ t, (Build.compound .difference (.type (numberType 0)) (.type (numberType 1)) numberLattice).1 = .ok t ∧
        t.Accepts I (.integer (-1))) ∧
      ∃ t, (a.build .difference numberLattice).1 = .ok t ∧ t.Accepts I (.integer (-1)) := by
  intro I a
  have hmade : Made { documented := True, differences := True } numberLattice numberTypes :=
    numberLattice_made trivial
  have htotal : ∀ t ∈ numberTypes, t.Total I := fun t ht => hmade.total (soleInterpretation_total "odd") ht
  have hneither : numberType 0 ∈ numberTypes := by simp [numberTypes, numberType]
  have heither : numberType 1 ∈ numberTypes := by simp [numberTypes, numberType]
  have hleaves : ∀ k ∈ a.leaves, k ∈ numberTypes ∧ k.Total I ∧ k.isMadeBy .difference = false := by
    intro k hk
    have hmem : k ∈ numberTypes := by
      revert k
      simp [a, Joining.leaves, numberTypes, numberType]
    refine ⟨hmem, htotal k hmem, ?_⟩
    revert k
    simp [a, Joining.leaves, numberTypes, numberType, Ty.isMadeBy]
  have hrejects : ∀ k ∈ a.leaves, k.Rejects I (.integer (-1)) := by
    simp only [a, Joining.leaves, List.forall_mem_append, List.forall_mem_singleton]
    exact ⟨⟨.boolean false, rfl, rfl⟩, ⟨.boolean false, rfl, rfl⟩, .boolean false, rfl, rfl⟩
  obtain ⟨hoperators, htrees⟩ := hmade.operators_keep_meaning I
  obtain ⟨hanswers, hdecides⟩ := hoperators .difference _ hneither _ heither (htotal _ hneither) (htotal _ heither)
  obtain ⟨t, ht⟩ := hanswers trivial
  obtain ⟨hanswers', hdecides'⟩ := htrees a (by decide) hleaves
  obtain ⟨u, hu⟩ := hanswers' trivial
  refine ⟨hmade, htotal, ⟨t, ht, ?_⟩, u, hu, ?_⟩
  · exact (Ty.decides_iff.mp (hdecides t ht _)).2.mpr ⟨⟨.boolean true, rfl, rfl⟩, .boolean false, rfl, rfl⟩
  · exact (Ty.decides_iff.mp (hdecides' u hu _)).2.mpr hrejects

section Exclusions

variable {I : Interpretation} {v : Value} {left right taken : Ty}

lemma Traced.negation_passes_iff {x : Traced Value} :
    (do return .boolean !(← x).isTruthy : Traced Value).Passes ↔ x.Fails := by
  constructor
  · rintro ⟨b, hb, htrue⟩
    obtain ⟨a, ha, h⟩ := bind_result_iff.mp hb
    obtain rfl := pure_result_iff.mp h
    exact ⟨a, ha, by simpa [Value.isTruthy] using htrue⟩
  · rintro ⟨a, ha, hfalse⟩
    refine ⟨.boolean true, bind_result_iff.mpr ⟨a, ha, ?_⟩, rfl⟩
    rw [hfalse]
    rfl

lemma Ty.accepts_without_iff {label : Label} :
    (without label left right).Accepts I v ↔ left.Accepts I v ∧ right.Rejects I v := by
  rw [Accepts, has]
  exact Traced.passes_and_iff.trans (and_congr_right fun _ => Traced.negation_passes_iff)

/-- What goes when a type is taken away: of an exclusion both sides. -/
def Ty.sides : Ty → List Ty
  | .without _ left right => [left, right]
  | t => [t]

lemma Excludes.total (h : Excludes right taken) (hr : right.Total I) : taken.Total I := by
  cases right with
  | without label a b =>
    exact Merges.total h (hr.parts a List.mem_cons_self) (hr.parts b (List.mem_cons_of_mem a List.mem_cons_self))
  | _ =>
    obtain rfl : taken = _ := h
    exact hr

lemma Excludes.rejects_iff (h : Excludes right taken) :
    taken.Rejects I v ↔ ∀ u ∈ right.sides, u.Rejects I v := by
  cases right with
  | without label a b => simpa [Ty.sides] using Merges.rejects_iff h
  | _ =>
    obtain rfl : taken = _ := h
    simp [Ty.sides]

end Exclusions

/-- An exclusion has what its left operand has and what none of the sides of the right one has. That is what the
left operand has and the right one has not, except for values that a right operand leaves out while both the left
one and what it leaves out have them. -/
theorem Made.without_decides_iff {documented : Prop} {l : Lattice} {ts : List Ty}
    (h : Made { documented, differences := True } l ts) {left right : Ty} (hl : left ∈ ts) (hr : right ∈ ts)
    {I : Interpretation} (hleft : left.Total I) (hright : right.Total I) :
    (documented → ∃ t, (Build.without (.type left) (.type right) l).1 = .ok t) ∧
    ∀ t, (Build.without (.type left) (.type right) l).1 = .ok t → ∀ v,
      t.Decides I v (left.Accepts I v ∧ ∀ u ∈ right.sides, u.Rejects I v) ∧
      (t.Decides I v (left.Accepts I v ∧ right.Rejects I v) ↔
        ¬∃ label a b, right = .without label a b ∧ left.Accepts I v ∧ b.Accepts I v) := by
  obtain ⟨ns, hpop, hns⟩ := h.wellFormed
  apply (makes_without hpop (hns hl) (hns hr)).outcome
  rintro _ _ _ ⟨-, label, taken, rfl, hexcludes⟩ v
  have htotal : (Ty.without label left taken).Total I := .without label hleft (hexcludes.total hright)
  have haccepts : (Ty.without label left taken).Accepts I v ↔
      left.Accepts I v ∧ ∀ u ∈ right.sides, u.Rejects I v := by
    rw [Ty.accepts_without_iff, hexcludes.rejects_iff]
  refine ⟨htotal.decides haccepts, ?_⟩
  rw [Ty.decides_iff, and_iff_right (htotal.has_answers v), haccepts]
  cases right with
  | without label' a b =>
    have ha : a.Total I := hright.parts a List.mem_cons_self
    have hb : b.Total I := hright.parts b (List.mem_cons_of_mem a List.mem_cons_self)
    have hinner : (Ty.without label' a b).Rejects I v ↔ ¬(a.Accepts I v ∧ ¬b.Accepts I v) := by
      rw [hright.rejects_iff, Ty.accepts_without_iff, hb.rejects_iff]
    have hlost : (∃ label'' a' b', Ty.without label' a b = .without label'' a' b' ∧ left.Accepts I v ∧
        b'.Accepts I v) ↔ left.Accepts I v ∧ b.Accepts I v := by
      constructor
      · rintro ⟨_, _, _, ⟨⟩, hlost⟩
        exact hlost
      · exact fun hlost => ⟨label', a, b, rfl, hlost⟩
    have hsides : (∀ u ∈ (Ty.without label' a b).sides, u.Rejects I v) ↔ ¬a.Accepts I v ∧ ¬b.Accepts I v := by
      rw [← ha.rejects_iff, ← hb.rejects_iff]
      simp [Ty.sides]
    rw [hlost, hinner, hsides]
    by_cases hout : b.Accepts I v <;> simp [hout]
  | _ => simp [Ty.sides]

/-- An even number that is not positive is left over when the positive numbers but for the even ones are taken away
from the even ones. -/
theorem Made.without_decides_iff_numbers :
    let I := soleInterpretation "even"
    let inner := Build.without (.type (numberType 3)) (.type (numberType 2)) numberLattice
    ∃ ts right t, Made { documented := True, differences := True } inner.2 ts ∧ numberType 4 ∈ ts ∧ right ∈ ts ∧
      inner.1 = .ok right ∧ (Build.without (.type (numberType 4)) (.type right) inner.2).1 = .ok t ∧
      (numberType 4).Accepts I (.integer (-4)) ∧ right.Rejects I (.integer (-4)) ∧ t.Accepts I (.integer (-4)) := by
  intro I inner
  have hmade : Made { documented := True, differences := True } numberLattice numberTypes :=
    numberLattice_made trivial
  have hpositive : (Refiner.without (numberType 3)).Allowed ⟨True, True⟩ numberTypes := by
    simp [Refiner.Allowed, numberTypes, numberType]
  obtain ⟨ts, hmade', hts, hmem⟩ := hmade.preservesMade_apply hpositive (t := numberType 2)
    (by simp [numberTypes, numberType])
  have heven : numberType 4 ∈ ts := hts (by simp [numberTypes, numberType])
  obtain ⟨label, hinner⟩ : ∃ label, inner.1 = .ok (.without label (numberType 3) (numberType 2)) := ⟨_, rfl⟩
  have hright := hmem _ hinner
  have hI : I.Total := soleInterpretation_total "even"
  obtain ⟨hanswers, hdecides⟩ := hmade'.without_decides_iff heven hright (hmade'.total hI heven)
    (hmade'.total hI hright)
  obtain ⟨t, ht⟩ := hanswers trivial
  have haccepts : (numberType 4).Accepts I (.integer (-4)) := ⟨.boolean true, rfl, rfl⟩
  have hrejects : (Ty.without label (numberType 3) (numberType 2)).Rejects I (.integer (-4)) :=
    ⟨.boolean false, rfl, rfl⟩
  refine ⟨ts, _, t, hmade', heven, hright, hinner, ht, haccepts, hrejects, ?_⟩
  refine (Ty.decides_iff.mp ((hdecides t ht _).2.mpr ?_)).2.mpr ⟨haccepts, hrejects⟩
  rintro ⟨_, _, _, ⟨⟩, -, hboth⟩
  exact hboth.not_fails ⟨.boolean false, rfl, rfl⟩

/-- A number that is even and positive is left out of the even numbers that are not positive. Taking these away from
the even numbers takes it away nonetheless. -/
theorem excluded_exclusion_lost :
    let I := constantInterpretation true
    Made { documented := True, differences := True } numberLattice numberTypes ∧ I.Total ∧
      ∃ inner outer, ((do
        let inner ← Build.without (.type (numberType 4)) (.type (numberType 3))
        let outer ← Build.without (.type (numberType 4)) (.type inner)
        return (inner, outer)) numberLattice).1 = .ok (inner, outer) ∧
      (numberType 4).Accepts I (.integer 4) ∧ inner.Rejects I (.integer 4) ∧ outer.Rejects I (.integer 4) :=
  ⟨numberLattice_made trivial, constantInterpretation_total true, _, _, rfl, ⟨.boolean true, rfl, rfl⟩,
    ⟨.boolean false, rfl, rfl⟩, .boolean false, rfl, rfl⟩

end StructuralTypes
