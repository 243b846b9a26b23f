import StructuralTypes.Proofs.SearchSoundness

/-!
# What edges say about members

Where no test fails, edges to subsets are true: all that a type below accepts, the type accepts. Edges
to supersets are true as long as they do not lead from a difference to one of its operands. A difference
accepts what each operand rejects, so such an operand accepts none of its members. Containers hand this
on from their inner part, and then only values that nothing is extracted from are members of both.
-/

namespace StructuralTypes

/-- No function ever fails. -/
structure Interpretation.Total (I : Interpretation) : Prop where
  tests : ∀ f v, ∃ a, I.test f v = .ok a
  extracts : ∀ f v, (I.extract f v).fault? = none

namespace Traced

variable {α : Type}

lemma allTruthy_answers {test : α → Traced Value} {items : List α}
    (h : ∀ a ∈ items, ∃ b, (test a).result = .ok b) : ∃ b, (allTruthy test items).result = .ok b := by
  induction items with
  | nil => exact ⟨true, rfl⟩
  | cons a items ih =>
    obtain ⟨b, hb⟩ := h a List.mem_cons_self
    obtain ⟨rest, hrest⟩ := ih fun c hc => h c (List.mem_cons_of_mem a hc)
    by_cases htrue : b.isTruthy = true
    · exact ⟨rest, guard_result_iff.mpr (.inl ⟨⟨b, hb, htrue⟩, hrest⟩)⟩
    · exact ⟨false, guard_result_iff.mpr (.inr ⟨⟨b, hb, by simpa using htrue⟩, rfl⟩)⟩

lemma allExtracted_answers {test : Value → Traced Value} {e : Extraction} (hfault : e.fault? = none)
    (h : ∀ a ∈ e.items, ∃ b, (test a).result = .ok b) : ∃ b, (allExtracted test e).result = .ok b := by
  obtain ⟨all, hall⟩ := allTruthy_answers h
  refine ⟨all, bind_result_iff.mpr ⟨all, hall, ?_⟩⟩
  cases all with
  | true => rw [hfault]; rfl
  | false => rfl

lemma and_answers {x y : Traced Value} (hx : ∃ a, x.result = .ok a) (hy : ∃ b, y.result = .ok b) :
    ∃ c, (do let a ← x; if a.isTruthy then y else return a).result = .ok c := by
  obtain ⟨a, ha⟩ := hx
  obtain ⟨b, hb⟩ := hy
  by_cases htrue : a.isTruthy = true
  · exact ⟨b, bind_result_iff.mpr ⟨a, ha, by rwa [if_pos htrue]⟩⟩
  · exact ⟨a, bind_result_iff.mpr ⟨a, ha, by rw [if_neg htrue]; rfl⟩⟩

lemma map_answers {β : Type} {x : Traced α} (f : α → β) (hx : ∃ a, x.result = .ok a) :
    ∃ b, (do return f (← x)).result = .ok b := by
  obtain ⟨a, ha⟩ := hx
  exact ⟨f a, bind_result_iff.mpr ⟨a, ha, rfl⟩⟩

lemma boolean_not_passes_iff {x : Traced Bool} : (do return .boolean !(← x) : Traced Value).Passes ↔
    x.result = .ok false := by
  constructor
  · rintro ⟨a, ha, htrue⟩
    obtain ⟨b, hb, h⟩ := bind_result_iff.mp ha
    obtain rfl := pure_result_iff.mp h
    cases b with
    | true => cases htrue
    | false => exact hb
  · intro h
    exact ⟨.boolean true, bind_result_iff.mpr ⟨false, h, rfl⟩, rfl⟩

end Traced

namespace Ty

variable {I : Interpretation} {v : Value}

section Totality

variable {operators : Operator → Prop} {t : Ty}

lemma allHave_eq (ts : List Ty) : allHave I ts v = Traced.allTruthy (fun t => t.has I v) ts := by
  induction ts with
  | nil => rfl
  | cons t ts ih => rw [allHave, Traced.allTruthy, ih]

lemma allHave_answers {ts : List Ty} (h : ∀ t ∈ ts, ∃ a, (t.has I v).result = .ok a) :
    ∃ b, (allHave I ts v).result = .ok b := by
  rw [allHave_eq]
  exact Traced.allTruthy_answers h

lemma someHas_answers {ts : List Ty} (h : ∀ t ∈ ts, ∃ a, (t.has I v).result = .ok a) :
    ∃ b, (someHas I ts v).result = .ok b := by
  induction ts with
  | nil => exact ⟨false, by rw [someHas]; rfl⟩
  | cons t ts ih =>
    obtain ⟨a, ha⟩ := h t List.mem_cons_self
    obtain ⟨rest, hrest⟩ := ih fun u hu => h u (List.mem_cons_of_mem t hu)
    rw [someHas]
    by_cases htrue : a.isTruthy = true
    · exact ⟨true, Traced.guard_result_iff.mpr (.inl ⟨⟨a, ha, htrue⟩, rfl⟩)⟩
    · exact ⟨rest, Traced.guard_result_iff.mpr (.inr ⟨⟨a, ha, by simpa using htrue⟩, hrest⟩)⟩

/-- No function that the type refers to ever fails. -/
inductive Total (I : Interpretation) : Ty → Prop
  | any (label : Label) : Total I (.any label)
  | predicate (label : Label) {pred : Fn} : (∀ v, ∃ a, I.test pred v = .ok a) → Total I (.predicate label pred)
  | compound (label : Label) (op : Operator) {ts : List Ty} : (∀ t ∈ ts, Total I t) →
      Total I (.compound label op ts)
  | without (label : Label) {left right : Ty} : Total I left → Total I right → Total I (.without label left right)
  | unary (label : Label) {extractor : Fn} {outer inner : Ty} : (∀ v, (I.extract extractor v).fault? = none) →
      Total I outer → Total I inner → Total I (.unary label outer extractor inner)

lemma Total.has_answers (h : t.Total I) (v : Value) : ∃ a, (t.has I v).result = .ok a := by
  induction h generalizing v with
  | any => exact ⟨.boolean true, by rw [has]; rfl⟩
  | predicate label hpred =>
    rw [has]
    exact hpred v
  | @compound label op ts _ ih =>
    have hts : ∀ t ∈ ts, ∃ a, (t.has I v).result = .ok a := fun t ht => ih t ht v
    cases op with
    | intersection => rw [has]; exact Traced.map_answers _ (allHave_answers hts)
    | union => rw [has]; exact Traced.map_answers _ (someHas_answers hts)
    | difference =>
      rw [has]
      exact Traced.map_answers (fun b => Value.boolean !b) (someHas_answers hts)
  | without label _ _ ihl ihr =>
    rw [has]
    exact Traced.and_answers (ihl v) (Traced.map_answers (fun a => Value.boolean !a.isTruthy) (ihr v))
  | unary label hextractor _ _ iho ihi =>
    rw [has]
    refine Traced.and_answers (iho v) ?_
    exact Traced.map_answers _ (Traced.allExtracted_answers (hextractor v) fun item _ => ihi item)

lemma Total.accepts_or_rejects (h : t.Total I) (v : Value) : t.Accepts I v ∨ t.Rejects I v := by
  obtain ⟨a, ha⟩ := h.has_answers v
  by_cases htrue : a.isTruthy = true
  · exact .inl ⟨a, ha, htrue⟩
  · exact .inr ⟨a, ha, by simpa using htrue⟩

lemma Regular.total (h : t.Regular operators) (hI : I.Total) : t.Total I := by
  induction h with
  | any label => exact .any label
  | predicate label pred => exact .predicate label (hI.tests pred)
  | compound label _ _ _ ih => exact .compound label _ ih
  | without label _ _ ihl ihr => exact .without label ihl ihr
  | unary label extractor _ _ iho ihi => exact .unary label (hI.extracts extractor) iho ihi

end Totality

lemma accepts_difference_iff {label : Label} {ts : List Ty} :
    (compound label .difference ts).Accepts I v ↔ ∀ t ∈ ts, t.Rejects I v := by
  rw [Accepts, has, Traced.boolean_not_passes_iff, someHas_false_iff]

/-- Whether an edge that leads up from `t` to `s` says the truth: from a difference it has to lead to a
difference, and for a container its inner part decides. -/
def Widens : Ty → Ty → Prop
  | .compound _ .difference _, s => ∃ label us, s = .compound label .difference us
  | .unary _ outer extractor inner, s =>
    s = outer ∨ ∃ label inner', s = .unary label outer extractor inner' ∧ Widens inner inner'
  | _, _ => True

/-- What a container comes to when it extracts from a value as long as its inner part is a container. -/
def innermost (I : Interpretation) : Ty → Value → List Value
  | .unary _ _ extractor inner, v => (I.extract extractor v).items.flatMap (innermost I inner)
  | _, v => [v]

/-- A member of a difference is a member of what it is merged from only if that is a difference. -/
lemma accepts_merged_iff {label : Label} {ts : List Ty} {s : Ty}
    (hsub : s.contribution .difference ⊆ ts) (haccepts : (compound label .difference ts).Accepts I v) :
    s.Accepts I v ↔ ∃ label' us, s = .compound label' .difference us := by
  have hrejects : ∀ u ∈ s.contribution .difference, u.Rejects I v :=
    fun u hu => accepts_difference_iff.mp haccepts u (hsub hu)
  constructor
  · intro hs
    by_contra hne
    refine Traced.Passes.not_fails hs ?_
    cases s with
    | compound label' op us =>
      cases op with
      | difference => exact (hne ⟨label', us, rfl⟩).elim
      | union => exact rejects_union_iff.mpr hrejects
      | intersection => exact hrejects _ (by simp [contribution, absorbed?, Operator.absorbs])
    | _ => exact hrejects _ (by simp [contribution, absorbed?])
  · rintro ⟨label', us, rfl⟩
    exact accepts_difference_iff.mpr hrejects

/-- Exactly which members are kept along an edge to a superset. -/
theorem Leads.accepts_iff {d : Direction} {t s : Ty} (h : Leads d t s) (hd : d = .supersets)
    (haccepts : t.Accepts I v) : s.Accepts I v ↔ t.Widens s ∨ t.innermost I v = [] := by
  induction h generalizing v with
  | operand | narrowInner | narrowOuter | narrowBoth => cases hd
  | @merged label op ts s hop hsub hsize =>
    cases op with
    | union => exact (hop rfl).elim
    | difference => simp [accepts_merged_iff hsub haccepts, Widens, innermost]
    | intersection =>
      have hs : s.Accepts I v := accepts_contribution_iff.mpr fun w hw =>
        accepts_intersection_iff.mp haccepts w (hsub hw)
      simp [hs, Widens]
  | left => simp [haccepts.left, Widens]
  | outer => simp [(accepts_unary_iff.mp haccepts).1, Widens]
  | @widenInner label label' outer inner inner' extractor _ ih =>
    obtain ⟨houter, hfault, hitems⟩ := accepts_unary_iff.mp haccepts
    constructor
    · intro hs
      have hitems' := (accepts_unary_iff.mp hs).2.2
      by_cases hinner : inner.Widens inner'
      · exact .inl (.inr ⟨label', inner', rfl, hinner⟩)
      -- no item is a member of both inner parts unless it has nothing to extract either
      · refine .inr (List.flatMap_eq_nil_iff.mpr fun item hitem => ?_)
        exact ((ih hd (hitems item hitem)).mp (hitems' item hitem)).resolve_left hinner
    · rintro ((hs | ⟨label'', inner'', hs, hinner⟩) | hnone)
      · rw [hs]
        exact houter
      · obtain ⟨-, -, -, rfl⟩ := Ty.unary.inj hs
        refine accepts_unary_iff.mpr ⟨houter, hfault, fun item hitem => ?_⟩
        exact (ih hd (hitems item hitem)).mpr (.inl hinner)
      · refine accepts_unary_iff.mpr ⟨houter, hfault, fun item hitem => ?_⟩
        exact (ih hd (hitems item hitem)).mpr (.inr (List.flatMap_eq_nil_iff.mp hnone item hitem))

end Ty

/-- What somebody gets who asks a type at hand for its edges. -/
lemma Made.leads_of_edges {terms : Terms} {l : Lattice} {ts : List Ty} (h : Made terms l ts) {t : Ty}
    (ht : t ∈ ts) {d : Direction} {rs : List Referent} (hrun : (t.edges d l).1 = .ok rs) :
    t.Regular terms.operators ∧ ∀ r ∈ rs, ∃ s, r = .type s ∧ t.Leads d s := by
  obtain ⟨ns, hpop, hns⟩ := h.wellFormed
  obtain ⟨ns', -, -, -, -, hQ⟩ := yields_edges hpop (hns ht) d
  obtain ⟨⟨us, rfl, hus⟩, -⟩ := hQ rs hrun
  refine ⟨(hpop.sound t (hns ht)).regular, fun r hr => ?_⟩
  obtain ⟨s, hs, rfl⟩ := List.mem_map.mp hr
  exact ⟨s, rfl, hus.leads s hs⟩

/-- Every edge to a subset is true of all values. An edge to a superset is true of the members of the
type exactly if it widens, or if there is nothing to extract from them. -/
theorem Made.edges_true {l : Lattice} {ts : List Ty}
    (h : Made { documented := False, differences := True } l ts) {t : Ty} (ht : t ∈ ts)
    {I : Interpretation} (hI : I.Total) (v : Value) :
    (∀ rs, (t.edges .subsets l).1 = .ok rs →
      ∀ r ∈ rs, ∃ s, r = .type s ∧ (s.Accepts I v → t.Accepts I v)) ∧
    ∀ rs, (t.edges .supersets l).1 = .ok rs → ∀ r ∈ rs, ∃ s, r = .type s ∧
      (t.Accepts I v → (s.Accepts I v ↔ t.Widens s ∨ t.innermost I v = [])) := by
  constructor
  · intro rs hrun r hr
    obtain ⟨hregular, hleads⟩ := h.leads_of_edges ht hrun
    obtain ⟨s, rfl, hleads⟩ := hleads r hr
    refine ⟨s, rfl, fun hs => ?_⟩
    exact ((hregular.total hI).accepts_or_rejects v).resolve_right
      (Ty.not_rejects_of_leads (.single hleads) hs)
  · intro rs hrun r hr
    obtain ⟨-, hleads⟩ := h.leads_of_edges ht hrun
    obtain ⟨s, rfl, hleads⟩ := hleads r hr
    exact ⟨s, rfl, fun haccepts => hleads.accepts_iff rfl haccepts⟩

/-- Tests that all answer alike, and extractors that hand out nothing. -/
def constantInterpretation (answer : Bool) : Interpretation :=
  ⟨fun _ _ => .ok (.boolean answer), fun _ _ => ⟨[], none⟩⟩

lemma constantInterpretation_total (answer : Bool) : (constantInterpretation answer).Total :=
  ⟨fun _ _ => ⟨_, rfl⟩, fun _ _ => rfl⟩

theorem Made.edges_true_numbers :
    let I := constantInterpretation true
    Made { documented := False, differences := True } numberLattice numberTypes ∧ I.Total ∧
      ((numberType 2).edges .supersets numberLattice).1 =
        .ok [.type (numberType 4), .type (numberType 3)] ∧
      (numberType 2).Accepts I (.integer 4) ∧ (numberType 4).Accepts I (.integer 4) := by
  intro I
  have hmade : Made { documented := False, differences := True } numberLattice numberTypes :=
    numberLattice_made trivial
  have hedges : ((numberType 2).edges .supersets numberLattice).1 =
      .ok [.type (numberType 4), .type (numberType 3)] := rfl
  have haccepts : (numberType 2).Accepts I (.integer 4) := ⟨.boolean true, rfl, rfl⟩
  refine ⟨hmade, constantInterpretation_total true, hedges, haccepts, ?_⟩
  obtain ⟨s, hs, hiff⟩ := (hmade.edges_true (by simp [numberType, numberTypes])
    (constantInterpretation_total true) (.integer 4)).2 _ hedges _ List.mem_cons_self
  obtain rfl := Referent.type.inj hs
  exact (hiff haccepts).mpr (.inl trivial)

/-- A difference names its operands as supersets, and they reject its members. -/
theorem difference_edge_false :
    let I := constantInterpretation false
    Made { documented := False, differences := True } numberLattice numberTypes ∧ I.Total ∧
      ((numberType 0).edges .supersets numberLattice).1 =
        .ok [.type (numberType 4), .type (numberType 3)] ∧
      (numberType 0).Accepts I (.integer (-1)) ∧ (numberType 4).Rejects I (.integer (-1)) :=
  ⟨numberLattice_made trivial, constantInterpretation_total false, rfl, ⟨.boolean true, rfl, rfl⟩,
    .boolean false, rfl, rfl⟩

end StructuralTypes
