import StructuralTypes.Membership
import StructuralTypes.Proofs.TreeEdges

/-!
# Laws of membership

A membership test may fail, so a type can accept a value, reject it, or do neither. Each kind of type
accepts and rejects as its parts do.
-/

namespace StructuralTypes

namespace Traced

variable {α β : Type}

lemma bind_result_iff {x : Traced α} {f : α → Traced β} {b : β} :
    (x >>= f).result = .ok b ↔ ∃ a, x.result = .ok a ∧ (f a).result = .ok b := by
  change (x.andThen f).result = _ ↔ _
  rcases hx : x.result with fault | a
  · simp [andThen, hx]
  · simp [andThen, hx]

lemma pure_result_iff {a b : α} : (pure a : Traced α).result = .ok b ↔ a = b := by
  change (Except.ok a : Attempt α) = .ok b ↔ _
  simp

/-- A test that answers with a value that counts as true. -/
def Passes (x : Traced Value) : Prop := ∃ a, x.result = .ok a ∧ a.isTruthy = true

/-- A test that answers with a value that counts as false. -/
def Fails (x : Traced Value) : Prop := ∃ a, x.result = .ok a ∧ a.isTruthy = false

lemma Passes.not_fails {x : Traced Value} (h : x.Passes) : ¬x.Fails := by
  rintro ⟨b, hb, hfalse⟩
  obtain ⟨a, ha, htrue⟩ := h
  rw [ha] at hb
  obtain rfl := Except.ok.inj hb
  rw [htrue] at hfalse
  cases hfalse

lemma guard_result_iff {x : Traced Value} {y z : Traced β} {b : β} :
    (do if (← x).isTruthy then y else z).result = .ok b ↔
      (x.Passes ∧ y.result = .ok b) ∨ (x.Fails ∧ z.result = .ok b) := by
  rw [bind_result_iff]
  constructor
  · rintro ⟨a, ha, hb⟩
    by_cases htrue : a.isTruthy = true
    · rw [if_pos htrue] at hb
      exact .inl ⟨⟨a, ha, htrue⟩, hb⟩
    · rw [if_neg htrue] at hb
      exact .inr ⟨⟨a, ha, by simpa using htrue⟩, hb⟩
  · rintro (⟨⟨a, ha, htrue⟩, hb⟩ | ⟨⟨a, ha, hfalse⟩, hb⟩)
    · exact ⟨a, ha, by rwa [if_pos htrue]⟩
    · exact ⟨a, ha, by rwa [hfalse, if_neg Bool.false_ne_true]⟩

variable {test : α → Traced Value} {items : List α}

lemma allTruthy_true_iff : (allTruthy test items).result = .ok true ↔ ∀ a ∈ items, (test a).Passes := by
  induction items with
  | nil => simp [allTruthy, pure_result_iff]
  | cons a items ih =>
    rw [allTruthy, guard_result_iff, ih, pure_result_iff]
    simp

lemma exists_fails_of_allTruthy (h : (allTruthy test items).result = .ok false) :
    ∃ a ∈ items, (test a).Fails := by
  induction items with
  | nil =>
    rw [allTruthy, pure_result_iff] at h
    cases h
  | cons a items ih =>
    rw [allTruthy, guard_result_iff] at h
    rcases h with ⟨-, h⟩ | ⟨hfails, -⟩
    · obtain ⟨b, hb, hfails⟩ := ih h
      exact ⟨b, List.mem_cons_of_mem a hb, hfails⟩
    · exact ⟨a, List.mem_cons_self, hfails⟩

lemma allExtracted_true_iff {test : Value → Traced Value} {e : Extraction} :
    (allExtracted test e).result = .ok true ↔ e.fault? = none ∧ ∀ a ∈ e.items, (test a).Passes := by
  rw [allExtracted, bind_result_iff]
  constructor
  · rintro ⟨all, hall, h⟩
    cases all with
    | false => cases h
    | true =>
      refine ⟨?_, allTruthy_true_iff.mp hall⟩
      rcases hfault : e.fault? with _ | fault
      · rfl
      · rw [hfault] at h
        cases h
  · rintro ⟨hfault, hall⟩
    refine ⟨true, allTruthy_true_iff.mpr hall, ?_⟩
    rw [hfault]
    rfl

lemma exists_fails_of_allExtracted {test : Value → Traced Value} {e : Extraction}
    (h : (allExtracted test e).result = .ok false) : ∃ a ∈ e.items, (test a).Fails := by
  rw [allExtracted, bind_result_iff] at h
  obtain ⟨all, hall, h⟩ := h
  cases all with
  | false => exact exists_fails_of_allTruthy hall
  | true =>
    rcases hfault : e.fault? with _ | fault <;> rw [hfault] at h <;> cases h

lemma boolean_result_iff {x : Traced Bool} {b : Bool} :
    (∃ a, (do return .boolean (← x) : Traced Value).result = .ok a ∧ a.isTruthy = b) ↔
      x.result = .ok b := by
  constructor
  · rintro ⟨a, ha, htruth⟩
    obtain ⟨b', hb', h⟩ := bind_result_iff.mp ha
    obtain rfl := pure_result_iff.mp h
    rw [hb']
    exact congrArg Except.ok htruth
  · intro h
    exact ⟨.boolean b, bind_result_iff.mpr ⟨b, h, rfl⟩, rfl⟩

lemma boolean_passes_iff {x : Traced Bool} : (do return .boolean (← x) : Traced Value).Passes ↔
    x.result = .ok true := boolean_result_iff

lemma boolean_fails_iff {x : Traced Bool} : (do return .boolean (← x) : Traced Value).Fails ↔
    x.result = .ok false := boolean_result_iff

variable {x y : Traced Value}

/-- Exclusions and containers ask on where their first part passes and keep its answer otherwise. -/
lemma passes_and_iff : (do let a ← x; if a.isTruthy then y else return a).Passes ↔
    x.Passes ∧ y.Passes := by
  constructor
  · rintro ⟨b, hb, htrue⟩
    obtain ⟨a, ha, h⟩ := bind_result_iff.mp hb
    by_cases hpasses : a.isTruthy = true
    · rw [if_pos hpasses] at h
      exact ⟨⟨a, ha, hpasses⟩, b, h, htrue⟩
    · rw [if_neg hpasses] at h
      obtain rfl := pure_result_iff.mp h
      exact (hpasses htrue).elim
  · rintro ⟨⟨a, ha, hpasses⟩, b, hb, htrue⟩
    exact ⟨b, bind_result_iff.mpr ⟨a, ha, by rwa [if_pos hpasses]⟩, htrue⟩

lemma fails_of_and (h : (do let a ← x; if a.isTruthy then y else return a).Fails) :
    x.Fails ∨ y.Fails := by
  obtain ⟨b, hb, hfalse⟩ := h
  obtain ⟨a, ha, h⟩ := bind_result_iff.mp hb
  by_cases hpasses : a.isTruthy = true
  · rw [if_pos hpasses] at h
    exact .inr ⟨b, h, hfalse⟩
  · rw [if_neg hpasses] at h
    obtain rfl := pure_result_iff.mp h
    exact .inl ⟨a, ha, hfalse⟩

end Traced

namespace Ty

/-- The test of a type answers with something that counts as true. -/
def Accepts (I : Interpretation) (t : Ty) (v : Value) : Prop := (t.has I v).Passes

/-- The test of a type answers with something that counts as false. -/
def Rejects (I : Interpretation) (t : Ty) (v : Value) : Prop := (t.has I v).Fails

section Kinds

variable {I : Interpretation} {v : Value} {label : Label} {ts : List Ty}

lemma allHave_true_iff : (allHave I ts v).result = .ok true ↔ ∀ t ∈ ts, t.Accepts I v := by
  induction ts with
  | nil => simp [allHave, Traced.pure_result_iff]
  | cons t ts ih =>
    rw [allHave, Traced.guard_result_iff, ih, Traced.pure_result_iff]
    simp [Accepts]

lemma someHas_false_iff : (someHas I ts v).result = .ok false ↔ ∀ t ∈ ts, t.Rejects I v := by
  induction ts with
  | nil => simp [someHas, Traced.pure_result_iff]
  | cons t ts ih =>
    rw [someHas, Traced.guard_result_iff, ih, Traced.pure_result_iff]
    simp [Rejects]

lemma accepts_intersection_iff :
    (compound label .intersection ts).Accepts I v ↔ ∀ t ∈ ts, t.Accepts I v := by
  rw [Accepts, has, Traced.boolean_passes_iff, allHave_true_iff]

lemma rejects_union_iff : (compound label .union ts).Rejects I v ↔ ∀ t ∈ ts, t.Rejects I v := by
  rw [Rejects, has, Traced.boolean_fails_iff, someHas_false_iff]

lemma Accepts.left {left right : Ty} (h : (without label left right).Accepts I v) :
    left.Accepts I v := by
  rw [Accepts, has] at h
  exact (Traced.passes_and_iff.mp h).1

variable {outer inner : Ty} {extractor : Fn}

lemma accepts_unary_iff : (unary label outer extractor inner).Accepts I v ↔ outer.Accepts I v ∧
    (I.extract extractor v).fault? = none ∧
      ∀ item ∈ (I.extract extractor v).items, inner.Accepts I item := by
  rw [Accepts, has]
  refine Traced.passes_and_iff.trans (and_congr_right fun _ => ?_)
  exact Traced.boolean_passes_iff.trans Traced.allExtracted_true_iff

lemma rejects_of_unary (h : (unary label outer extractor inner).Rejects I v) :
    outer.Rejects I v ∨ ∃ item ∈ (I.extract extractor v).items, inner.Rejects I item := by
  rw [Rejects, has] at h
  rcases Traced.fails_of_and h with houter | hinner
  · exact .inl houter
  · exact .inr (Traced.exists_fails_of_allExtracted (Traced.boolean_fails_iff.mp hinner))

/-- What a type contributes to an intersection decides what it accepts. -/
lemma accepts_contribution_iff {t : Ty} :
    t.Accepts I v ↔ ∀ u ∈ t.contribution .intersection, u.Accepts I v := by
  cases t with
  | compound label op us =>
    cases op with
    | intersection => exact accepts_intersection_iff
    | union => simp [contribution, absorbed?, Operator.absorbs]
    | difference => simp [contribution, absorbed?, Operator.absorbs]
  | _ => simp [contribution, absorbed?]

end Kinds

variable {I : Interpretation} {v : Value}

lemma allHave_congr {ts us : List Ty} (h : List.Forall₂ (fun t u => t.has I v = u.has I v) ts us) :
    allHave I ts v = allHave I us v := by
  induction h with
  | nil => rfl
  | cons hhead _ ih => rw [allHave, allHave, hhead, ih]

lemma someHas_congr {ts us : List Ty} (h : List.Forall₂ (fun t u => t.has I v = u.has I v) ts us) :
    someHas I ts v = someHas I us v := by
  induction h with
  | nil => rfl
  | cons hhead _ ih => rw [someHas, someHas, hhead, ih]

end Ty

end StructuralTypes
