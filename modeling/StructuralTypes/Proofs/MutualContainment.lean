import StructuralTypes.Proofs.SubsumptionLaws

/-!
# Types that contain each other

Two types that are found to contain each other are equal. Where neither is a container, one of the two
ways from each of them has no step, and sizes close the argument. A container lies below its outer part,
which may be a container again, so sizes alone say nothing there. What a container contains its outer
part contains as well, and no container contains an equal of its outer part.
-/

namespace StructuralTypes

open Relation

namespace Ty

lemma eq_unary_of_isContainer {t : Ty} (h : t.isContainer = true) :
    ∃ label outer e inner, t = .unary label outer e inner := by
  cases t with
  | unary label outer e inner => exact ⟨label, outer, e, inner, rfl⟩
  | _ => cases h

lemma Same.isContainer_eq {s t : Ty} (h : s.Same t) : s.isContainer = t.isContainer := by
  cases h <;> rfl

lemma Same.isMadeBy_eq {s t : Ty} (h : s.Same t) (op : Operator) : s.isMadeBy op = t.isMadeBy op := by
  cases h <;> rfl

/-- Only containers and unions lead down. -/
lemma eq_of_leads_down {t u : Ty} (h : ReflTransGen (Leads .subsets) t u) (hcontainer : t.isContainer = false)
    (hunion : t.isMadeBy .union = false) : u = t := by
  rcases ReflTransGen.cases_head h with rfl | ⟨v, hfirst, -⟩
  · rfl
  · cases hfirst with
    | operand => cases hunion
    | _ => cases hcontainer

/-- Unions do not lead up. -/
lemma Leads.not_union {t u : Ty} (h : Leads .supersets t u) : t.isMadeBy .union = false := by
  cases h with
  | @merged label op ts _ hop => exact decide_eq_false hop
  | _ => rfl

lemma eq_of_leads_up {t u : Ty} (h : ReflTransGen (Leads .supersets) t u)
    (hunion : t.isMadeBy .union = true) : u = t := by
  rcases ReflTransGen.cases_head h with rfl | ⟨v, hfirst, -⟩
  · rfl
  · rw [hfirst.not_union] at hunion
    cases hunion

end Ty

lemma Lattice.contains_iff_exists_same {l : Lattice} {sup sub : Ty} : l.Contains sup sub ↔
    ∃ low high, ReflTransGen (l.Offers .subsets) sup low ∧ ReflTransGen (l.Offers .supersets) sub high ∧
      low.Same high := by
  simp only [Contains, Ty.equals_iff_same]

/-- What a container contains its outer part contains as well. -/
lemma Lattice.Contains.outer {l : Lattice} {label : Label} {outer inner t : Ty} {e : Fn}
    (h : l.Contains (.unary label outer e inner) t) : l.Contains outer t := by
  obtain ⟨low, high, hlow, hhigh, hsame⟩ := contains_iff_exists_same.mp h
  obtain ⟨_, outerLow, _, rfl, houter, -⟩ := narrowed_of_path hlow
  cases hsame with
  | unary _ _ _ hsame => exact contains_iff_exists_same.mpr ⟨_, _, houter, hhigh.tail .outer, hsame⟩

namespace WellFormed

variable {terms : Terms} {l : Lattice} {ns : List Ty} {a b outer outer' inner inner' : Ty}
  {label label' : Label} {e e' : Fn}

/-- Where a container contains another one, its outer part contains that of the other one. -/
lemma contains_outers (h : WellFormed terms l ns) (ho : outer.Spanned ns) (ho' : outer'.Spanned ns)
    (hi : inner.Spanned ns) (hi' : inner'.Spanned ns)
    (hcontains : l.Contains (.unary label outer e inner) (.unary label' outer' e' inner')) :
    l.Contains outer outer' := by
  rcases (h.contains_container_iff ho ho' hi hi' label label' e e').mp hcontains with
    ⟨-, ⟨low, hlow, hequal⟩, -⟩ | hwide
  · exact Lattice.contains_iff_exists_same.mpr
      ⟨low, outer', hlow, .refl, (Ty.equals_iff_same.mp hequal).symm⟩
  · exact hwide.outer

/-- No container contains an equal of its outer part. -/
lemma not_contains_outer (h : WellFormed terms l ns) (ho : outer.Spanned ns) (hi : inner.Spanned ns)
    (hb : b.Spanned ns) (hsame : outer.Same b) : ¬l.Contains (.unary label outer e inner) b := by
  -- on the size of the outer part, as it may be a container that the same can be said of
  induction hn : outer.size using Nat.strong_induction_on generalizing outer b label e inner with
  | _ n ih =>
    intro hcontains
    by_cases hcontainer : b.isContainer = true
    · cases hsame with
      | unary label₁ label₂ f hsame' =>
        rename_i outer₁ outer₂ inner₁ inner₂ _
        obtain ⟨ho₁, hi₁⟩ := h.parts_spanned ho
        obtain ⟨ho₂, hi₂⟩ := h.parts_spanned hb
        have hlt : outer₁.size < n := by
          rw [← hn, Ty.size]
          omega
        exact ih outer₁.size hlt ho₁ hi₁ ho₂ hsame' rfl
          (h.contains_outers ho ho₂ hi hi₂ hcontains)
      | _ => cases hcontainer
    · obtain ⟨low, high, hlow, hhigh, hmeet⟩ := Lattice.contains_iff_exists_same.mp hcontains
      obtain ⟨_, outerLow, innerLow, rfl, houter, -⟩ := narrowed_of_path hlow
      have hup := h.leads_of_path hb hhigh
      have hleaf : b.isContainer = false := by simpa using hcontainer
      have hunion : b.isMadeBy .union = false := by
        by_contra hunion
        rw [Ty.eq_of_leads_up hup (by simpa using hunion)] at hmeet
        rw [← hmeet.isContainer_eq] at hleaf
        cases hleaf
      -- the outer part stays as it is, so what lies above the other type is larger than that type
      have hstay : outerLow = outer := Ty.eq_of_leads_down (h.leads_of_path ho houter)
        (hsame.isContainer_eq.trans hleaf) ((hsame.isMadeBy_eq .union).trans hunion)
      have hsize := hmeet.size_eq
      have hle := Ty.size_le_of_leads hup
      have hequal := hsame.size_eq
      rw [Ty.size, hstay] at hsize
      omega

/-- Going down or going up, a type that is no container stays where it is. -/
lemma stays (h : WellFormed terms l ns) (ha : a.Spanned ns) (hleaf : a.isContainer = false) {low high : Ty}
    (hlow : ReflTransGen (l.Offers .subsets) a low) (hhigh : ReflTransGen (l.Offers .supersets) a high) :
    low = a ∨ high = a := by
  by_cases hunion : a.isMadeBy .union = true
  · exact .inr (Ty.eq_of_leads_up (h.leads_of_path ha hhigh) hunion)
  · exact .inl (Ty.eq_of_leads_down (h.leads_of_path ha hlow) hleaf (by simpa using hunion))

lemma same_of_contains_leaves (h : WellFormed terms l ns) (ha : a.Spanned ns) (hb : b.Spanned ns)
    (hleaf : a.isContainer = false) (hleaf' : b.isContainer = false) (hab : l.Contains a b)
    (hba : l.Contains b a) : a.Same b := by
  obtain ⟨low, high, hlow, hhigh, hsame⟩ := Lattice.contains_iff_exists_same.mp hab
  obtain ⟨low', high', hlow', hhigh', hsame'⟩ := Lattice.contains_iff_exists_same.mp hba
  have hsize := hsame.size_eq
  have hsize' := hsame'.size_eq
  rcases h.stays ha hleaf hlow hhigh' with rfl | rfl
  · rcases h.stays hb hleaf' hlow' hhigh with rfl | rfl
    · rcases Ty.eq_or_size_lt_of_leads (h.leads_of_path hb hhigh) with rfl | hlt
      · exact hsame
      · have hle := Ty.size_le_of_leads (h.leads_of_path ha hhigh')
        omega
    · exact hsame
  · rcases h.stays hb hleaf' hlow' hhigh with rfl | rfl
    · exact hsame'.symm
    · rcases Ty.eq_or_size_lt_of_leads (h.leads_of_path ha hlow) with rfl | hlt
      · exact hsame
      · have hle := Ty.size_le_of_leads (h.leads_of_path hb hlow')
        omega

/-- A container and a type of another kind do not contain each other, given that the outer part and that
type are equal if they do. -/
lemma not_contains_container (h : WellFormed terms l ns) (ho : outer.Spanned ns) (hi : inner.Spanned ns)
    (hb : b.Spanned ns) (hleaf : b.isContainer = false)
    (hsame : l.Contains outer b → l.Contains b outer → outer.Same b)
    (hab : l.Contains (.unary label outer e inner) b) : ¬l.Contains b (.unary label outer e inner) := by
  intro hba
  obtain ⟨low, high, hlow, hhigh, hmeet⟩ := Lattice.contains_iff_exists_same.mp hba
  rcases widened_of_path hhigh with ⟨_, _, rfl, -⟩ | houter
  · -- a type that leads down to a container is a union, which does not lead up to one
    have hcontainer : low.isContainer = true := hmeet.isContainer_eq
    obtain ⟨low', high', hlow', hhigh', hmeet'⟩ := Lattice.contains_iff_exists_same.mp hab
    obtain ⟨_, _, _, rfl, -⟩ := narrowed_of_path hlow'
    have hcontainer' : high'.isContainer = true := hmeet'.isContainer_eq.symm
    rcases h.stays hb hleaf hlow hhigh' with rfl | rfl
    · rw [hcontainer] at hleaf
      cases hleaf
    · rw [hcontainer'] at hleaf
      cases hleaf
  · have hwide : l.Contains b outer := Lattice.contains_iff_exists_same.mpr ⟨low, high, hlow, houter, hmeet⟩
    exact h.not_contains_outer ho hi hb (hsame hab.outer hwide) hab

/-- Types that contain each other are equal. -/
theorem same_of_contains (h : WellFormed terms l ns) (ha : a.Spanned ns) (hb : b.Spanned ns)
    (hab : l.Contains a b) (hba : l.Contains b a) : a.Same b := by
  -- on both sizes together, as either of the two may be the container to take apart
  induction hn : a.size + b.size using Nat.strong_induction_on generalizing a b with
  | _ n ih =>
    cases hcontainer : a.isContainer with
    | false =>
      cases hcontainer' : b.isContainer with
      | false => exact h.same_of_contains_leaves ha hb hcontainer hcontainer' hab hba
      | true =>
        obtain ⟨label, outer, e, inner, rfl⟩ := Ty.eq_unary_of_isContainer hcontainer'
        obtain ⟨ho, hi⟩ := h.parts_spanned hb
        refine (h.not_contains_container ho hi ha hcontainer (fun hoa hao => ?_) hba hab).elim
        refine ih _ ?_ ho ha hoa hao rfl
        rw [← hn, Ty.size]
        omega
    | true =>
      obtain ⟨label, outer, e, inner, rfl⟩ := Ty.eq_unary_of_isContainer hcontainer
      obtain ⟨ho, hi⟩ := h.parts_spanned ha
      cases hcontainer' : b.isContainer with
      | false =>
        refine (h.not_contains_container ho hi hb hcontainer' (fun hob hbo => ?_) hab hba).elim
        refine ih _ ?_ ho hb hob hbo rfl
        rw [← hn, Ty.size]
        omega
      | true =>
        obtain ⟨label', outer', e', inner', rfl⟩ := Ty.eq_unary_of_isContainer hcontainer'
        obtain ⟨ho', hi'⟩ := h.parts_spanned hb
        simp only [Ty.size] at hn
        have houter : outer.Same outer' := ih _ (by omega) ho ho' (h.contains_outers ho ho' hi hi' hab)
          (h.contains_outers ho' ho hi' hi hba) rfl
        rcases (h.contains_container_iff ho ho' hi hi' label label' e e').mp hab with
          ⟨rfl, -, hinner⟩ | hwide
        · rcases (h.contains_container_iff ho' ho hi' hi label' label e e).mp hba with
            ⟨-, -, hinner'⟩ | hwide
          · exact .unary _ _ _ houter (ih _ (by omega) hi hi' hinner hinner' rfl)
          · exact (h.not_contains_outer ho' hi' ho houter.symm hwide).elim
        · exact (h.not_contains_outer ho hi ho' houter hwide).elim

end WellFormed

/-- Two types are found to contain each other, one question asked after the other, exactly if they are
equal. -/
theorem Made.contain_each_other_iff {l : Lattice} {ts : List Ty}
    (h : Made { documented := False, differences := True } l ts) {a b : Ty} (ha : a ∈ ts) (hb : b ∈ ts) :
    ((do
      let wider ← Build.supersedes (.type a) (.type b)
      let narrower ← Build.supersedes (.type b) (.type a)
      return wider && narrower) l).1 = .ok true ↔ a.equals b = .ok true := by
  constructor
  · intro hrun
    obtain ⟨wider, l₁, hwider, hrun⟩ := ok_of_bind hrun
    obtain ⟨narrower, l₂, hnarrower, hrun⟩ := ok_of_bind hrun
    obtain ⟨rfl, rfl⟩ : wider = true ∧ narrower = true := by
      rw [pure_apply, Except.ok.injEq, Bool.and_eq_true] at hrun
      exact hrun
    obtain ⟨ns, hpop, hns⟩ := h.wellFormed
    obtain ⟨ns', hpop', hns', hgrows, -⟩ :=
      supersedes_outcome (WellFormed.walkable _) hpop (hns ha) (hns hb)
    rw [hwider] at hpop' hgrows
    have hab := hpop.contains_of_supersedes (hns ha) (hns hb) (by rw [hwider])
    have hba := hpop'.contains_of_supersedes (hns' (hns hb)) (hns' (hns ha)) (by rw [hnarrower])
    have hba' := (hpop.contains_iff hgrows (.node (hns hb)) (.node (hns ha))).mp hba
    exact Ty.equals_iff_same.mpr (hpop.same_of_contains (.node (hns ha)) (.node (hns hb)) hab hba')
  · intro hequal
    have hequal' := Ty.equals_iff_same.mpr (Ty.equals_iff_same.mp hequal).symm
    rw [bind_of_ok (Prod.ext (supersedes_of_equals hequal l) rfl),
      bind_of_ok (Prod.ext (supersedes_of_equals hequal' _) rfl), pure_apply]
    rfl

/-- The two ways to take three tests together contain each other. -/
theorem Made.contain_each_other_grouped :
    Made { documented := False, differences := True } groupedLattice groupedTypes ∧
      ((do
        let wider ← Build.supersedes (.type (groupedType 0)) (.type (groupedType 2))
        let narrower ← Build.supersedes (.type (groupedType 2)) (.type (groupedType 0))
        return wider && narrower) groupedLattice).1 = .ok true ∧
      (groupedType 0).equals (groupedType 2) = .ok true := by
  have hmade := groupedLattice_made { documented := False, differences := True }
  have hequal : (groupedType 0).equals (groupedType 2) = .ok true := rfl
  refine ⟨hmade, ?_, hequal⟩
  exact (hmade.contain_each_other_iff (by simp [groupedTypes, groupedType])
    (by simp [groupedTypes, groupedType])).mpr hequal

end StructuralTypes
