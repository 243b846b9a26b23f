import StructuralTypes.Proofs.Containment

/-!
# What constructed types are found to contain

A container is found to contain another one if its outer part leads down to the other's outer part and
its inner part contains the other's inner part. Going up from a container replaces its inner part only,
so an outer part that is known as a superset of the other one, but does not lead down to it, is of no
use. A union is found to contain what one of its operands contains. A union among the operands that it
is given is dissolved, and then it may have contained more than its operands do.
-/

namespace StructuralTypes

open Relation

section Paths

variable {l : Lattice} {outer outer' inner inner' u : Ty} {extractor : Fn}

/-- The parts of a container can be narrowed one after the other. -/
lemma narrow_path (ho : ReflTransGen (l.Offers .subsets) outer outer')
    (hi : ReflTransGen (l.Offers .subsets) inner inner') (label : Label) :
    ReflTransGen (l.Offers .subsets) (.unary label outer extractor inner)
      (.unary label outer' extractor inner') := by
  have houter : ReflTransGen (l.Offers .subsets) (.unary label outer extractor inner)
      (.unary label outer' extractor inner) := by
    induction ho with
    | refl => exact .refl
    | tail _ hstep ih => exact ih.tail (.narrowOuter hstep)
  induction hi with
  | refl => exact houter
  | tail _ hstep ih => exact ih.tail (.narrowInner hstep)

lemma narrowed_of_path {label : Label}
    (h : ReflTransGen (l.Offers .subsets) (.unary label outer extractor inner) u) :
    ∃ label' outer' inner', u = .unary label' outer' extractor inner' ∧
      ReflTransGen (l.Offers .subsets) outer outer' ∧ ReflTransGen (l.Offers .subsets) inner inner' := by
  induction h with
  | refl => exact ⟨label, outer, inner, rfl, .refl, .refl⟩
  | tail _ hstep ih =>
    obtain ⟨label', outer', inner', rfl, ho, hi⟩ := ih
    cases hstep with
    | stored hleaf => cases hleaf
    | narrowInner hstep => exact ⟨_, _, _, rfl, ho, hi.tail hstep⟩
    | narrowOuter hstep => exact ⟨_, _, _, rfl, ho.tail hstep, hi⟩
    | narrowBoth hstep hstep' => exact ⟨_, _, _, rfl, ho.tail hstep, hi.tail hstep'⟩

lemma widen_path (hi : ReflTransGen (l.Offers .supersets) inner inner') (label : Label) :
    ReflTransGen (l.Offers .supersets) (.unary label outer extractor inner)
      (.unary label outer extractor inner') := by
  induction hi with
  | refl => exact .refl
  | tail _ hstep ih => exact ih.tail (.widenInner hstep)

/-- Going up from a container widens its inner part, until it goes on from the outer part. -/
lemma widened_of_path {label : Label}
    (h : ReflTransGen (l.Offers .supersets) (.unary label outer extractor inner) u) :
    (∃ label' inner', u = .unary label' outer extractor inner' ∧
      ReflTransGen (l.Offers .supersets) inner inner') ∨ ReflTransGen (l.Offers .supersets) outer u := by
  induction h with
  | refl => exact .inl ⟨label, inner, rfl, .refl⟩
  | tail _ hstep ih =>
    rcases ih with ⟨label', inner', rfl, hi⟩ | ho
    · cases hstep with
      | stored hleaf => cases hleaf
      | outer => exact .inr .refl
      | widenInner hstep => exact .inl ⟨_, _, rfl, hi.tail hstep⟩
    · exact .inr (ho.tail hstep)

end Paths

section Containers

variable {terms : Terms} {l : Lattice} {ns : List Ty} {outer outer' inner inner' : Ty}

/-- Which containers contain each other, in terms of their parts. -/
lemma WellFormed.contains_container_iff (h : WellFormed terms l ns) (ho : outer.Spanned ns)
    (ho' : outer'.Spanned ns) (hi : inner.Spanned ns) (hi' : inner'.Spanned ns) (label label' : Label)
    (e e' : Fn) :
    l.Contains (.unary label outer e inner) (.unary label' outer' e' inner') ↔
      (e = e' ∧ (∃ low, ReflTransGen (l.Offers .subsets) outer low ∧ outer'.equals low = .ok true) ∧
        l.Contains inner inner') ∨ l.Contains (.unary label outer e inner) outer' := by
  constructor
  · rintro ⟨low, high, hlow, hhigh, hequal⟩
    rcases widened_of_path hhigh with ⟨labelHigh, innerHigh, rfl, hwide⟩ | hhigh
    · obtain ⟨labelLow, outerLow, innerLow, rfl, hnarrow, hnarrow'⟩ := narrowed_of_path hlow
      have hproper := h.proper (h.spanned_of_path ho hnarrow)
      obtain ⟨rfl, houter, hinner⟩ := (Ty.equals_unary_iff hproper (h.proper ho')
        (h.proper (h.spanned_of_path hi hnarrow')) (h.proper (h.spanned_of_path hi' hwide)) _ _ _ _).mp
        hequal
      rw [Ty.equals_comm hproper (h.proper ho')] at houter
      exact .inl ⟨rfl, ⟨outerLow, hnarrow, houter⟩, innerLow, innerHigh, hnarrow', hwide, hinner⟩
    · exact .inr ⟨low, high, hlow, hhigh, hequal⟩
  · rintro (⟨rfl, ⟨outerLow, hnarrow, houter⟩, innerLow, innerHigh, hnarrow', hwide, hinner⟩ |
      ⟨low, high, hlow, hhigh, hequal⟩)
    · have hproper := h.proper (h.spanned_of_path ho hnarrow)
      rw [Ty.equals_comm (h.proper ho') hproper] at houter
      refine ⟨_, _, narrow_path hnarrow hnarrow' label, widen_path hwide label', ?_⟩
      exact (Ty.equals_unary_iff hproper (h.proper ho') (h.proper (h.spanned_of_path hi hnarrow'))
        (h.proper (h.spanned_of_path hi' hwide)) _ _ _ _).mpr ⟨rfl, houter, hinner⟩
    · exact ⟨low, high, hlow, .head .outer hhigh, hequal⟩

/-- In a lattice that has grown, a search between old types, or between containers of such, finds
what the old lattice contains. -/
lemma WellFormed.supersedes_grown (h : WellFormed terms l ns) {l' : Lattice} {ns' : List Ty}
    (h' : WellFormed terms l' ns') (hgrows : l.Grows l') (hdoc : terms.documented) {sup sub : Ty}
    (hsup : sup ∈ ns') (hsub : sub ∈ ns') (hsup' : sup.Spanned ns) (hsub' : sub.Spanned ns) :
    (Build.supersedes (.type sup) (.type sub) l').1 = .ok true ↔ l.Contains sup sub :=
  (h'.supersedes_iff hdoc hsup hsub).trans (h.contains_iff hgrows hsup' hsub')

/-- When a search finds that a container contains another one. -/
theorem WellFormed.supersedes_container_iff (h : WellFormed terms l ns) (hdoc : terms.documented)
    (ho : outer ∈ ns) (ho' : outer' ∈ ns) (hi : inner ∈ ns) (hi' : inner' ∈ ns) (e e' : Fn) :
    ((do
      let sup ← Build.container (.type outer) e (.type inner)
      let sub ← Build.container (.type outer') e' (.type inner')
      Build.supersedes (.type sup) (.type sub)) l).1 = .ok true ↔
      (e = e' ∧ l.Meets .subsets outer outer' ∧
        (Build.supersedes (.type inner) (.type inner') l).1 = .ok true) ∨
      ((do
        let sup ← Build.container (.type outer) e (.type inner)
        Build.supersedes (.type sup) (.type outer')) l).1 = .ok true := by
  obtain ⟨sup, l₁, ns₁, hrun₁, h₁, hns₁, hgrows₁, hsup, label, rfl⟩ :=
    (makes_container h ho hi e).succeeds hdoc
  obtain ⟨sub, l₂, ns₂, hrun₂, h₂, hns₂, hgrows₂, hsub, label', rfl⟩ :=
    (makes_container h₁ (hns₁ ho') (hns₁ hi') e').succeeds hdoc
  have hspanned := Ty.Spanned.unary label e (.node ho) (.node hi)
  have hspanned' := Ty.Spanned.unary label' e' (.node ho') (.node hi')
  rw [bind_of_ok hrun₁, bind_of_ok hrun₂, bind_of_ok hrun₁,
    h.supersedes_grown h₂ (hgrows₁.trans hgrows₂) hdoc (hns₂ hsup) hsub hspanned hspanned',
    h.supersedes_grown h₁ hgrows₁ hdoc hsup (hns₁ ho') hspanned (.node ho'),
    h.supersedes_iff hdoc hi hi', h.meets_iff hdoc ho]
  exact h.contains_container_iff (.node ho) (.node ho') (.node hi) (.node hi') label label' e e'

/-- Containers grow with their parts as far as the outer part of the wider one leads down to that of
the narrower one. Otherwise the wider one has to contain the other's whole outer part. -/
theorem Made.container_supersedes {ts : List Ty}
    (h : Made { documented := True, differences := True } l ts) (ho : outer ∈ ts) (ho' : outer' ∈ ts)
    (hi : inner ∈ ts) (hi' : inner' ∈ ts) (e : Fn)
    (hinner : (Build.supersedes (.type inner) (.type inner') l).1 = .ok true) :
    ((do
      let sup ← Build.container (.type outer) e (.type inner)
      let sub ← Build.container (.type outer') e (.type inner')
      Build.supersedes (.type sup) (.type sub)) l).1 = .ok true ↔
      l.Meets .subsets outer outer' ∨
      ((do
        let sup ← Build.container (.type outer) e (.type inner)
        Build.supersedes (.type sup) (.type outer')) l).1 = .ok true := by
  obtain ⟨ns, hpop, hns⟩ := h.wellFormed
  rw [hpop.supersedes_container_iff trivial (hns ho) (hns ho') (hns hi) (hns hi')]
  simp only [hinner, and_true, true_and]

theorem Made.container_supersedes_boxes :
    Made { documented := True, differences := True } boxLattice boxTypes ∧
      (Build.supersedes (.type (boxType 2)) (.type (boxType 5)) boxLattice).1 = .ok true ∧
      ((do
        let sup ← Build.container (.type (boxType 2)) (.named "digits") (.type (boxType 2))
        let sub ← Build.container (.type (boxType 4)) (.named "digits") (.type (boxType 5))
        Build.supersedes (.type sup) (.type sub)) boxLattice).1 = .ok true := by
  have hmade := boxLattice_made { documented := True, differences := True }
  have hinner : (Build.supersedes (.type (boxType 2)) (.type (boxType 5)) boxLattice).1 = .ok true := rfl
  have hmeets : boxLattice.Meets .subsets (boxType 2) (boxType 4) :=
    ⟨_, rfl, (.type (boxType 4), []), by simp [boxType, boxTypes], rfl⟩
  refine ⟨hmade, hinner, (hmade.container_supersedes ?_ ?_ ?_ ?_ _ hinner).mpr (.inl hmeets)⟩
  all_goals simp [boxType, boxTypes]

/-- The outer part contains the other's outer part, which says so itself, and still the containers are
found to be unrelated. -/
theorem container_outer_widening_lost :
    Made { documented := True, differences := True } numberLattice numberTypes ∧
      (Build.supersedes (.type (numberType 4)) (.type (numberType 2)) numberLattice).1 = .ok true ∧
      (Build.supersedes (.type (numberType 3)) (.type (numberType 3)) numberLattice).1 = .ok true ∧
      ((do
        let sup ← Build.container (.type (numberType 4)) (.named "digits") (.type (numberType 3))
        let sub ← Build.container (.type (numberType 2)) (.named "digits") (.type (numberType 3))
        Build.supersedes (.type sup) (.type sub)) numberLattice).1 = .ok false :=
  ⟨numberLattice_made trivial, rfl, rfl, rfl⟩

end Containers

section Unions

variable {terms : Terms} {l : Lattice} {ns : List Ty} {left right c : Ty}

lemma WellFormed.offers_union_iff (h : WellFormed terms l ns) {label : Label} {us : List Ty} {u : Ty}
    (hunion : .compound label .union us ∈ ns) :
    l.Offers .subsets (.compound label .union us) u ↔ u ∈ us := by
  constructor
  · intro hoffers
    cases (h.edge hunion (hoffers.edge rfl)).2 with
    | operand hu => exact hu
  · intro hu
    exact .stored rfl ((h.storedAsOffered _ hunion).evident .subsets u hu)

/-- A union contains what its operands do, and what leads up to an equal of the union itself. -/
lemma WellFormed.contains_union_iff (h : WellFormed terms l ns) {label : Label} {us : List Ty}
    (hunion : .compound label .union us ∈ ns) :
    l.Contains (.compound label .union us) c ↔
      (∃ high, ReflTransGen (l.Offers .supersets) c high ∧
        (Ty.compound label .union us).equals high = .ok true) ∨ ∃ u ∈ us, l.Contains u c := by
  constructor
  · rintro ⟨low, high, hlow, hhigh, hequal⟩
    rcases ReflTransGen.cases_head hlow with rfl | ⟨u, hfirst, hrest⟩
    · exact .inl ⟨high, hhigh, hequal⟩
    · exact .inr ⟨u, (h.offers_union_iff hunion).mp hfirst, low, high, hrest, hhigh, hequal⟩
  · rintro (⟨high, hhigh, hequal⟩ | ⟨u, hu, low, high, hlow, hhigh, hequal⟩)
    · exact ⟨_, high, .refl, hhigh, hequal⟩
    · exact ⟨low, high, .head ((h.offers_union_iff hunion).mpr hu) hlow, hhigh, hequal⟩

/-- When a search finds that a union contains a type that was there before it. -/
theorem WellFormed.supersedes_union_iff (h : WellFormed terms l ns) (hdoc : terms.documented)
    (hl : left ∈ ns) (hr : right ∈ ns) (hc : c ∈ ns) :
    ∃ union l', Build.compound .union (.type left) (.type right) l = (.ok union, l') ∧
      ((Build.supersedes (.type union) (.type c) l').1 = .ok true ↔
        l'.Meets .supersets c union ∨ ∃ u ∈ left.contribution .union ++ right.contribution .union,
          (Build.supersedes (.type u) (.type c) l).1 = .ok true) := by
  have hop : terms.operators .union := fun h => nomatch h
  obtain ⟨union, l', ns', hrun, h', hns, hgrows, hunion, ⟨label, ranked, hranked, rfl, -⟩, -⟩ :=
    (yields_compound h hop hl hr).succeeds hdoc
  refine ⟨_, l', hrun, ?_⟩
  have hperm := mergeOperands_perm hranked
  have hmem : ∀ u ∈ ranked.map (·.type), u ∈ ns :=
    fun u hu => contributions_mem h hl hr .union (hperm.mem_iff.mp hu)
  rw [h'.supersedes_iff hdoc hunion (hns hc), h'.contains_union_iff hunion, h'.meets_iff hdoc (hns hc)]
  refine or_congr_right (exists_congr fun u => ?_)
  rw [← hperm.mem_iff]
  refine and_congr_right fun hu => ?_
  rw [h.supersedes_iff hdoc (hmem u hu) hc]
  exact h.contains_iff hgrows (.node (hmem u hu)) (.node hc)

/-- What an operand is found to contain, a union with it is found to contain as well, in either order,
unless the operand is itself a union none of whose operands contain it. -/
theorem Made.union_supersedes {ts : List Ty}
    (h : Made { documented := True, differences := True } l ts) (hl : left ∈ ts) (hr : right ∈ ts)
    (hc : c ∈ ts) (hfound : (Build.supersedes (.type left) (.type c) l).1 = .ok true) {a b : Ty}
    (hab : (a, b) = (left, right) ∨ (a, b) = (right, left)) :
    ∃ union l', Build.compound .union (.type a) (.type b) l = (.ok union, l') ∧
      ((Build.supersedes (.type union) (.type c) l').1 = .ok true ↔ l'.Meets .supersets c union ∨
        ∀ label us, left = .compound label .union us → ∃ u ∈ us ++ right.contribution .union,
          (Build.supersedes (.type u) (.type c) l).1 = .ok true) := by
  obtain ⟨ns, hpop, hns⟩ := h.wellFormed
  obtain ⟨ha, hb, hsame⟩ : a ∈ ns ∧ b ∈ ns ∧ ∀ u, u ∈ a.contribution .union ++ b.contribution .union ↔
      u ∈ left.contribution .union ++ right.contribution .union := by
    rcases hab with hab | hab
    · obtain ⟨rfl, rfl⟩ := Prod.mk.inj hab
      exact ⟨hns hl, hns hr, fun _ => .rfl⟩
    · obtain ⟨rfl, rfl⟩ := Prod.mk.inj hab
      exact ⟨hns hr, hns hl, fun u => List.perm_append_comm.mem_iff⟩
  obtain ⟨union, l', hrun, hiff⟩ := hpop.supersedes_union_iff trivial ha hb (hns hc)
  refine ⟨union, l', hrun, hiff.trans (or_congr_right ?_)⟩
  simp only [hsame]
  constructor
  · rintro hkept label us rfl
    exact hkept
  · intro hkept
    rcases habsorbed : left.absorbed? .union with _ | us
    · refine ⟨left, ?_, hfound⟩
      rw [Ty.contribution_eq_singleton habsorbed]
      exact List.mem_cons_self
    · obtain ⟨label, rfl⟩ : ∃ label, left = .compound label .union us := by
        cases left with
        | compound label op vs => cases op <;> simp_all [Ty.absorbed?, Operator.absorbs]
        | _ => cases habsorbed
      exact hkept label us rfl

theorem Made.union_supersedes_numbers :
    Made { documented := True, differences := True } numberLattice numberTypes ∧
      (Build.supersedes (.type (numberType 1)) (.type (numberType 2)) numberLattice).1 = .ok true ∧
      ∃ union l', Build.compound .union (.type (numberType 0)) (.type (numberType 1)) numberLattice =
        (.ok union, l') ∧ (Build.supersedes (.type union) (.type (numberType 2)) l').1 = .ok true := by
  have hmade : Made { documented := True, differences := True } numberLattice numberTypes :=
    numberLattice_made trivial
  have hfound : (Build.supersedes (.type (numberType 1)) (.type (numberType 2)) numberLattice).1 =
      .ok true := rfl
  have hright : numberType 0 ∈ numberTypes := by simp [numberType, numberTypes]
  refine ⟨hmade, hfound, ?_⟩
  obtain ⟨union, l', hrun, hiff⟩ := hmade.union_supersedes (by simp [numberType, numberTypes]) hright
    (by simp [numberType, numberTypes]) hfound (.inr rfl)
  refine ⟨union, l', hrun, hiff.mpr (.inr fun label us hleft => ⟨numberType 4, ?_, rfl⟩)⟩
  obtain ⟨-, -, rfl⟩ := Ty.compound.inj hleft
  exact List.mem_cons_self

/-- A union contains itself, and a union made with it as an operand is not found to contain it. -/
theorem union_operand_lost :
    Made { documented := True, differences := True } numberLattice numberTypes ∧
      (Build.supersedes (.type (numberType 1)) (.type (numberType 1)) numberLattice).1 = .ok true ∧
      ((do
        let union ← Build.compound .union (.type (numberType 1)) (.type (numberType 2))
        Build.supersedes (.type union) (.type (numberType 1))) numberLattice).1 = .ok false :=
  ⟨numberLattice_made trivial, rfl, rfl⟩

end Unions

end StructuralTypes
