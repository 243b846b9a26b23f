import StructuralTypes.Proofs.CanonicalNodes
import StructuralTypes.Proofs.EqualityLaws

/-!
# How flat differences are

A difference dissolves the differences and the unions that it is given, one level deep. Unions are flat, so no
union is ever left among its operands. But a union may have a difference among its operands, and dissolving the
union leaves that one where it is.
-/

namespace StructuralTypes

section Shapes

variable {l l' : Lattice} {s t left right : Ty}

/-- What a function from types to types makes, as far as operands go: it merges two types, makes something that has
no operands to be kept flat, or copies what it is given. -/
lemma shape_of_apply {f : Refiner} (hrun : f.apply (.type s) l = (.ok t, l')) :
    (∃ op left, (f = .operator op left ∨ op = .intersection) ∧ Merges op left s t) ∨
      (∀ op, t.isMadeBy op = false) ∨ ∃ label, t = s.setLabel label := by
  have hcopy : ∀ {names? docs? : Option (List String)} {l₀ : Lattice},
      Build.relabel s names? docs? l₀ = (.ok t, l') → ∃ label, t = s.setLabel label :=
    fun hcopied => ⟨_, (Except.ok.inj (congrArg Prod.fst hcopied)).symm⟩
  cases f with
  | operator op left =>
    obtain ⟨-, hmerges, -⟩ := merged_of_compound hrun
    exact .inl ⟨op, left, .inl rfl, hmerges⟩
  | suchThat pred =>
    obtain ⟨guard, l₁, -, hrest⟩ := exists_of_bind hrun
    obtain ⟨-, hmerges, -⟩ := merged_of_compound hrest
    exact .inl ⟨.intersection, guard, .inr rfl, hmerges⟩
  | without left =>
    obtain ⟨serial, l₁, -, hrest⟩ := exists_of_bind hrun
    obtain ⟨taken, l₂, -, hrest⟩ := exists_of_bind hrest
    obtain ⟨a, b, aName, bName, aDoc, bDoc, -, -, -, -, hnode⟩ := exists_of_parts hrest
    obtain ⟨rfl, -⟩ := stored?_of_register (fun _ => rfl) hnode
    exact .inr (.inl fun _ => rfl)
  | container outer extractor =>
    obtain ⟨label, -, -, rfl, -⟩ := combines_container hrun
    exact .inr (.inl fun _ => rfl)
  | withAlias name =>
    obtain ⟨_, ⟨⟩, hrest⟩ := exists_of_attempt hrun
    obtain ⟨names, -, hcopied⟩ := exists_of_attempt hrest
    exact .inr (.inr (hcopy hcopied))
  | withoutAlias =>
    obtain ⟨_, ⟨⟩, hrest⟩ := exists_of_attempt hrun
    obtain ⟨names, -, hcopied⟩ := exists_of_attempt hrest
    by_cases hone : names.length = 1
    · rw [if_pos hone, pure_apply] at hcopied
      cases hcopied
      exact .inr (.inr ⟨s.label, s.setLabel_label.symm⟩)
    · rw [if_neg hone] at hcopied
      exact .inr (.inr (hcopy hcopied))
  | withDocs docs =>
    obtain ⟨_, ⟨⟩, hcopied⟩ := exists_of_attempt hrun
    exact .inr (.inr (hcopy hcopied))

lemma shape_of_metadata {names? docs? : Option (List String)}
    (h : (Build.withMetadata names? docs? (.type s) l).1 = .ok t) : ∃ label, t = s.setLabel label :=
  ⟨_, (Except.ok.inj h).symm⟩

end Shapes

namespace Ty

variable {t left right : Ty} {op : Operator}

/-- If the type is a union or a difference, its operands are kept as those of a union are. -/
def Normal (t : Ty) : Prop :=
  ∀ label op ts, t = .compound label op ts → op ≠ .intersection → Operator.union.Keeps ts

lemma eq_compound_of_setLabel {label label' : Label} {ts : List Ty} (h : t.setLabel label' = .compound label op ts) :
    t = .compound t.label op ts := by
  calc t
    _ = (t.setLabel label').setLabel t.label := by rw [setLabel_setLabel, setLabel_label]
    _ = .compound t.label op ts := by rw [h]; rfl

lemma Normal.of_plain (h : ∀ op, t.isMadeBy op = false) : t.Normal := by
  rintro label op ts rfl _
  simp [isMadeBy] at h

lemma Normal.setLabel (h : t.Normal) (label : Label) : (t.setLabel label).Normal :=
  fun _ op ts ht => h t.label op ts (eq_compound_of_setLabel ht)

/-- What dissolves in a union or in a difference is kept as the operands of a union are, and what does not dissolve
is no union. -/
lemma Normal.contribution (h : t.Normal) (hop : op ≠ .intersection) :
    t.contribution op ≠ [] ∧ ∀ u ∈ t.contribution op, u.isMadeBy .union = false := by
  rcases habsorbed : t.absorbed? op with _ | ts
  · rw [contribution_eq_singleton habsorbed]
    refine ⟨List.cons_ne_nil t [], List.forall_mem_singleton.mpr ?_⟩
    cases t with
    | compound label inner ts => cases op <;> cases inner <;> simp_all [absorbed?, Operator.absorbs, isMadeBy]
    | _ => rfl
  · rw [Ty.contribution, habsorbed, Option.getD_some]
    have hkeeps : Operator.union.Keeps ts := by
      cases t with
      | compound label inner ts' =>
        rw [absorbed?] at habsorbed
        split at habsorbed
        · rename_i habsorbs
          obtain rfl := Option.some.inj habsorbed
          refine h label inner ts' rfl ?_
          cases op <;> cases inner <;> simp_all [Operator.absorbs]
        · cases habsorbed
      | _ => cases habsorbed
    refine ⟨?_, hkeeps.flat⟩
    rintro rfl
    exact absurd hkeeps.two_le (by simp)

lemma Normal.of_merges (h : Merges op left right t) (hl : left.Normal) (hr : right.Normal) : t.Normal := by
  obtain ⟨label, ranked, hranked, rfl, -⟩ := h
  rintro _ _ _ ⟨⟩ hop
  exact keeps_of_contributions hranked (hl.contribution hop) (hr.contribution hop)

end Ty

section Differences

variable {t left right : Ty}

lemma Built.normal (h : Built t) : t.Normal := by
  induction h with
  | any l ht =>
    obtain rfl := Except.ok.inj ht
    exact .of_plain fun _ => rfl
  | predicate l pred name? ht =>
    obtain rfl := Except.ok.inj ht
    exact .of_plain fun _ => rfl
  | refine l f others _ hf _ ht ihothers ih =>
    rcases shape_of_apply (Prod.ext ht rfl) with ⟨op, left, rfl | rfl, hmerges⟩ | hplain | ⟨label, rfl⟩
    · exact .of_merges hmerges (ihothers left hf.2) ih
    · obtain ⟨label, ts, rfl, -⟩ := hmerges.operands
      rintro _ _ _ ⟨⟩ hop
      exact absurd rfl hop
    · exact .of_plain hplain
    · exact ih.setLabel label
  | relabel l names? docs? _ ht ih =>
    obtain ⟨label, rfl⟩ := shape_of_metadata ht
    exact ih.setLabel label

/-- A difference was made of two types, and copied since. -/
lemma Built.exists_sides (h : Built t) {label : Label} {ts : List Ty} (ht : t = .compound label .difference ts) :
    ∃ l left right label', Built left ∧ Built right ∧
      (Build.compound .difference (.type left) (.type right) l).1 = .ok (.compound label' .difference ts) := by
  induction h generalizing label with
  | any l hrun =>
    obtain rfl := Except.ok.inj hrun
    cases ht
  | predicate l pred name? hrun =>
    obtain rfl := Except.ok.inj hrun
    cases ht
  | refine l f others hothers hf hs hrun _ ih =>
    subst ht
    rcases shape_of_apply (Prod.ext hrun rfl) with ⟨op, left, hf', hmerges⟩ | hplain | ⟨label', hcopy⟩
    · obtain ⟨_, _, ⟨⟩, -⟩ := hmerges.operands
      rcases hf' with rfl | ⟨⟨⟩⟩
      exact ⟨l, left, _, label, hothers left hf.2, hs, hrun⟩
    · have hmade := hplain .difference
      simp [Ty.isMadeBy] at hmade
    · exact ih (Ty.eq_compound_of_setLabel hcopy.symm)
  | relabel l names? docs? _ hrun ih =>
    subst ht
    obtain ⟨label', hcopy⟩ := shape_of_metadata hrun
    exact ih (Ty.eq_compound_of_setLabel hcopy.symm)

/-- What a type contributes to a difference is free of differences, unless it dissolves and has one among its
operands. -/
lemma Ty.contribution_flat_iff : (∀ u ∈ t.contribution .difference, u.isMadeBy .difference = false) ↔
    (t.isMadeBy .difference = true ∨ t.isMadeBy .union = true → ∀ u ∈ t.parts, u.isMadeBy .difference = false) := by
  cases t with
  | compound label op us => cases op <;> simp [contribution, absorbed?, Operator.absorbs, isMadeBy, parts]
  | _ => simp [contribution, absorbed?, isMadeBy]

end Differences

/-- A difference has two operands or more, all of them with a name and none of them a union, sorted by canonical name
and serial number. It is free of differences exactly if the two types that it was made of are: neither is a difference
or a union with a difference among its operands. -/
theorem Built.difference_operands {label : Label} {ts : List Ty} (h : Built (.compound label .difference ts)) :
    2 ≤ ts.length ∧ (∀ t ∈ ts, (∃ name, t.canonicalName = .ok name) ∧ t.isMadeBy .union = false) ∧
      (ts.map Ty.sortKey).Pairwise (· ≤ ·) ∧
      ∃ l left right label', Built left ∧ Built right ∧
        (Build.compound .difference (.type left) (.type right) l).1 = .ok (.compound label' .difference ts) ∧
        ((∀ t ∈ ts, t.isMadeBy .difference = false) ↔
          ∀ side ∈ [left, right], side.isMadeBy .difference = true ∨ side.isMadeBy .union = true →
            ∀ u ∈ side.parts, u.isMadeBy .difference = false) := by
  have hkeeps := h.normal label .difference ts rfl (by decide)
  refine ⟨hkeeps.two_le, fun t ht => ⟨hkeeps.named t ht, hkeeps.flat t ht⟩, hkeeps.sorted, ?_⟩
  obtain ⟨l, left, right, label', hleft, hright, hrun⟩ := h.exists_sides rfl
  refine ⟨l, left, right, label', hleft, hright, hrun, ?_⟩
  obtain ⟨-, hmerges, -⟩ := merged_of_compound (Prod.ext hrun rfl)
  obtain ⟨_, _, ⟨⟩, hoperands⟩ := hmerges.operands
  rw [hoperands, Ty.contribution_flat_iff, Ty.contribution_flat_iff, List.forall_mem_cons, List.forall_mem_singleton]

section Numbers

/-- The tests, their union and their difference. -/
lemma numberTypes_built :
    Built (numberType 4) ∧ Built (numberType 3) ∧ Built (numberType 1) ∧ Built (numberType 0) := by
  have heven : Built (numberType 4) := .predicate .empty (.named "even") none rfl
  have hpositive : Built (numberType 3) := .predicate ⟨#[.empty], 1⟩ (.named "positive") none rfl
  have hothers : ∀ u ∈ [numberType 4], Built u := List.forall_mem_singleton.mpr heven
  have hallowed : ∀ op, (Refiner.operator op (numberType 4)).Allowed ⟨False, True⟩ [numberType 4] :=
    fun op => ⟨fun _ => trivial, List.mem_singleton_self _⟩
  refine ⟨heven, hpositive, ?_, ?_⟩
  · exact .refine ⟨.replicate 3 .empty, 3⟩ (.operator .union (numberType 4)) _ hothers (hallowed _) hpositive rfl
  · exact .refine ⟨.replicate 4 .empty, 4⟩ (.operator .difference (numberType 4)) _ hothers (hallowed _) hpositive rfl

/-- A difference and a union of the same tests dissolve in the difference of both. -/
theorem Built.difference_operands_numbers : ∃ label,
    let ts := [numberType 4, numberType 4, numberType 3, numberType 3]
    Built (.compound label .difference ts) ∧ (ts.map Ty.sortKey).Pairwise (· ≤ ·) ∧
      ∀ t ∈ ts, t.isMadeBy .union = false ∧ t.isMadeBy .difference = false := by
  obtain ⟨-, -, heither, hneither⟩ := numberTypes_built
  obtain ⟨label, hrun⟩ : ∃ label,
      (Build.compound .difference (.type (numberType 0)) (.type (numberType 1)) numberLattice).1 =
        .ok (.compound label .difference [numberType 4, numberType 4, numberType 3, numberType 3]) := ⟨_, rfl⟩
  have hbuilt : Built (.compound label .difference [numberType 4, numberType 4, numberType 3, numberType 3]) :=
    .refine numberLattice (.operator .difference (numberType 0)) [numberType 0]
      (List.forall_mem_singleton.mpr hneither) ⟨fun _ => trivial, List.mem_singleton_self _⟩ heither hrun
  obtain ⟨-, hnone, hsorted, -⟩ := hbuilt.difference_operands
  refine ⟨label, hbuilt, hsorted, fun t ht => ⟨(hnone t ht).2, ?_⟩⟩
  revert t
  simp [numberType, numberTypes, Ty.isMadeBy]

/-- The difference of both tests, united with one of them. -/
def unitedType : Ty :=
  .compound ⟨5, 5, some ["((even ⊖ positive) ∪ positive)"],
    some [Build.docLink "union", Build.docLink "difference", Build.docLink "predicate"]⟩ .union
    [numberType 0, numberType 3]

/-- The difference of that and the other test. -/
def nestedType : Ty :=
  .compound ⟨6, 6, some ["((even ⊖ positive) ⊖ even ⊖ positive)"],
    some [Build.docLink "difference", Build.docLink "difference", Build.docLink "predicate",
      Build.docLink "predicate"]⟩ .difference
    [numberType 0, numberType 4, numberType 3]

/-- A difference that is an operand of a union is left among the operands when the union dissolves in another
difference. -/
theorem difference_left_in_difference :
    let united := Build.compound .union (.type (numberType 0)) (.type (numberType 3)) numberLattice
    united.1 = .ok unitedType ∧
      (Build.compound .difference (.type unitedType) (.type (numberType 4)) united.2).1 = .ok nestedType ∧
      Built nestedType ∧ ∃ t ∈ nestedType.parts, t.isMadeBy .difference = true := by
  intro united
  obtain ⟨heven, hpositive, -, hneither⟩ := numberTypes_built
  have hunited : united.1 = .ok unitedType := by rfl
  have hnested :
      (Build.compound .difference (.type unitedType) (.type (numberType 4)) united.2).1 = .ok nestedType := by rfl
  have hbuilt : Built unitedType :=
    .refine numberLattice (.operator .union (numberType 0)) [numberType 0] (List.forall_mem_singleton.mpr hneither)
      ⟨fun _ => trivial, List.mem_singleton_self _⟩ hpositive hunited
  refine ⟨hunited, hnested, ?_, numberType 0, List.mem_cons_self, rfl⟩
  exact .refine united.2 (.operator .difference unitedType) [unitedType] (List.forall_mem_singleton.mpr hbuilt)
    ⟨fun _ => trivial, List.mem_singleton_self _⟩ heven hnested

end Numbers

end StructuralTypes
