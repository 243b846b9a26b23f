import StructuralTypes.Proofs.MetadataCopies
import StructuralTypes.Proofs.Transitivity

/-!
# Answers that last

What a search answers about types that are at hand stays the answer, whatever is constructed, asked and
searched later on. So laws about searches may be stated across time: a type is built at one point, and the
questions that a law compares are asked at others.
-/

namespace StructuralTypes

open Relation

/-- What a lattice has become after further acts, with the types at hand then. -/
inductive Later (terms : Terms) (l : Lattice) (ts : List Ty) : Lattice → List Ty → Prop
  | now : Later terms l ts l ts
  | act {l' : Lattice} {ts' : List Ty} (a : Act) : Later terms l ts l' ts' → a.Allowed terms ts' →
      Later terms l ts (a.run l').2 (Act.gained (a.run l').1 ++ ts')

section Lasting

variable {terms : Terms} {l l' : Lattice} {ts ts' : List Ty} {a b : Ty}

namespace Later

lemma made (h : Later terms l ts l' ts') (hmade : Made terms l ts) : Made terms l' ts' := by
  induction h with
  | now => exact hmade
  | act a _ ha ih => exact ih.act a ha

lemma subset (h : Later terms l ts l' ts') : ts ⊆ ts' := by
  induction h with
  | now => exact List.Subset.refl ts
  | act a _ _ ih => exact List.subset_append_of_subset_right _ ih

/-- All nodes there are stay, and so do their edges. -/
lemma wellFormed (h : Later terms l ts l' ts') {ns : List Ty} (hpop : WellFormed terms l ns) (hns : ts ⊆ ns) :
    ∃ ns', WellFormed terms l' ns' ∧ ns ⊆ ns' ∧ ts' ⊆ ns' ∧ l.Grows l' := by
  induction h with
  | now => exact ⟨ns, hpop, List.Subset.refl ns, hns, .refl l⟩
  | act a _ ha ih =>
    obtain ⟨ns₁, hpop₁, hns₁, hts₁, hgrows⟩ := ih
    have hallowed := ha.mono hts₁
    obtain ⟨ns₂, hpop₂, hns₂, hgained⟩ := preservesWellFormed_act hpop₁ hallowed
    refine ⟨ns₂, hpop₂, fun t ht => hns₂ (hns₁ ht), ?_, hgrows.trans (grows_act hpop₁ hallowed)⟩
    exact List.append_subset.mpr ⟨hgained, fun t ht => hns₂ (hts₁ ht)⟩

lemma grows (h : Later terms l ts l' ts') (hmade : Made terms l ts) : l.Grows l' := by
  obtain ⟨ns, hpop, hns⟩ := hmade.wellFormed
  obtain ⟨-, -, -, -, hgrows⟩ := h.wellFormed hpop hns
  exact hgrows

/-- What types contain is settled once they are at hand. -/
lemma contains_iff (h : Later terms l ts l' ts') (hmade : Made terms l ts) (ha : a ∈ ts) (hb : b ∈ ts) :
    l'.Contains a b ↔ l.Contains a b := by
  obtain ⟨ns, hpop, hns⟩ := hmade.wellFormed
  exact hpop.contains_iff (h.grows hmade) (.node (hns ha)) (.node (hns hb))

/-- Applying a function to types at hand, and what is at hand then. -/
lemma apply {f : Refiner} {t : Ty} (h : Later terms l ts l' ts') (hf : f.Allowed terms ts') (ha : a ∈ ts')
    (hrun : (f.apply (.type a) l').1 = .ok t) : Later terms l ts (f.apply (.type a) l').2 (t :: ts') := by
  have hlater := h.act (.refine f a) ⟨hf, ha⟩
  rw [Act.run, bind_of_ok (Prod.ext hrun rfl)] at hlater
  exact hlater

end Later

lemma Made.supersedes_run (h : Made terms l ts) (hdoc : terms.documented) (ha : a ∈ ts) (hb : b ∈ ts) :
    ∃ answer, (Build.supersedes (.type a) (.type b) l).1 = .ok answer ∧ (answer = true ↔ l.Contains a b) := by
  obtain ⟨ns, hpop, hns⟩ := h.wellFormed
  obtain ⟨answer, _, _, hrun, -, -, -, hiff⟩ := hpop.supersedes_run hdoc (hns ha) (hns hb)
  exact ⟨answer, by rw [hrun], hiff⟩

end Lasting

section Containers

variable {l : Lattice} {ts : List Ty} {outer outer' inner inner' : Ty}

/-- Containers can be made of any types at hand. Whenever they were made and whatever happened since, one
is found to contain another exactly if both take the same out of a value, the outer part of the one leads
down to an equal of the other's outer part and its inner part is found to contain the other's, or else if
the one is found to contain the other's outer part. -/
theorem Made.supersedes_containers_iff (h : Made { documented := True, differences := True } l ts)
    (ho : outer ∈ ts) (ho' : outer' ∈ ts) (hi : inner ∈ ts) (hi' : inner' ∈ ts) (e e' : Fn) :
    (∃ sup, (Build.container (.type outer) e (.type inner) l).1 = .ok sup) ∧
    (∃ sub, (Build.container (.type outer') e' (.type inner') l).1 = .ok sub) ∧
    ∀ sup sub, Resulted ⟨True, True⟩ (.container outer e) inner sup l ts →
      Resulted ⟨True, True⟩ (.container outer' e') inner' sub l ts →
      ∃ found inside around, (Build.supersedes (.type sup) (.type sub) l).1 = .ok found ∧
        (Build.supersedes (.type inner) (.type inner') l).1 = .ok inside ∧
        (Build.supersedes (.type sup) (.type outer') l).1 = .ok around ∧
        (found = true ↔ (e = e' ∧ l.Meets .subsets outer outer' ∧ inside = true) ∨ around = true) := by
  obtain ⟨sup, _, hrun⟩ := h.exists_combined trivial (f := .container outer e) ho hi
  obtain ⟨sub, _, hrun'⟩ := h.exists_combined trivial (f := .container outer' e') ho' hi'
  refine ⟨⟨sup, congrArg Prod.fst hrun⟩, ⟨sub, congrArg Prod.fst hrun'⟩, ?_⟩
  intro sup sub hsup hsub
  obtain ⟨found, hfound, hfoundIff⟩ := h.supersedes_run trivial hsup.mem.2.2 hsub.mem.2.2
  obtain ⟨inside, hinside, hinsideIff⟩ := h.supersedes_run trivial hi hi'
  obtain ⟨around, haround, haroundIff⟩ := h.supersedes_run trivial hsup.mem.2.2 ho'
  refine ⟨found, inside, around, hfound, hinside, haround, ?_⟩
  obtain ⟨ns, hpop, hns⟩ := h.wellFormed
  rw [hfoundIff, hinsideIff, haroundIff, hpop.meets_iff trivial (hns ho)]
  obtain ⟨label, _, _, rfl, -⟩ := Resulted.combines (k := .container e) hsup
  obtain ⟨label', _, _, rfl, -⟩ := Resulted.combines (k := .container e') hsub
  exact hpop.contains_container_iff (.node (hns ho)) (.node (hns ho')) (.node (hns hi)) (.node (hns hi'))
    label label' e e'

/-- Numbers in boxes of their own: the wider container has the union of even and odd on both sides, the
narrower one odd on the outside and even on the inside. -/
theorem Made.supersedes_containers_iff_boxes : ∃ l ts sup sub,
    Made { documented := True, differences := True } l ts ∧
      Resulted ⟨True, True⟩ (.container (boxType 2) (.named "digits")) (boxType 2) sup l ts ∧
      Resulted ⟨True, True⟩ (.container (boxType 4) (.named "digits")) (boxType 5) sub l ts ∧
      (Build.supersedes (.type sup) (.type sub) l).1 = .ok true := by
  have hmade := boxLattice_made { documented := True, differences := True }
  have heither : boxType 2 ∈ boxTypes := by simp [boxType, boxTypes]
  have hodd : boxType 4 ∈ boxTypes := by simp [boxType, boxTypes]
  have heven : boxType 5 ∈ boxTypes := by simp [boxType, boxTypes]
  let sup : Attempt Ty × Lattice :=
    Build.container (.type (boxType 2)) (.named "digits") (.type (boxType 2)) boxLattice
  obtain ⟨wide, hwide⟩ : ∃ wide, sup.1 = .ok wide := ⟨_, rfl⟩
  let sub : Attempt Ty × Lattice :=
    Build.container (.type (boxType 4)) (.named "digits") (.type (boxType 5)) sup.2
  obtain ⟨narrow, hnarrow⟩ : ∃ narrow, sub.1 = .ok narrow := ⟨_, rfl⟩
  have hsup : Resulted ⟨True, True⟩ (.container (boxType 2) (.named "digits")) (boxType 2) wide sup.2
      (wide :: boxTypes) := .now hmade heither heither hwide
  obtain ⟨hsup, hsub⟩ := hsup.next (g := .container (boxType 4) (.named "digits"))
    (List.mem_cons_of_mem wide hodd) (List.mem_cons_of_mem wide heven) (Prod.ext hnarrow rfl)
  have hmem : ∀ {t}, t ∈ boxTypes → t ∈ narrow :: wide :: boxTypes := fun ht => by simp [ht]
  obtain ⟨-, -, hiff⟩ := hsub.made.supersedes_containers_iff (hmem heither) (hmem hodd) (hmem heither)
    (hmem heven) (.named "digits") (.named "digits")
  obtain ⟨found, inside, around, hfound, hinside, -, hiff⟩ := hiff wide narrow hsup hsub
  obtain rfl : true = inside := Except.ok.inj (Eq.trans (by rfl) hinside)
  have hmeets : sub.2.Meets .subsets (boxType 2) (boxType 4) :=
    ⟨_, rfl, (.type (boxType 4), []), by simp [boxType, boxTypes], rfl⟩
  exact ⟨_, _, wide, narrow, hsub.made, hsup, hsub, hiff.mpr (.inl ⟨rfl, hmeets, rfl⟩) ▸ hfound⟩

end Containers

section Equals

variable {l : Lattice} {ts : List Ty} {sup sup' sub : Ty}

/-- A type may be replaced by an equal one when it is asked what it contains: from then on there is one
answer for both, at whatever times the questions are asked. -/
theorem Made.supersedes_of_equal (h : Made { documented := True, differences := True } l ts)
    (hsup : sup ∈ ts) (hsup' : sup' ∈ ts) (hsub : sub ∈ ts) (hequal : sup.equals sup' = .ok true) :
    ∃ answer, ∀ l' ts', Later ⟨True, True⟩ l ts l' ts' →
      (Build.supersedes (.type sup) (.type sub) l').1 = .ok answer ∧
      (Build.supersedes (.type sup') (.type sub) l').1 = .ok answer := by
  obtain ⟨ns, hpop, hns⟩ := h.wellFormed
  have hsame : sup.Same sup' := Ty.equals_iff_same.mp hequal
  have hiff : l.Contains sup sub ↔ l.Contains sup' sub :=
    ⟨hpop.contains_of_same (.node (hns hsup)) (.node (hns hsup')) hsame,
      hpop.contains_of_same (.node (hns hsup')) (.node (hns hsup)) hsame.symm⟩
  obtain ⟨answer, -, hanswer⟩ := h.supersedes_run trivial hsup hsub
  have hlasts : ∀ l' ts', Later ⟨True, True⟩ l ts l' ts' → ∀ s ∈ ts, (l.Contains sup sub ↔ l.Contains s sub) →
      (Build.supersedes (.type s) (.type sub) l').1 = .ok answer := by
    intro l' ts' hlater s hs hsub'
    obtain ⟨answer', hrun, hanswer'⟩ :=
      (hlater.made h).supersedes_run trivial (hlater.subset hs) (hlater.subset hsub)
    rw [hlater.contains_iff h hs hsub, ← hsub', ← hanswer] at hanswer'
    rw [hrun, Bool.eq_iff_iff.mpr hanswer']
  exact ⟨answer, fun l' ts' hlater => ⟨hlasts l' ts' hlater sup hsup .rfl, hlasts l' ts' hlater sup' hsup' hiff⟩⟩

/-- Three tests taken together in two ways, and two of them: one answer, also after another type is made. -/
theorem Made.supersedes_of_equal_grouped :
    Made { documented := True, differences := True } groupedLattice groupedTypes ∧
      (groupedType 0).equals (groupedType 2) = .ok true ∧
      ∀ l' ts', Later ⟨True, True⟩ groupedLattice groupedTypes l' ts' →
        (Build.supersedes (.type (groupedType 0)) (.type (groupedType 2)) l').1 = .ok true ∧
        (Build.supersedes (.type (groupedType 2)) (.type (groupedType 2)) l').1 = .ok true := by
  have hmade := groupedLattice_made { documented := True, differences := True }
  have hequal : (groupedType 0).equals (groupedType 2) = .ok true := rfl
  have hleft : groupedType 0 ∈ groupedTypes := by simp [groupedTypes, groupedType]
  have hright : groupedType 2 ∈ groupedTypes := by simp [groupedTypes, groupedType]
  obtain ⟨answer, hanswer⟩ := hmade.supersedes_of_equal hleft hright hright hequal
  have hnow : (Build.supersedes (.type (groupedType 2)) (.type (groupedType 2)) groupedLattice).1 = .ok true := rfl
  obtain rfl : true = answer := Except.ok.inj (hnow.symm.trans (hanswer _ _ .now).2)
  exact ⟨hmade, hequal, hanswer⟩

end Equals

section Narrowing

/-- The ways to narrow `a` by `b`: a function that is at hand and what it is applied to. -/
def Refiner.narrowings (a b : Ty) (e : Fn) : List (Refiner × Ty) :=
  [(.operator .intersection a, b), (.operator .intersection b, a), (.without a, b), (.container a e, b)]

variable {l : Lattice} {ts : List Ty} {s a b : Ty} {e : Fn} {f : Refiner} {operand : Ty}

lemma Refiner.allowed_of_narrowings (hf : (f, operand) ∈ narrowings a b e) (ha : a ∈ ts) (hb : b ∈ ts) :
    f.Allowed ⟨True, True⟩ ts ∧ operand ∈ ts := by
  simp only [narrowings, List.mem_cons, List.not_mem_nil, or_false, Prod.mk.injEq] at hf
  rcases hf with ⟨rfl, rfl⟩ | ⟨rfl, rfl⟩ | ⟨rfl, rfl⟩ | ⟨rfl, rfl⟩
  · exact ⟨⟨fun _ => trivial, ha⟩, hb⟩
  · exact ⟨⟨fun _ => trivial, hb⟩, ha⟩
  · exact ⟨ha, hb⟩
  · exact ⟨ha, hb⟩

/-- What a type is narrowed to leads up to the type. -/
lemma Resulted.offers_narrowed {terms : Terms} {t : Ty} (h : Resulted terms f operand t l ts)
    (hf : (f, operand) ∈ Refiner.narrowings a b e) : l.Offers .supersets t a := by
  simp only [Refiner.narrowings, List.mem_cons, List.not_mem_nil, or_false, Prod.mk.injEq] at hf
  rcases hf with ⟨rfl, rfl⟩ | ⟨rfl, rfl⟩ | ⟨rfl, rfl⟩ | ⟨rfl, rfl⟩
  · exact ((Resulted.combines (k := .operator .intersection) h).2 .supersets a).mpr (.inl rfl)
  · exact ((Resulted.combines (k := .operator .intersection) h).2 .supersets _).mpr (.inr (.inl rfl))
  · obtain ⟨_, _, _, _, -, -, -, -, -, hoffers⟩ := Resulted.combines (k := .without) h
    exact (hoffers .supersets a).mpr ⟨rfl, rfl⟩
  · obtain ⟨_, _, _, rfl, -⟩ := Resulted.combines (k := .container e) h
    exact .outer

/-- What is found to contain a type is found to contain all that the type is narrowed to, by an
intersection with it on either side, by leaving something out of it or by a container of which it is the
outer part. It can be narrowed at any time, and the question can be asked at any later time. -/
theorem Made.supersedes_narrowed (h : Made { documented := True, differences := True } l ts)
    (hs : s ∈ ts) (ha : a ∈ ts) (hb : b ∈ ts) (hfound : (Build.supersedes (.type s) (.type a) l).1 = .ok true)
    (hf : (f, operand) ∈ Refiner.narrowings a b e) {l' : Lattice} {ts' : List Ty}
    (hlater : Later ⟨True, True⟩ l ts l' ts') :
    (∃ t, (f.apply (.type operand) l').1 = .ok t) ∧
    ∀ t, Resulted ⟨True, True⟩ f operand t l' ts' → (Build.supersedes (.type s) (.type t) l').1 = .ok true := by
  have hmade := hlater.made h
  constructor
  · obtain ⟨hallowed, hoperand⟩ := Refiner.allowed_of_narrowings hf (hlater.subset ha) (hlater.subset hb)
    obtain ⟨t, _, hrun⟩ := hmade.exists_combined trivial hallowed hoperand
    exact ⟨t, congrArg Prod.fst hrun⟩
  · intro t ht
    obtain ⟨ns, hpop, hns⟩ := h.wellFormed
    have hcontains : l'.Contains s a :=
      (hlater.contains_iff h hs ha).mpr (hpop.contains_of_supersedes (hns hs) (hns ha) hfound)
    obtain ⟨answer, hrun, hanswer⟩ := hmade.supersedes_run trivial (hlater.subset hs) ht.mem.2.2
    rw [hrun, hanswer.mpr (hcontains.extend .refl (.single (ht.offers_narrowed hf)))]

/-- A test contains what two tests accept together, so it contains what else is left after a third one. -/
theorem Made.supersedes_narrowed_grouped :
    Made { documented := True, differences := True } groupedLattice groupedTypes ∧
      (Build.supersedes (.type (groupedType 6)) (.type (groupedType 3)) groupedLattice).1 = .ok true ∧
      ∀ f operand, (f, operand) ∈ Refiner.narrowings (groupedType 3) (groupedType 4) (.named "digits") →
        ∃ t, (f.apply (.type operand) groupedLattice).1 = .ok t ∧
          (Build.supersedes (.type (groupedType 6)) (.type t) (f.apply (.type operand) groupedLattice).2).1 =
            .ok true := by
  have hmade := groupedLattice_made { documented := True, differences := True }
  have hfound : (Build.supersedes (.type (groupedType 6)) (.type (groupedType 3)) groupedLattice).1 = .ok true := rfl
  have heven : groupedType 6 ∈ groupedTypes := by simp [groupedTypes, groupedType]
  have hpair : groupedType 3 ∈ groupedTypes := by simp [groupedTypes, groupedType]
  have hsmall : groupedType 4 ∈ groupedTypes := by simp [groupedTypes, groupedType]
  refine ⟨hmade, hfound, fun f operand hf => ?_⟩
  obtain ⟨t, ht⟩ := (hmade.supersedes_narrowed heven hpair hsmall hfound hf .now).1
  obtain ⟨hallowed, hoperand⟩ := Refiner.allowed_of_narrowings hf hpair hsmall
  have hlater := Later.now.apply hallowed hoperand ht
  exact ⟨t, ht, (hmade.supersedes_narrowed heven hpair hsmall hfound hf hlater).2 t
    (.now hmade hallowed hoperand ht)⟩

end Narrowing

end StructuralTypes
