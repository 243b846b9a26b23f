import StructuralTypes.Proofs.CanonicalForm

/-!
# Operators between equal types

Equal types may have different names, and operators put their operands in the order of names and serial
numbers. So what an operator makes of equal types is equal exactly if the operands of both sides can be
paired off, equal with equal, in an order that suits both. Containers keep their two parts apart, so they
are always equal. So do exclusions, except that they merge both sides of an exclusion that they take away.
-/

namespace StructuralTypes

/-- The operands that two sides contribute can be paired off, equal with equal, so that the pairs are
sorted on either side. -/
def PairedInOrder (op : Operator) (a b a' b' : Ty) : Prop :=
  ∃ pairs : List (Ty × Ty), (pairs.map Prod.fst).Perm (a.contribution op ++ b.contribution op) ∧
    (pairs.map Prod.snd).Perm (a'.contribution op ++ b'.contribution op) ∧
    (∀ p ∈ pairs, p.1.equals p.2 = .ok true) ∧
    pairs.Pairwise fun p q => p.1.sortKey ≤ q.1.sortKey ∧ p.2.sortKey ≤ q.2.sortKey

/-- Both constructions succeed if docs always have an entry, and where both do, `P` says whether they
come to equal types. -/
def Compared (documented : Prop) (x y : Attempt Ty) (P : Prop) : Prop :=
  (documented → ∃ s t, x = .ok s ∧ y = .ok t) ∧
    ∀ s t, x = .ok s → y = .ok t → (s.equals t = .ok true ↔ P)

section Sorting

variable {terms : Terms} {l l' : Lattice} {ns ns' : List Ty} {op : Operator} {a b a' b' s t : Ty}

/-- Sorting leaves open at most which of several copies comes first. -/
lemma WellFormed.same_of_sorted (h : WellFormed terms l ns) {as bs : List Ty} (hmem : as ⊆ ns)
    (hperm : as.Perm bs) (hsorted : (as.map Ty.sortKey).Pairwise (· ≤ ·))
    (hsorted' : (bs.map Ty.sortKey).Pairwise (· ≤ ·)) : List.Forall₂ Ty.Same as bs := by
  have hkeys : as.map Ty.sortKey = bs.map Ty.sortKey :=
    List.Perm.eq_of_pairwise (fun _ _ _ _ => le_antisymm) hsorted hsorted' (hperm.map _)
  have horigin := forall₂_sameOrigin hkeys fun a ha b hb hserial =>
    h.sameOrigin a (hmem ha) b (hmem (hperm.mem_iff.mpr hb)) hserial
  have hproper : ∀ a ∈ as, a.Proper := fun a ha => (h.sound a (hmem ha)).regular.proper
  exact ((List.forall₂_and_left as bs).mpr ⟨hproper, horigin⟩).imp fun _ _ horigin₁ =>
    Ty.equals_iff_same.mp (horigin₁.2.agrees horigin₁.1 false)

/-- What an operator makes of two sides is equal exactly if their operands can be paired in order. -/
theorem Merges.equals_iff (h : WellFormed terms l ns) (h' : WellFormed terms l' ns') (ha : a ∈ ns)
    (hb : b ∈ ns) (ha' : a' ∈ ns') (hb' : b' ∈ ns') (hs : Merges op a b s) (ht : Merges op a' b' t) :
    s.equals t = .ok true ↔ PairedInOrder op a b a' b' := by
  obtain ⟨label, ranked, hranked, rfl, -⟩ := hs
  obtain ⟨label', ranked', hranked', rfl, -⟩ := ht
  obtain ⟨-, hsorted⟩ := mergeOperands_sorted hranked
  obtain ⟨-, hsorted'⟩ := mergeOperands_sorted hranked'
  have hperm := mergeOperands_perm hranked
  have hperm' := mergeOperands_perm hranked'
  have hmem := List.Subset.trans hperm.subset (contributions_mem h ha hb op)
  have hmem' := List.Subset.trans hperm'.subset (contributions_mem h' ha' hb' op)
  generalize ranked.map (·.type) = as at *
  generalize ranked'.map (·.type) = bs at *
  rw [Ty.equals_iff_same, Ty.same_compound_iff]
  constructor
  · rintro ⟨-, hoperands⟩
    obtain ⟨hlength, hall⟩ := List.forall₂_iff_zip.mp hoperands
    have hfst : (as.zip bs).map Prod.fst = as := List.map_fst_zip hlength.le
    have hsnd : (as.zip bs).map Prod.snd = bs := List.map_snd_zip hlength.ge
    refine ⟨as.zip bs, by rwa [hfst], by rwa [hsnd], fun p hp => Ty.equals_iff_same.mpr (hall hp), ?_⟩
    rw [← hfst, List.pairwise_map, List.pairwise_map] at hsorted
    rw [← hsnd, List.pairwise_map, List.pairwise_map] at hsorted'
    exact hsorted.and hsorted'
  · rintro ⟨pairs, hfst, hsnd, hequal, hpairs⟩
    have hleft : List.Forall₂ Ty.Same as (pairs.map Prod.fst) := by
      apply h.same_of_sorted hmem (hperm.trans hfst.symm) hsorted
      rw [List.pairwise_map, List.pairwise_map]
      exact hpairs.imp And.left
    have hright : List.Forall₂ Ty.Same bs (pairs.map Prod.snd) := by
      apply h'.same_of_sorted hmem' (hperm'.trans hsnd.symm) hsorted'
      rw [List.pairwise_map, List.pairwise_map]
      exact hpairs.imp And.right
    have hmiddle : List.Forall₂ Ty.Same (pairs.map Prod.fst) (pairs.map Prod.snd) := by
      rw [List.forall₂_map_left_iff, List.forall₂_map_right_iff, List.forall₂_same]
      exact fun p hp => Ty.equals_iff_same.mp (hequal p hp)
    have hback : List.Forall₂ Ty.Same (pairs.map Prod.snd) bs := hright.flip.imp fun _ _ => Ty.Same.symm
    exact ⟨rfl, forall₂_comp (fun _ _ _ => .trans) hleft (forall₂_comp (fun _ _ _ => .trans) hmiddle hback)⟩

/-- What two exclusions take away, given equal types, is equal unless these are exclusions themselves
whose sides cannot be paired in order. -/
lemma Excludes.equals_iff (h : WellFormed terms l ns) (h' : WellFormed terms l' ns') (hb : b ∈ ns)
    (hb' : b' ∈ ns') (hsame : b.Same b') (hs : Excludes b s) (ht : Excludes b' t) :
    s.equals t = .ok true ↔ ∀ label label' left left' right right', b = .without label left right →
      b' = .without label' left' right' → PairedInOrder .union left right left' right' := by
  have hequal := Ty.equals_iff_same.mpr hsame
  cases hsame with
  | without label label' =>
    obtain ⟨hleft, hright⟩ := h.parts_mem hb rfl
    obtain ⟨hleft', hright'⟩ := h'.parts_mem hb' rfl
    rw [Merges.equals_iff h h' hleft hright hleft' hright' hs ht]
    constructor
    · rintro hlined _ _ _ _ _ _ ⟨⟩ ⟨⟩
      exact hlined
    · intro hlined
      exact hlined _ _ _ _ _ _ rfl rfl
  | _ =>
    obtain rfl : s = _ := hs
    obtain rfl : t = _ := ht
    exact iff_of_true hequal fun _ _ _ _ _ _ hb => nomatch hb

lemma Yields.compared {x y : Build Ty} {Q Q' : Lattice → List Ty → Ty → Prop} {P : Prop}
    (hx : Yields terms l ns x Q) (hy : Yields terms l' ns' y Q')
    (hP : ∀ l₁ ns₁ s l₂ ns₂ t, Q l₁ ns₁ s → Q' l₂ ns₂ t → (s.equals t = .ok true ↔ P)) :
    Compared terms.documented (x l).1 (y l').1 P := by
  obtain ⟨ns₁, -, -, -, hanswers, hQ⟩ := hx
  obtain ⟨ns₂, -, -, -, hanswers', hQ'⟩ := hy
  refine ⟨fun hdoc => ?_, fun s t hs ht => hP _ _ s _ _ t (hQ s hs) (hQ' t ht)⟩
  obtain ⟨s, hs⟩ := hanswers hdoc
  obtain ⟨t, ht⟩ := hanswers' hdoc
  exact ⟨s, t, hs, ht⟩

end Sorting

/-- When operators make equal types of equal types: if the operands can be paired in order. Containers always do. The
types on both sides may come from two stages of one lattice, or from two lattices. -/
theorem Made.equal_constructions_iff {documented : Prop} {l l' : Lattice} {ts ts' : List Ty}
    (h : Made { documented, differences := True } l ts) (h' : Made { documented, differences := True } l' ts')
    {a b a' b' : Ty} (ha : a ∈ ts) (hb : b ∈ ts) (ha' : a' ∈ ts') (hb' : b' ∈ ts')
    (hequal : a.equals a' = .ok true) (hequal' : b.equals b' = .ok true) :
    (∀ op, Compared documented (Build.compound op (.type a) (.type b) l).1
      (Build.compound op (.type a') (.type b') l').1 (PairedInOrder op a b a' b')) ∧
    Compared documented (Build.without (.type a) (.type b) l).1 (Build.without (.type a') (.type b') l').1
      (∀ label label' left left' right right', b = .without label left right →
        b' = .without label' left' right' → PairedInOrder .union left right left' right') ∧
    ∀ e, Compared documented (Build.container (.type a) e (.type b) l).1
      (Build.container (.type a') e (.type b') l').1 True := by
  obtain ⟨ns, hpop, hns⟩ := h.wellFormed
  obtain ⟨ns', hpop', hns'⟩ := h'.wellFormed
  have hsame := Ty.equals_iff_same.mp hequal
  have hsame' := Ty.equals_iff_same.mp hequal'
  refine ⟨fun op => ?_, ?_, fun e => ?_⟩
  · refine (yields_compound hpop (fun _ => trivial) (hns ha) (hns hb)).compared
      (yields_compound hpop' (fun _ => trivial) (hns' ha') (hns' hb')) ?_
    rintro _ _ s _ _ t ⟨-, hs, -⟩ ⟨-, ht, -⟩
    exact hs.equals_iff hpop hpop' (hns ha) (hns hb) (hns' ha') (hns' hb') ht
  · refine (makes_without hpop (hns ha) (hns hb)).compared (makes_without hpop' (hns' ha') (hns' hb')) ?_
    rintro _ _ _ _ _ _ ⟨-, label, s, rfl, hs⟩ ⟨-, label', t, rfl, ht⟩
    rw [← hs.equals_iff hpop hpop' (hns hb) (hns' hb') hsame' ht, Ty.equals_iff_same, Ty.equals_iff_same]
    constructor
    · intro hwhole
      cases hwhole with
      | without _ _ _ htaken => exact htaken
    · intro htaken
      exact .without _ _ hsame htaken
  · refine (makes_container hpop (hns ha) (hns hb) e).compared
      (makes_container hpop' (hns' ha') (hns' hb') e) ?_
    rintro _ _ _ _ _ _ ⟨-, label, rfl⟩ ⟨-, label', rfl⟩
    exact iff_true_intro (Ty.equals_iff_same.mpr (.unary _ _ e hsame hsame'))

section Names

/-- One test under three names and another test, in the order of their identities from the last one
down. -/
def namedTypes : List Ty :=
  let test (id : Nat) (name pred : String) : Ty :=
    .predicate ⟨id, id, some [name], some [Build.docLink "predicate"]⟩ (.named pred)
  [test 3 "odd" "odd", test 2 "twofold" "even", test 1 "evens" "even", test 0 "even" "even"]

def namedType (i : Nat) : Ty := namedTypes.getD i default

def namedLattice : Lattice := ⟨#[.empty, .empty, .empty, .empty], 4⟩

lemma namedLattice_made (terms : Terms) : Made terms namedLattice namedTypes :=
  .act (.predicate (.named "odd") none) (.act (.predicate (.named "even") (some "twofold"))
    (.act (.predicate (.named "even") (some "evens")) (.act (.predicate (.named "even") none) .nothing
      trivial) trivial) trivial) trivial

/-- A new name that sorts like the old one makes no difference, nor does what was made in between. -/
theorem Made.equal_constructions_names :
    let after := (Build.compound .union (.type (namedType 3)) (.type (namedType 0)) namedLattice).2
    Made { documented := True, differences := True } namedLattice namedTypes ∧
      (namedType 3).equals (namedType 2) = .ok true ∧ (namedType 0).equals (namedType 0) = .ok true ∧
      PairedInOrder .union (namedType 3) (namedType 0) (namedType 2) (namedType 0) ∧
      ∃ s t, (Build.compound .union (.type (namedType 3)) (.type (namedType 0)) namedLattice).1 = .ok s ∧
        (Build.compound .union (.type (namedType 2)) (.type (namedType 0)) after).1 = .ok t ∧
        s.equals t = .ok true := by
  intro after
  have hmade := namedLattice_made { documented := True, differences := True }
  have heven : namedType 3 ∈ namedTypes := by simp [namedTypes, namedType]
  have hevens : namedType 2 ∈ namedTypes := by simp [namedTypes, namedType]
  have hodd : namedType 0 ∈ namedTypes := by simp [namedTypes, namedType]
  have hallowed : (Refiner.operator .union (namedType 3)).Allowed ⟨True, True⟩ namedTypes :=
    ⟨fun _ => trivial, heven⟩
  obtain ⟨ts, hmade', hts, -⟩ := hmade.preservesMade_apply hallowed hodd
  have hlined : PairedInOrder .union (namedType 3) (namedType 0) (namedType 2) (namedType 0) := by
    refine ⟨[(namedType 3, namedType 2), (namedType 0, namedType 0)], .refl _, .refl _, ?_, ?_⟩
    · intro p hp
      rcases List.mem_pair.mp hp with rfl | rfl <;> rfl
    · exact List.pairwise_pair.mpr (by decide)
  obtain ⟨hoperators, -⟩ := hmade.equal_constructions_iff hmade' heven hodd (hts hevens) (hts hodd) rfl rfl
  obtain ⟨hanswers, hiff⟩ := hoperators .union
  obtain ⟨s, t, hs, ht⟩ := hanswers trivial
  exact ⟨hmade, rfl, rfl, hlined, s, t, hs, ht, (hiff s t hs ht).mpr hlined⟩

/-- A new name that sorts differently makes the results unequal. -/
theorem renamed_operand_moves :
    Made { documented := True, differences := True } namedLattice namedTypes ∧
      (namedType 3).equals (namedType 1) = .ok true ∧ (namedType 0).equals (namedType 0) = .ok true ∧
      ((do
        let s ← Build.compound .intersection (.type (namedType 3)) (.type (namedType 0))
        let t ← Build.compound .intersection (.type (namedType 1)) (.type (namedType 0))
        Build.ofAttempt (s.equals t)) namedLattice).1 = .ok false :=
  ⟨namedLattice_made _, rfl, rfl, rfl⟩

end Names

end StructuralTypes
