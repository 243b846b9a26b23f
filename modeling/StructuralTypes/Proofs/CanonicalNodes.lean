import StructuralTypes.Proofs.LastingEdges
import StructuralTypes.Proofs.MetadataCopies

/-!
# Nodes in canonical form

A union or an intersection in canonical form keeps its operands flat and sorted and leads to them, each of them
once. A type is deeply canonical if this holds of all that it leads to, part by part and edge by edge, and if
all edges are worked out there except those of containers. Constructors preserve that: what lies above the
operands of an intersection, through however many intersections, are just the operands that they contribute.
-/

namespace StructuralTypes

/-- Operands as an operator keeps them: two or more, none of them made by the operator itself, in the order of
canonical names and, among equal names, of serial numbers. -/
structure Operator.Keeps (op : Operator) (ts : List Ty) : Prop where
  two_le : 2 ≤ ts.length
  flat : ∀ t ∈ ts, t.isMadeBy op = false
  named : ∀ t ∈ ts, ∃ name, t.canonicalName = .ok name
  sorted : (ts.map Ty.sortKey).Pairwise (· ≤ ·)

namespace Lattice

/-- The edges of one kind stored for a node lead to the types that are `P`, to each of them once. -/
def Holds (l : Lattice) (d : Direction) (id : Nat) (P : Ty → Prop) : Prop :=
  ∃ us : List Ty, l.stored? d id = some (us.map .type) ∧ (us.map Ty.id).Nodup ∧ ∀ u, u ∈ us ↔ P u

/-- The intersection of `left` and `right` came out as the type, at some point before the lattice became what
it is, or as a type that this one was copied from. -/
inductive Intersects (l : Lattice) (left right : Ty) : Ty → Prop
  | made {l₀ l₁ : Lattice} {t : Ty} :
      Build.compound .intersection (.type left) (.type right) l₀ = (.ok t, l₁) → l₁.Grows l →
      Intersects l left right t
  | copied {l₀ l₁ : Lattice} {t u : Ty} {names? docs? : Option (List String)} : Intersects l left right t →
      Build.relabel t names? docs? l₀ = (.ok u, l₁) → l₁.Grows l → Intersects l left right u

/-- How unions and intersections are kept. A union leads down to its operands, and an intersection leads up to
its operands and to the two types that it was made of. -/
def Canonical (l : Lattice) : Ty → Prop
  | .compound label .union ts =>
    Operator.union.Keeps ts ∧ l.Holds .subsets label.id (· ∈ ts) ∧ l.stored? .supersets label.id = some []
  | .compound label .intersection ts =>
    Operator.intersection.Keeps ts ∧ l.stored? .subsets label.id = some [] ∧
      ∃ left right, l.Intersects left right (.compound label .intersection ts) ∧
        l.Holds .supersets label.id fun u => u ∈ ts ∨ u = left ∨ u = right
  | _ => True

/-- All that a type leads to is canonical, and except for containers its edges are worked out. -/
inductive DeeplyCanonical (l : Lattice) : Ty → Prop
  | node {t : Ty} (us : Direction → List Ty) : t.isContainer = false → l.Canonical t →
      (∀ p ∈ t.parts, DeeplyCanonical l p) → (∀ d, l.stored? d t.id = some ((us d).map .type)) →
      (∀ d, ∀ u ∈ us d, DeeplyCanonical l u) → DeeplyCanonical l t
  | container {outer inner : Ty} (label : Label) (extractor : Fn) : DeeplyCanonical l outer → DeeplyCanonical l inner →
      DeeplyCanonical l (.unary label outer extractor inner)

variable {l l' : Lattice} {t u left right : Ty}

lemma Holds.mono (hgrows : l.Grows l') {d : Direction} {id : Nat} {P : Ty → Prop} (h : l.Holds d id P) :
    l'.Holds d id P := by
  obtain ⟨us, hus, hrest⟩ := h
  exact ⟨us, hgrows d id _ hus, hrest⟩

lemma Intersects.mono (hgrows : l.Grows l') (h : l.Intersects left right t) : l'.Intersects left right t := by
  induction h with
  | made hrun hl => exact .made hrun (hl.trans hgrows)
  | copied _ hrun hl ih => exact .copied ih hrun (hl.trans hgrows)

lemma Canonical.mono (hgrows : l.Grows l') (h : l.Canonical t) : l'.Canonical t := by
  cases t with
  | compound label op ts =>
    cases op with
    | union => exact ⟨h.1, h.2.1.mono hgrows, hgrows _ _ _ h.2.2⟩
    | intersection =>
      obtain ⟨hkeeps, hbelow, left, right, hmade, habove⟩ := h
      exact ⟨hkeeps, hgrows _ _ _ hbelow, left, right, hmade.mono hgrows, habove.mono hgrows⟩
    | difference => trivial
  | _ => trivial

namespace DeeplyCanonical

lemma mono (hgrows : l.Grows l') (h : l.DeeplyCanonical t) : l'.DeeplyCanonical t := by
  induction h with
  | node us hleaf hcanonical _ hus _ ihparts ihedges =>
    exact .node us hleaf (hcanonical.mono hgrows) ihparts (fun d => hgrows d _ _ (hus d)) ihedges
  | container label extractor _ _ iho ihi => exact .container label extractor iho ihi

lemma canonical (h : l.DeeplyCanonical t) : l.Canonical t := by
  cases h with
  | node _ _ hcanonical => exact hcanonical
  | container => trivial

lemma part (h : l.DeeplyCanonical t) {p : Ty} (hp : p ∈ t.parts) : l.DeeplyCanonical p := by
  cases h with
  | node _ _ _ hparts => exact hparts p hp
  | container _ _ ho hi =>
    rcases List.mem_pair.mp hp with rfl | rfl
    · exact ho
    · exact hi

lemma contribution (h : l.DeeplyCanonical t) {op : Operator} (hu : u ∈ t.contribution op) : l.DeeplyCanonical u := by
  rcases Ty.contribution_parts hu with rfl | hpart
  · exact h
  · exact h.part hpart

lemma settled (h : l.DeeplyCanonical t) (hleaf : t.isContainer = false) (d : Direction) :
    ∃ us : List Ty, l.stored? d t.id = some (us.map .type) ∧ ∀ u ∈ us, l.DeeplyCanonical u := by
  cases h with
  | node us _ _ _ hus hedges => exact ⟨us d, hus d, hedges d⟩
  | container => cases hleaf

/-- The numbers of containers play no part. -/
lemma sameUpToNumbers (h : l.DeeplyCanonical t) (hnumbers : u.SameUpToNumbers t) : l.DeeplyCanonical u := by
  induction hnumbers with
  | refl => exact h
  | unary extractor _ _ _ _ iho ihi =>
    exact .container _ extractor (iho (h.part List.mem_cons_self)) (ihi (h.part (by simp [Ty.parts])))

end DeeplyCanonical

end Lattice

section Predictions

variable {l : Lattice} {t : Ty}

/-- What a deeply canonical type offers is deeply canonical. -/
lemma Lattice.DeeplyCanonical.offers {u : Ty} {d : Direction} (h : l.DeeplyCanonical t) (hu : l.Offers d t u) :
    l.DeeplyCanonical u := by
  have hparts : ∀ {label : Label} {outer inner : Ty} {extractor : Fn},
      l.DeeplyCanonical (.unary label outer extractor inner) → l.DeeplyCanonical outer ∧ l.DeeplyCanonical inner :=
    fun h => ⟨h.part List.mem_cons_self, h.part (by simp [Ty.parts])⟩
  induction hu with
  | stored hleaf hedge =>
    obtain ⟨us, hus, hcanon⟩ := h.settled hleaf _
    exact hcanon _ ((Lattice.edge_iff hus).mp hedge)
  | narrowInner _ ih => exact .container _ _ (hparts h).1 (ih (hparts h).2)
  | narrowOuter _ ih => exact .container _ _ (ih (hparts h).1) (hparts h).2
  | narrowBoth _ _ iho ihi => exact .container _ _ (iho (hparts h).1) (ihi (hparts h).2)
  | outer => exact (hparts h).1
  | widenInner _ ih => exact .container _ _ (hparts h).1 (ih (hparts h).2)

lemma Lattice.DeeplyCanonical.matching (h : l.DeeplyCanonical t) {d : Direction} {rs : List Referent}
    (hrs : l.Matching d t rs) {u : Ty} (hu : .type u ∈ rs) : l.DeeplyCanonical u := by
  obtain ⟨us, vs, rfl, hvs, hnumbers⟩ := hrs
  obtain ⟨u', hu', hsame⟩ := List.mem_map.mp hu
  obtain rfl := Referent.type.inj hsame
  obtain ⟨v, hv, huv⟩ := exists_related_right hnumbers hu'
  exact (h.offers (Lattice.offers_of_predicted hvs hv)).sameUpToNumbers huv

end Predictions

section Merging

variable {l l' : Lattice} {op : Operator} {a b p t : Ty}

lemma Operator.absorbs_iff (hop : op ≠ .difference) (inner : Operator) : op.absorbs inner = true ↔ inner = op := by
  cases op <;> simp_all [Operator.absorbs]

/-- What a canonical type contributes to an operator is at least one type, none of them made by the operator. -/
lemma Lattice.Canonical.contribution (h : l.Canonical t) (hop : op ≠ .difference) :
    t.contribution op ≠ [] ∧ ∀ u ∈ t.contribution op, u.isMadeBy op = false := by
  by_cases hmade : t.isMadeBy op = true
  · obtain ⟨label, ts, rfl⟩ := Ty.exists_of_isMadeBy hmade
    have hkeeps : op.Keeps ts := by
      cases op with
      | union => exact h.1
      | intersection => exact h.1
      | difference => exact (hop rfl).elim
    rw [contribution_compound]
    refine ⟨?_, hkeeps.flat⟩
    rintro rfl
    exact absurd hkeeps.two_le (by simp)
  · have hself : t.contribution op = [t] := by
      apply Ty.contribution_eq_singleton
      cases t with
      | compound label inner ts =>
        rw [Ty.absorbed?, if_neg]
        rw [Operator.absorbs_iff hop]
        simpa [Ty.isMadeBy] using hmade
      | _ => rfl
    rw [hself]
    exact ⟨List.cons_ne_nil t [], by simpa using hmade⟩

lemma Ty.contribution_of_flat (h : t.isMadeBy .intersection = false) : t.contribution .intersection = [t] :=
  Ty.contribution_eq_singleton (Ty.absorbed?_intersection h)

/-- Operands that are merged are sorted, and there are as many of them and of the kinds that the two sides
contribute. -/
lemma keeps_of_contributions {op' : Operator} {ranked : List Ranked}
    (h : mergeOperands op (.type a) (.type b) = .ok ranked)
    (ha : a.contribution op ≠ [] ∧ ∀ u ∈ a.contribution op, u.isMadeBy op' = false)
    (hb : b.contribution op ≠ [] ∧ ∀ u ∈ b.contribution op, u.isMadeBy op' = false) :
    op'.Keeps (ranked.map (·.type)) := by
  have hperm := mergeOperands_perm h
  refine ⟨?_, fun t ht => ?_, fun t ht => ?_, (mergeOperands_sorted h).2⟩
  · have hapos := List.length_pos_of_ne_nil ha.1
    have hbpos := List.length_pos_of_ne_nil hb.1
    rw [hperm.length_eq, List.length_append]
    omega
  · rcases List.mem_append.mp (hperm.mem_iff.mp ht) with ht | ht
    · exact ha.2 t ht
    · exact hb.2 t ht
  · obtain ⟨ts, as, -, has, rfl⟩ := mergeOperands_sorts h
    obtain ⟨ranked, hranked, rfl⟩ := List.mem_map.mp ht
    obtain ⟨r, hr, hrank⟩ := exists_related_left has ((sort_perm as).mem_iff.mp hranked)
    obtain ⟨t, -, rfl⟩ := List.mem_map.mp hr
    rw [ofReferent_type hrank]
    rw [ofReferent_eq] at hrank
    obtain ⟨name, hname, -⟩ := ok_of_attempt hrank
    exact ⟨name, hname⟩

/-- What operators merge of canonical operands they keep as it should be kept. -/
lemma keeps_of_merge (hop : op ≠ .difference) (ha : l.Canonical a) (hb : l.Canonical b) {ranked : List Ranked}
    (h : mergeOperands op (.type a) (.type b) = .ok ranked) : op.Keeps (ranked.map (·.type)) :=
  keeps_of_contributions h (ha.contribution hop) (hb.contribution hop)

lemma Lattice.Intersects.perm {left right : Ty} (h : l.Intersects left right t) : ∃ label ts,
    t = .compound label .intersection ts ∧
      ts.Perm (left.contribution .intersection ++ right.contribution .intersection) := by
  induction h with
  | made hrun _ =>
    obtain ⟨edges, ⟨label, ranked, hranked, rfl, -⟩, -⟩ := merged_of_compound hrun
    exact ⟨label, _, rfl, mergeOperands_perm hranked⟩
  | copied _ hrun _ ih =>
    obtain ⟨label, ts, rfl, hperm⟩ := ih
    obtain ⟨hu, -⟩ := Prod.mk.inj hrun
    obtain rfl := Except.ok.inj hu
    exact ⟨_, ts, rfl, hperm⟩

lemma map_type_injective : Function.Injective (List.map Referent.type) :=
  List.map_injective_iff.mpr fun _ _ => Referent.type.inj

/-- What lies above a deeply canonical type are the operands that it contributes to an intersection. -/
lemma Lattice.DeeplyCanonical.mem_supersetLeaves (h : l.DeeplyCanonical t) {depth : Nat} {rs : List Referent}
    (hrs : supersetLeaves l depth (.type t) = .ok rs) (r : Referent) :
    r ∈ rs ↔ ∃ u ∈ t.contribution .intersection, r = .type u := by
  induction depth generalizing t rs with
  | zero => cases hrs
  | succ depth ih =>
    by_cases hmade : t.isMadeBy .intersection = true
    · obtain ⟨label, ts, rfl⟩ := Ty.exists_of_isMadeBy hmade
      obtain ⟨hkeeps, -, left, right, hmade, us, hus, -, hiff⟩ := h.canonical
      obtain ⟨_, _, ⟨⟩, hperm⟩ := hmade.perm
      obtain ⟨us', hus', hcanon⟩ := h.settled rfl .supersets
      obtain rfl : us' = us := map_type_injective (Option.some.inj (hus'.symm.trans hus))
      -- an operand contributes itself, and the two types that it was made of contribute just operands
      have hcontributes : ∀ u ∈ us', u.contribution .intersection ⊆ ts := by
        intro u hu
        rcases (hiff u).mp hu with hu | rfl | rfl
        · rw [Ty.contribution_of_flat (hkeeps.flat u hu)]
          exact fun v hv => List.mem_singleton.mp hv ▸ hu
        · exact fun v hv => hperm.mem_iff.mpr (List.mem_append_left _ hv)
        · exact fun v hv => hperm.mem_iff.mpr (List.mem_append_right _ hv)
      rw [supersetLeaves, hus, Option.getD_some] at hrs
      obtain ⟨parts, hparts, hflat⟩ := ok_of_attempt hrs
      obtain rfl : parts.flatten = rs := Except.ok.inj hflat
      have hforall := forall₂_of_mapM hparts
      rw [List.forall₂_map_left_iff] at hforall
      rw [contribution_compound, List.mem_flatten]
      constructor
      · rintro ⟨part, hpart, hr⟩
        obtain ⟨u, hu, hleaves⟩ := exists_related_left hforall hpart
        obtain ⟨v, hv, rfl⟩ := (ih (hcanon u hu) hleaves).mp hr
        exact ⟨v, hcontributes u hu hv, rfl⟩
      · rintro ⟨v, hv, rfl⟩
        have hu := (hiff v).mpr (.inl hv)
        obtain ⟨part, hpart, hleaves⟩ := exists_related_right hforall hu
        refine ⟨part, hpart, (ih (hcanon v hu) hleaves).mpr ⟨v, ?_, rfl⟩⟩
        rw [Ty.contribution_of_flat (hkeeps.flat v hv)]
        exact List.mem_singleton_self v
    · have hflat : t.isMadeBy .intersection = false := by simpa using hmade
      obtain rfl : [.type t] = rs := Except.ok.inj ((supersetLeaves_self l depth hflat).symm.trans hrs)
      rw [Ty.contribution_of_flat hflat]
      simp only [List.mem_singleton, exists_eq_left]

/-- What a deeply canonical type adds to the subsets of a union are the operands that it contributes. -/
lemma Lattice.DeeplyCanonical.subsetPart (h : l.DeeplyCanonical t) : ∃ us : List Ty,
    (subsetPart? l (.type t)).getD [.type t] = us.map .type ∧ ∀ u, u ∈ us ↔ u ∈ t.contribution .union := by
  cases t with
  | compound label op ts =>
    cases op with
    | union =>
      obtain ⟨-, ⟨us, hus, -, hiff⟩, -⟩ := h.canonical
      refine ⟨us, ?_, hiff⟩
      rw [subsetPart?, hus]
      rfl
    | _ => exact ⟨[_], rfl, fun _ => Iff.rfl⟩
  | _ => exact ⟨[_], rfl, fun _ => Iff.rfl⟩

end Merging

section Nodes

variable {l l' : Lattice} {ns : List Ty} {a b t u : Ty}

/-- A new node is deeply canonical if it is canonical and all that it leads to is deeply canonical. -/
lemma deeplyCanonical_of_edges (hgrows : l.Grows l') (hleaf : t.isContainer = false) (hcanonical : l'.Canonical t)
    (hparts : ∀ p ∈ t.parts, l.DeeplyCanonical p)
    (hedges : ∀ d, ∃ us : List Ty, l'.stored? d t.id = some (us.map .type) ∧ ∀ u ∈ us, l.DeeplyCanonical u) :
    l'.DeeplyCanonical t := by
  choose us hus hcanon using hedges
  exact .node us hleaf hcanonical (fun p hp => (hparts p hp).mono hgrows) hus
    fun d u hu => (hcanon d u hu).mono hgrows

lemma NodeEnumeration.dropRepeats (h : NodeEnumeration True l ns) {ts : List Ty} (hts : ts ⊆ ns) : ∃ us : List Ty,
    dropRepeats (ts.map .type) = .ok (us.map .type) ∧ (us.map Ty.id).Nodup ∧ ∀ u, u ∈ us ↔ u ∈ ts :=
  dropRepeats_unique fun _ ht _ hu => h.unique (hts ht) (hts hu)

/-- An intersection of deeply canonical types leads up to the two types and to what they contribute, and to
nothing twice. -/
lemma NodeEnumeration.intersectionSupersets (h : NodeEnumeration True l ns) (ha : a ∈ ns) (hb : b ∈ ns)
    (hacanon : l.DeeplyCanonical a) (hbcanon : l.DeeplyCanonical b) {rs : List Referent}
    (hrs : intersectionSupersets l (.type a) (.type b) = .ok rs) :
    ∃ us : List Ty, rs = us.map .type ∧ (us.map Ty.id).Nodup ∧ ∀ u, u ∈ us ↔
      u ∈ a.contribution .intersection ++ b.contribution .intersection ∨ u = a ∨ u = b := by
  obtain ⟨aboveLeft, hleft, hrs⟩ := ok_of_attempt hrs
  obtain ⟨aboveRight, hright, hrs⟩ := ok_of_attempt hrs
  have hleftIff := hacanon.mem_supersetLeaves hleft
  have hrightIff := hbcanon.mem_supersetLeaves hright
  obtain ⟨ls, rfl, hls⟩ := exists_types (P := (· ∈ a.contribution .intersection)) fun r hr =>
    ((hleftIff r).mp hr).imp fun _ hu => hu.symm
  obtain ⟨rs', rfl, hrs'⟩ := exists_types (P := (· ∈ b.contribution .intersection)) fun r hr =>
    ((hrightIff r).mp hr).imp fun _ hu => hu.symm
  have hmem : a :: b :: (ls ++ rs') ⊆ ns := by
    refine List.cons_subset.mpr ⟨ha, List.cons_subset.mpr ⟨hb, List.append_subset.mpr ⟨?_, ?_⟩⟩⟩
    · exact fun u hu => h.contribution_mem ha _ (hls u hu)
    · exact fun u hu => h.contribution_mem hb _ (hrs' u hu)
  obtain ⟨us, hus, hnodup, hiff⟩ := h.dropRepeats hmem
  refine ⟨us, ?_, hnodup, fun u => ?_⟩
  · rw [List.map_cons, List.map_cons, List.map_append] at hus
    exact Except.ok.inj (hrs.symm.trans hus)
  · have hleftIff := hleftIff (.type u)
    have hrightIff := hrightIff (.type u)
    simp only [List.mem_map, Referent.type.injEq, exists_eq_right, exists_eq_right'] at hleftIff hrightIff
    rw [hiff, List.mem_cons, List.mem_cons, List.mem_append, List.mem_append, hleftIff, hrightIff]
    tauto

lemma NodeEnumeration.unionSubsets (h : NodeEnumeration True l ns) (ha : a ∈ ns) (hb : b ∈ ns)
    (hacanon : l.DeeplyCanonical a) (hbcanon : l.DeeplyCanonical b) :
    ∃ us : List Ty, StructuralTypes.dropRepeats (unionSubsets l (.type a) (.type b)) = .ok (us.map .type) ∧
      (us.map Ty.id).Nodup ∧ ∀ u, u ∈ us ↔ u ∈ a.contribution .union ++ b.contribution .union := by
  obtain ⟨ls, hls, hleft⟩ := hacanon.subsetPart
  obtain ⟨rs, hrs, hright⟩ := hbcanon.subsetPart
  obtain ⟨vs, hvs, hperm⟩ := splice_perm hls hrs
  have hvsIff : ∀ v, v ∈ vs ↔ v ∈ a.contribution .union ++ b.contribution .union := by
    intro v
    rw [hperm.mem_iff, List.mem_append, List.mem_append, hleft, hright]
  have hmem : vs ⊆ ns := by
    intro v hv
    rcases List.mem_append.mp ((hvsIff v).mp hv) with hv | hv
    · exact h.contribution_mem ha _ hv
    · exact h.contribution_mem hb _ hv
  obtain ⟨us, hus, hnodup, hiff⟩ := h.dropRepeats hmem
  exact ⟨us, by rw [unionSubsets_eq, hvs, hus], hnodup, fun u => (hiff u).trans (hvsIff u)⟩

/-- Where the edges of the result of an operator lead, given the two operands. -/
def Operator.Targets (a b : Ty) : Operator → Direction → Ty → Prop
  | .intersection, .supersets, u => u ∈ a.contribution .intersection ++ b.contribution .intersection ∨ u = a ∨ u = b
  | .union, .subsets, u => u ∈ a.contribution .union ++ b.contribution .union
  | .difference, .supersets, u => u = a ∨ u = b
  | _, _, _ => False

lemma Operator.Targets.deeplyCanonical {op : Operator} {d : Direction} (h : op.Targets a b d u)
    (ha : l.DeeplyCanonical a) (hb : l.DeeplyCanonical b) : l.DeeplyCanonical u := by
  have hcontribution : ∀ op' : Operator, u ∈ a.contribution op' ++ b.contribution op' → l.DeeplyCanonical u := by
    intro op' hu
    rcases List.mem_append.mp hu with hu | hu
    · exact ha.contribution hu
    · exact hb.contribution hu
  cases op <;> cases d <;> try exact h.elim
  · rcases h with h | rfl | rfl
    · exact hcontribution .intersection h
    · exact ha
    · exact hb
  · exact hcontribution .union h
  · rcases h with rfl | rfl
    · exact ha
    · exact hb

/-- The edges that an operator declares on deeply canonical operands lead to its targets. Only those of a
difference may lead to one of them twice. -/
lemma NodeEnumeration.declaredEdges (h : NodeEnumeration True l ns) (ha : a ∈ ns) (hb : b ∈ ns)
    (hacanon : l.DeeplyCanonical a) (hbcanon : l.DeeplyCanonical b) {op : Operator} {edges : Edges}
    (hedges : Build.declaredEdges l (.type a) (.type b) op = .ok edges) (d : Direction) :
    ∃ us : List Ty, edges.get? d = some (us.map .type) ∧ (op ≠ .difference → (us.map Ty.id).Nodup) ∧ ∀ u, u ∈ us ↔
      op.Targets a b d u := by
  have hnone : (op ≠ .difference → (([] : List Ty).map Ty.id).Nodup) ∧ ∀ u, u ∈ ([] : List Ty) ↔ False :=
    ⟨fun _ => List.nodup_nil, fun u => iff_of_false List.not_mem_nil not_false⟩
  cases op with
  | intersection =>
    obtain ⟨rs, hrs, hedges⟩ := ok_of_attempt hedges
    obtain rfl := Except.ok.inj hedges
    obtain ⟨us, rfl, hnodup, hiff⟩ := h.intersectionSupersets ha hb hacanon hbcanon hrs
    cases d with
    | subsets => exact ⟨[], rfl, hnone⟩
    | supersets => exact ⟨us, rfl, fun _ => hnodup, hiff⟩
  | union =>
    obtain ⟨us, hus, hnodup, hiff⟩ := h.unionSubsets ha hb hacanon hbcanon
    rw [Build.declaredEdges, hus] at hedges
    obtain rfl := Except.ok.inj hedges
    cases d with
    | subsets => exact ⟨us, rfl, fun _ => hnodup, hiff⟩
    | supersets => exact ⟨[], rfl, hnone⟩
  | difference =>
    obtain rfl := Except.ok.inj hedges
    cases d with
    | subsets => exact ⟨[], rfl, hnone⟩
    | supersets => exact ⟨[a, b], rfl, fun hop => absurd rfl hop, fun u => by simp [Operator.Targets]⟩

lemma deeplyCanonical_of_compound {op : Operator} (h : NodeEnumeration True l ns) (ha : a ∈ ns) (hb : b ∈ ns)
    (hacanon : l.DeeplyCanonical a) (hbcanon : l.DeeplyCanonical b)
    (hrun : Build.compound op (.type a) (.type b) l = (.ok t, l')) : l'.DeeplyCanonical t := by
  have hgrows := Extending.grows_of_run (extending_compound op (.type a) (.type b)) hrun
  -- the serial number is taken before the edges are worked out
  have henum : NodeEnumeration True { l with nextSerial := l.nextSerial + 1 } ns := h.withSerial (Nat.le_succ _)
  have hserial : l.Grows { l with nextSerial := l.nextSerial + 1 } := fun _ _ _ hrs => hrs
  have hmerged := merged_of_compound hrun
  obtain ⟨edges, ⟨label, ranked, hranked, rfl, -⟩, hedges, hstored⟩ := hmerged
  choose us hus hnodup hiff using henum.declaredEdges ha hb (hacanon.mono hserial) (hbcanon.mono hserial) hedges
  have hstored' : ∀ d, l'.stored? d label.id = some ((us d).map .type) := fun d => (hstored d).trans (hus d)
  have hempty : ∀ d, (∀ u, ¬op.Targets a b d u) → l'.stored? d label.id = some [] := by
    intro d hd
    have hnil : us d = [] := List.eq_nil_iff_forall_not_mem.mpr fun u hu => hd u ((hiff d u).mp hu)
    rw [hstored', hnil]
    rfl
  have hperm := mergeOperands_perm hranked
  refine .node us rfl ?_ (fun p hp => ?_) hstored' fun d u hu => ?_
  · cases op with
    | intersection =>
      have hkeeps := keeps_of_merge (by decide) hacanon.canonical hbcanon.canonical hranked
      refine ⟨hkeeps, hempty .subsets fun _ hu => hu, a, b, .made hrun (.refl l'), us .supersets, hstored' .supersets,
        hnodup .supersets (by decide), fun u => ?_⟩
      exact (hiff .supersets u).trans (or_congr_left hperm.mem_iff.symm)
    | union =>
      have hkeeps := keeps_of_merge (by decide) hacanon.canonical hbcanon.canonical hranked
      refine ⟨hkeeps, ⟨us .subsets, hstored' .subsets, hnodup .subsets (by decide), fun u => ?_⟩,
        hempty .supersets fun _ hu => hu⟩
      exact (hiff .subsets u).trans hperm.mem_iff.symm
    | difference => trivial
  · rcases List.mem_append.mp (hperm.mem_iff.mp hp) with hp | hp
    · exact (hacanon.contribution hp).mono hgrows
    · exact (hbcanon.contribution hp).mono hgrows
  · exact (((hiff d u).mp hu).deeplyCanonical hacanon hbcanon).mono hgrows

/-- A copy of a canonical type has its operands and its edges, and so it is canonical, too. -/
lemma Lattice.Canonical.copy (h : l'.Canonical t) (hstored : ∀ d, l'.stored? d t.id = l'.stored? d u.id)
    {names? docs? : Option (List String)} (hrun : Build.relabel t names? docs? l = (.ok u, l')) :
    l'.Canonical u := by
  have hu := Except.ok.inj (congrArg Prod.fst hrun)
  cases t with
  | compound label op ts =>
    subst hu
    cases op with
    | union =>
      obtain ⟨hkeeps, ⟨us, hus, hrest⟩, habove⟩ := h
      exact ⟨hkeeps, ⟨us, (hstored .subsets).symm.trans hus, hrest⟩, (hstored .supersets).symm.trans habove⟩
    | intersection =>
      obtain ⟨hkeeps, hbelow, left, right, hmade, us, hus, hrest⟩ := h
      exact ⟨hkeeps, (hstored .subsets).symm.trans hbelow, left, right, .copied hmade hrun (.refl l'), us,
        (hstored .supersets).symm.trans hus, hrest⟩
    | difference => trivial
  | _ =>
    subst hu
    trivial

lemma deeplyCanonical_of_relabel (hlt : t.id < l.entries.size) (hcanon : l.DeeplyCanonical t)
    {names? docs? : Option (List String)} (hrun : Build.relabel t names? docs? l = (.ok u, l')) :
    l'.DeeplyCanonical u := by
  have hgrows := Extending.grows_of_run (extending_relabel t names? docs?) hrun
  have hu := Except.ok.inj (congrArg Prod.fst hrun)
  have hstored := stored?_of_relabel hlt hrun
  have hcanonical := (hcanon.canonical.mono hgrows).copy hstored hrun
  cases hcanon with
  | node us hleaf _ hparts hus hedges =>
    refine deeplyCanonical_of_edges hgrows ?_ hcanonical ?_ fun d => ⟨us d, ?_, hedges d⟩
    · rw [← hu]
      cases t <;> exact hleaf
    · rw [← hu]
      simpa using hparts
    · rw [← hstored]
      exact hgrows d _ _ (hus d)
  | container label extractor ho hi =>
    rw [← hu]
    exact .container _ extractor (ho.mono hgrows) (hi.mono hgrows)

end Nodes

end StructuralTypes
