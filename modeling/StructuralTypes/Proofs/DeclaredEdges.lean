import StructuralTypes.Proofs.WellFormedLattices

/-!
# What operators declare

The operands of an operator are what its two sides contribute, flattened and sorted, and the edges it
declares lead to nodes of the lattice: from a union to its operands, and from an intersection or a
difference to nodes that contribute nothing else than it is made of.
-/

namespace StructuralTypes

section Operands

lemma insert_eq (a : Ranked) (rs : List Ranked) :
    a.insert rs = rs.orderedInsert (fun a b => a.precedes b = true) a := by
  induction rs with
  | nil => rfl
  | cons b rs ih => rw [Ranked.insert, List.orderedInsert, ih]

lemma sort_eq (rs : List Ranked) :
    Ranked.sort rs = rs.insertionSort (fun a b => a.precedes b = true) := by
  induction rs with
  | nil => rfl
  | cons a rs ih => rw [Ranked.sort, insert_eq, List.insertionSort_cons, ih]

lemma sort_perm (rs : List Ranked) : (Ranked.sort rs).Perm rs := by
  rw [sort_eq]
  exact List.perm_insertionSort _ rs

/-- Two operands contribute all that each of them contributes. -/
lemma splice_perm {part? : Referent → Option (List Referent)} {left right : Ty} {ls rs : List Ty}
    (hleft : (part? (.type left)).getD [.type left] = ls.map .type)
    (hright : (part? (.type right)).getD [.type right] = rs.map .type) :
    ∃ ts : List Ty, splice part? (.type left) (.type right) = ts.map .type ∧ ts.Perm (ls ++ rs) := by
  unfold splice
  rcases hl : part? (.type left) with _ | ls' <;> rcases hr : part? (.type right) with _ | rs' <;>
    rw [hl, Option.getD] at hleft <;> rw [hr, Option.getD] at hright <;> dsimp only at hleft hright ⊢
  · refine ⟨ls ++ rs, ?_, List.Perm.refl _⟩
    rw [List.map_append, ← hleft, ← hright]
    rfl
  · refine ⟨rs ++ ls, ?_, List.perm_append_comm⟩
    rw [List.map_append, ← hleft, ← hright]
  · refine ⟨ls ++ rs, ?_, List.Perm.refl _⟩
    rw [List.map_append, ← hleft, ← hright]
  · refine ⟨ls ++ rs, ?_, List.Perm.refl _⟩
    rw [List.map_append, ← hleft, ← hright]

lemma ofReferent_eq (t : Ty) :
    Ranked.ofReferent (.type t) = (do return ⟨← t.canonicalName, t.serial, t⟩) := rfl

lemma ofReferent_type {t : Ty} {a : Ranked} (h : Ranked.ofReferent (.type t) = .ok a) : a.type = t := by
  rw [ofReferent_eq] at h
  rcases hname : t.canonicalName with fault | name
  · rw [hname] at h
    cases h
  · rw [hname] at h
    obtain rfl := Except.ok.inj h
    rfl

lemma map_type_of_forall₂ {ts : List Ty} {as : List Ranked}
    (h : List.Forall₂ (fun r a => Ranked.ofReferent r = .ok a) (ts.map .type) as) :
    as.map (·.type) = ts := by
  induction ts generalizing as with
  | nil =>
    cases h
    rfl
  | cons t ts ih =>
    cases h with
    | cons ha has => rw [List.map_cons, ofReferent_type ha, ih has]

/-- What an operand contributes, if it is one that the operator absorbs. -/
def absorbedPart? (op : Operator) : Referent → Option (List Referent)
  | .type t => (t.absorbed? op).map (·.map .type)
  | .plain .. => none

lemma mergeOperands_eq (op : Operator) (left right : Referent) : mergeOperands op left right =
    (do return Ranked.sort (← (splice (absorbedPart? op) left right).mapM Ranked.ofReferent)) := rfl

lemma absorbedPart?_getD (op : Operator) (t : Ty) :
    (absorbedPart? op (.type t)).getD [.type t] = (t.contribution op).map .type := by
  rcases h : t.absorbed? op with _ | ts
  · simp only [absorbedPart?, Ty.contribution, h, Option.map_none, Option.getD_none, List.map_singleton]
  · simp only [absorbedPart?, Ty.contribution, h, Option.map_some, Option.getD_some]

lemma spliced_operands (op : Operator) (left right : Ty) :
    ∃ ts : List Ty, splice (absorbedPart? op) (.type left) (.type right) = ts.map .type ∧
      ts.Perm (left.contribution op ++ right.contribution op) :=
  splice_perm (absorbedPart?_getD op left) (absorbedPart?_getD op right)

/-- Merging ranks what both sides contribute and sorts it. -/
lemma mergeOperands_sorts {op : Operator} {left right : Ty} {ranked : List Ranked}
    (h : mergeOperands op (.type left) (.type right) = .ok ranked) :
    ∃ (ts : List Ty) (as : List Ranked), ts.Perm (left.contribution op ++ right.contribution op) ∧
      List.Forall₂ (fun r a => Ranked.ofReferent r = .ok a) (ts.map .type) as ∧
      ranked = Ranked.sort as := by
  obtain ⟨ts, hts, hperm⟩ := spliced_operands op left right
  rw [mergeOperands_eq, hts] at h
  rcases hmap : (ts.map Referent.type).mapM Ranked.ofReferent with fault | as
  · rw [hmap] at h
    cases h
  · rw [hmap] at h
    exact ⟨ts, as, hperm, forall₂_of_mapM hmap, (Except.ok.inj h).symm⟩

/-- The operands of an operator are what both sides contribute, in some order. -/
lemma mergeOperands_perm {op : Operator} {left right : Ty} {ranked : List Ranked}
    (h : mergeOperands op (.type left) (.type right) = .ok ranked) :
    (ranked.map (·.type)).Perm (left.contribution op ++ right.contribution op) := by
  obtain ⟨ts, as, hperm, has, rfl⟩ := mergeOperands_sorts h
  have hsort : ((Ranked.sort as).map (·.type)).Perm (as.map (·.type)) := (sort_perm as).map _
  rw [map_type_of_forall₂ has] at hsort
  exact hsort.trans hperm

lemma mergeOperands_answers {op : Operator} {left right : Ty}
    (h : ∀ t ∈ left.contribution op ++ right.contribution op, ∃ name, t.canonicalName = .ok name) :
    ∃ ranked, mergeOperands op (.type left) (.type right) = .ok ranked := by
  obtain ⟨ts, hts, hperm⟩ := spliced_operands op left right
  have hranked : ∀ r ∈ ts.map Referent.type, ∃ a, Ranked.ofReferent r = .ok a := by
    intro r hr
    obtain ⟨t, ht, rfl⟩ := List.mem_map.mp hr
    obtain ⟨name, hname⟩ := h t (hperm.mem_iff.mp ht)
    rw [ofReferent_eq, hname]
    exact ⟨_, rfl⟩
  obtain ⟨as, has⟩ := mapM_answers hranked
  rw [mergeOperands_eq, hts, has]
  exact ⟨Ranked.sort as, rfl⟩

end Operands

section Edges

lemma dropRepeats_fold (ts ks : List Ty) : ∃ us : List Ty,
    (ts.map Referent.type).foldlM (fun kept r => do
      r.checkHashable
      return if kept.any (·.isSameMember r) then kept else kept ++ [r]) (ks.map Referent.type) =
        (.ok (us.map .type) : Attempt (List Referent)) ∧ us ⊆ ks ++ ts ∧ ks ⊆ us ∧
      (∀ t ∈ ts, ∃ u ∈ us, u.id = t.id) ∧ ((ks.map Ty.id).Nodup → (us.map Ty.id).Nodup) := by
  induction ts generalizing ks with
  | nil => exact ⟨ks, rfl, by simp, List.Subset.refl ks, by simp, fun hks => hks⟩
  | cons t ts ih =>
    rw [List.map_cons, List.foldlM_cons]
    by_cases hrepeat : (ks.map Referent.type).any (·.isSameMember (.type t)) = true
    · obtain ⟨us, hus, hsub, hkept, hall, hnodup⟩ := ih ks
      refine ⟨us, ?_, fun u hu => ?_, hkept, ?_, hnodup⟩
      · change (Except.ok (if _ then _ else _) >>= _) = _
        rw [if_pos hrepeat]
        exact hus
      · have := hsub hu
        simp only [List.mem_append, List.mem_cons] at this ⊢
        tauto
      · intro u hu
        rcases List.mem_cons.mp hu with rfl | hu
        · obtain ⟨r, hr, hsame⟩ := List.any_eq_true.mp hrepeat
          obtain ⟨k, hk, rfl⟩ := List.mem_map.mp hr
          exact ⟨k, hkept hk, by simpa [Referent.isSameMember, Referent.isSame] using hsame⟩
        · exact hall u hu
    · obtain ⟨us, hus, hsub, hkept, hall, hnodup⟩ := ih (ks ++ [t])
      refine ⟨us, ?_, fun u hu => ?_, fun k hk => hkept (List.mem_append_left _ hk), ?_, fun hks => hnodup ?_⟩
      · change (Except.ok (if _ then _ else _) >>= _) = _
        rw [if_neg hrepeat]
        rw [List.map_append] at hus
        exact hus
      · have := hsub hu
        simp only [List.mem_append, List.mem_cons, List.not_mem_nil, or_false] at this ⊢
        tauto
      · intro u hu
        rcases List.mem_cons.mp hu with rfl | hu
        · exact ⟨u, hkept (List.mem_append_right _ (List.mem_singleton_self u)), rfl⟩
        · exact hall u hu
      · have hnew : t.id ∉ ks.map Ty.id := by
          intro hid
          obtain ⟨k, hk, hid⟩ := List.mem_map.mp hid
          refine hrepeat (List.any_eq_true.mpr ⟨.type k, List.mem_map_of_mem hk, ?_⟩)
          simp [Referent.isSameMember, Referent.isSame, hid]
        rw [List.map_append]
        exact List.nodup_append_comm.mp (List.nodup_cons.mpr ⟨hnew, hks⟩)

/-- Where an identity belongs to one node only, dropping repeats loses nothing and leaves no repeats. -/
lemma dropRepeats_unique {ts : List Ty} (hunique : ∀ t ∈ ts, ∀ u ∈ ts, t.id = u.id → t = u) :
    ∃ us : List Ty, dropRepeats (ts.map .type) = .ok (us.map .type) ∧ (us.map Ty.id).Nodup ∧
      ∀ u, u ∈ us ↔ u ∈ ts := by
  obtain ⟨us, hus, hsub, -, hall, hnodup⟩ := dropRepeats_fold ts []
  refine ⟨us, hus, hnodup List.nodup_nil, fun u => ⟨fun hu => hsub hu, fun hu => ?_⟩⟩
  obtain ⟨v, hv, hid⟩ := hall u hu
  rw [← hunique v (hsub hv) u hu hid]
  exact hv

variable {terms : Terms} {l : Lattice} {ns : List Ty}

lemma dropRepeats_nodes (h : WellFormed terms l ns) {ts : List Ty} (hts : ts ⊆ ns) :
    ∃ us : List Ty, dropRepeats (ts.map .type) = .ok (us.map .type) ∧ ∀ u, u ∈ us ↔ u ∈ ts := by
  obtain ⟨us, hus, -, hiff⟩ := dropRepeats_unique fun t ht u hu => h.unique (hts ht) (hts hu)
  exact ⟨us, hus, hiff⟩

lemma mapM_flatten_types {f : Referent → Attempt (List Referent)} {P : Ty → List Ty → Prop}
    {us : List Ty} (h : ∀ u ∈ us, ∃ vs : List Ty, f (.type u) = .ok (vs.map .type) ∧ P u vs) :
    ∃ vss : List (List Ty), (do return (← (us.map Referent.type).mapM f).flatten) =
      (.ok (vss.flatten.map .type) : Attempt (List Referent)) ∧ List.Forall₂ P us vss := by
  induction us with
  | nil => exact ⟨[], rfl, .nil⟩
  | cons u us ih =>
    obtain ⟨vs, hvs, hP⟩ := h u List.mem_cons_self
    obtain ⟨vss, hvss, hPs⟩ := ih fun v hv => h v (List.mem_cons_of_mem u hv)
    refine ⟨vs :: vss, ?_, .cons hP hPs⟩
    rw [List.map_cons, List.mapM_cons, hvs]
    rcases hrest : (us.map Referent.type).mapM f with fault | rest
    · rw [hrest] at hvss
      cases hvss
    · rw [hrest] at hvss
      have hflat : rest.flatten = vss.flatten.map Referent.type := Except.ok.inj hvss
      rw [List.flatten_cons, List.map_append, ← hflat]
      rfl

/-- Nodes that lie above a node: all of them are made from what the node itself is made from, and they
have all of that among them that is no intersection. -/
structure Overlies (ns : List Ty) (t : Ty) (us : List Ty) : Prop where
  mem : us ⊆ ns
  made : ∀ u ∈ us, u.contribution .intersection ⊆ t.contribution .intersection ∧ u.size ≤ t.size
  covers : ∀ u ∈ t.contribution .intersection, u.isMadeBy .intersection = false → u ∈ us

lemma Overlies.self {t : Ty} (ht : t ∈ ns) (hleaf : t.contribution .intersection = [t]) :
    Overlies ns t [t] := by
  refine ⟨by simpa using ht, fun u hu => ?_, fun u hu _ => hleaf ▸ hu⟩
  rw [List.mem_singleton.mp hu]
  exact ⟨List.Subset.refl _, Nat.le_refl _⟩

/-- What lies above the nodes that an intersection leads to lies above the intersection. -/
lemma Overlies.flatten (h : WellFormed terms l ns) {label : Label} {ts us : List Ty}
    (ht : .compound label .intersection ts ∈ ns) (hs : l.stored? .supersets label.id = some (us.map .type))
    (hus : Declared ns .supersets (.compound label .intersection ts) us) {vss : List (List Ty)}
    (hvss : List.Forall₂ (Overlies ns) us vss) :
    Overlies ns (.compound label .intersection ts) vss.flatten := by
  refine ⟨fun v hv => ?_, fun v hv => ?_, fun v hv hleaf => ?_⟩
  · obtain ⟨vs, hvs, hv⟩ := List.mem_flatten.mp hv
    obtain ⟨u, -, hover⟩ := exists_related_left hvss hvs
    exact hover.mem hv
  · obtain ⟨vs, hvs, hv⟩ := List.mem_flatten.mp hv
    obtain ⟨u, hu, hover⟩ := exists_related_left hvss hvs
    obtain ⟨hsub, hsize⟩ := hover.made v hv
    have hleads := hus.leads u hu
    have hlt := hleads.size_lt
    cases hleads with
    | merged _ hcontribution _ => exact ⟨fun w hw => hcontribution (hsub hw), by omega⟩
  · have hevident : v ∈ (Ty.compound label .intersection ts).evident .supersets :=
      List.mem_filter.mpr ⟨hv, by rw [hleaf]; rfl⟩
    have hu : v ∈ us := (Lattice.edge_iff hs).mp ((h.storedAsOffered _ ht).evident .supersets v hevident)
    obtain ⟨vs, hvs, hover⟩ := exists_related_right hvss hu
    refine List.mem_flatten.mpr ⟨vs, hvs, hover.covers v ?_ hleaf⟩
    rw [Ty.contribution_eq_singleton (Ty.absorbed?_intersection hleaf)]
    exact List.mem_singleton_self v

lemma supersetLeaves_self (l : Lattice) (depth : Nat) {t : Ty} (ht : t.isMadeBy .intersection = false) :
    supersetLeaves l (depth + 1) (.type t) = .ok [.type t] := by
  cases t with
  | compound label op ts =>
    cases op with
    | intersection => cases ht
    | _ => rfl
  | _ => rfl

/-- The search for what lies above a node finds it, to a depth that exceeds the node's identity. -/
lemma supersetLeaves_types (h : WellFormed terms l ns) {depth : Nat} {t : Ty} (ht : t ∈ ns)
    (hdepth : t.id < depth) :
    ∃ us : List Ty, supersetLeaves l depth (.type t) = .ok (us.map .type) ∧ Overlies ns t us := by
  -- the edges of an intersection lead to older nodes, so the depth stays above the identity
  induction depth generalizing t with
  | zero => omega
  | succ depth ih =>
    cases t with
    | compound label op ts =>
      cases op with
      | intersection =>
        obtain ⟨rs, hs⟩ := (h.storedAsOffered _ ht).settled rfl .supersets
        obtain ⟨us, rfl, hus⟩ := h.stored _ ht .supersets rs hs
        have hs' : l.stored? .supersets label.id = some (us.map .type) := hs
        have hstep : ∀ u ∈ us, ∃ vs : List Ty,
            supersetLeaves l depth (.type u) = .ok (vs.map .type) ∧ Overlies ns u vs := by
          intro u hu
          have holder := hus.older _ _ _ rfl u hu
          exact ih (hus.mem hu) (by omega)
        obtain ⟨vss, hvss, hover⟩ := mapM_flatten_types hstep
        refine ⟨vss.flatten, ?_, .flatten h ht hs' hus hover⟩
        rw [supersetLeaves, hs']
        exact hvss
      | union => exact ⟨[_], rfl, .self ht rfl⟩
      | difference => exact ⟨[_], rfl, .self ht rfl⟩
    | _ => exact ⟨[_], rfl, .self ht rfl⟩

/-- The part of an operand of a union among the subsets of the union. -/
def subsetPart? (l : Lattice) : Referent → Option (List Referent)
  | .type (.compound label .union _) => some ((l.stored? .subsets label.id).getD [])
  | _ => none

lemma unionSubsets_eq (l : Lattice) (left right : Referent) :
    unionSubsets l left right = splice (subsetPart? l) left right := rfl

/-- A node contributes the same to the operands of a union and to its subsets. -/
lemma subsetPart?_types (h : WellFormed terms l ns) {t : Ty} (ht : t ∈ ns) :
    ∃ us : List Ty, (subsetPart? l (.type t)).getD [.type t] = us.map .type ∧ us ⊆ ns ∧
      ∀ u, u ∈ us ↔ u ∈ t.contribution .union := by
  have hself : [t] ⊆ ns := by simpa using ht
  cases t with
  | compound label op ts =>
    cases op with
    | union =>
      obtain ⟨rs, hs⟩ := (h.storedAsOffered _ ht).settled rfl .subsets
      obtain ⟨us, rfl, hus⟩ := h.stored _ ht .subsets rs hs
      have hs' : l.stored? .subsets label.id = some (us.map .type) := hs
      refine ⟨us, ?_, hus.mem, fun u => ⟨fun hu => ?_, fun hu => ?_⟩⟩
      · simp only [subsetPart?, hs', Option.getD_some]
      · have hleads := hus.leads u hu
        cases hleads with
        | operand hu => exact hu
      · exact (Lattice.edge_iff hs).mp ((h.storedAsOffered _ ht).evident .subsets u hu)
    | intersection => exact ⟨[_], rfl, hself, fun _ => Iff.rfl⟩
    | difference => exact ⟨[_], rfl, hself, fun _ => Iff.rfl⟩
  | _ => exact ⟨[_], rfl, hself, fun _ => Iff.rfl⟩

variable {op : Operator} {left right : Ty} {ts : List Ty}

lemma unionSubsets_types (h : WellFormed terms l ns) (hl : left ∈ ns) (hr : right ∈ ns) :
    ∃ us : List Ty, dropRepeats (unionSubsets l (.type left) (.type right)) = .ok (us.map .type) ∧
      us ⊆ ns ∧ ∀ u, u ∈ us ↔ u ∈ left.contribution .union ++ right.contribution .union := by
  obtain ⟨ls, hls, hlmem, hleft⟩ := subsetPart?_types h hl
  obtain ⟨rs, hrs, hrmem, hright⟩ := subsetPart?_types h hr
  obtain ⟨vs, hvs, hperm⟩ := splice_perm hls hrs
  have hvsmem : vs ⊆ ns := by
    intro v hv
    rcases List.mem_append.mp (hperm.mem_iff.mp hv) with hv | hv
    · exact hlmem hv
    · exact hrmem hv
  have hvsiff : ∀ v, v ∈ vs ↔ v ∈ left.contribution .union ++ right.contribution .union := by
    intro v
    rw [hperm.mem_iff, List.mem_append, List.mem_append, hleft, hright]
  obtain ⟨us, hus, hiff⟩ := dropRepeats_nodes h hvsmem
  exact ⟨us, by rw [unionSubsets_eq, hvs, hus], fun u hu => hvsmem ((hiff u).mp hu),
    fun u => (hiff u).trans (hvsiff u)⟩

lemma intersectionSupersets_types (h : WellFormed terms l ns) (hl : left ∈ ns) (hr : right ∈ ns) :
    ∃ us : List Ty, intersectionSupersets l (.type left) (.type right) = .ok (us.map .type) ∧
      ∃ ls rs, Overlies ns left ls ∧ Overlies ns right rs ∧
        ∀ u, u ∈ us ↔ u = left ∨ u = right ∨ u ∈ ls ∨ u ∈ rs := by
  have hdepth : ∀ t ∈ ns, t.id < l.entries.size + 1 := by
    intro t ht
    have := h.id_lt ht
    rw [h.length]
    omega
  obtain ⟨ls, hls, hlP⟩ := supersetLeaves_types h hl (hdepth left hl)
  obtain ⟨rs, hrs, hrP⟩ := supersetLeaves_types h hr (hdepth right hr)
  have hmem : left :: right :: (ls ++ rs) ⊆ ns :=
    List.cons_subset.mpr ⟨hl, List.cons_subset.mpr ⟨hr, List.append_subset.mpr ⟨hlP.mem, hrP.mem⟩⟩⟩
  obtain ⟨us, hus, hiff⟩ := dropRepeats_nodes h hmem
  refine ⟨us, ?_, ls, rs, hlP, hrP, fun u => ?_⟩
  · unfold intersectionSupersets
    dsimp only
    rw [hls, hrs, ← hus, List.map_cons, List.map_cons, List.map_append]
    rfl
  · rw [hiff, List.mem_cons, List.mem_cons, List.mem_append]

/-- An operand, as given, is no larger than all that both operands contribute. -/
lemma size_le_of_perm (hleft : left.Regular terms.operators) (hright : right.Regular terms.operators)
    (hperm : ts.Perm (left.contribution op ++ right.contribution op)) :
    left.size ≤ Ty.sizes ts ∧ right.size ≤ Ty.sizes ts := by
  have hsizes := Ty.sizes_perm hperm
  rw [Ty.sizes_append] at hsizes
  have hl := Ty.sizes_contribution op left
  have hr := Ty.sizes_contribution op right
  have hlpos := hleft.sizes_contribution_pos op
  have hrpos := hright.sizes_contribution_pos op
  omega

lemma declaredEdges_types (h : WellFormed terms l ns) (hl : left ∈ ns) (hr : right ∈ ns)
    (hperm : ts.Perm (left.contribution op ++ right.contribution op)) :
    ∃ below above : List Ty, Build.declaredEdges l (.type left) (.type right) op =
        .ok ⟨some (below.map .type), some (above.map .type)⟩ ∧ below ⊆ ns ∧ above ⊆ ns ∧
      (∀ label, ∀ u ∈ below, (Ty.compound label op ts).Leads .subsets u) ∧
      (∀ label, ∀ u ∈ above, (Ty.compound label op ts).Leads .supersets u) ∧
      (∀ label, (Ty.compound label op ts).evident .subsets ⊆ below) ∧
      ∀ label, (Ty.compound label op ts).evident .supersets ⊆ above := by
  obtain ⟨hsizeLeft, hsizeRight⟩ :=
    size_le_of_perm (h.sound left hl).regular (h.sound right hr).regular hperm
  have hleft : left.contribution op ⊆ ts := fun u hu =>
    hperm.mem_iff.mpr (List.mem_append_left _ hu)
  have hright : right.contribution op ⊆ ts := fun u hu =>
    hperm.mem_iff.mpr (List.mem_append_right _ hu)
  cases op with
  | union =>
    obtain ⟨us, hus, hmem, hiff⟩ := unionSubsets_types h hl hr
    refine ⟨us, [], ?_, hmem, List.nil_subset _, ?_, by simp, ?_, fun _ => List.nil_subset _⟩
    · rw [Build.declaredEdges, hus]
      rfl
    · intro label u hu
      exact .operand (hperm.mem_iff.mpr ((hiff u).mp hu))
    · intro label u hu
      exact (hiff u).mpr (hperm.mem_iff.mp hu)
  | intersection =>
    obtain ⟨us, hus, ls, rs, hls, hrs, hiff⟩ := intersectionSupersets_types h hl hr
    refine ⟨[], us, ?_, List.nil_subset _, fun u hu => ?_, by simp, fun label u hu => ?_,
      fun _ => List.nil_subset _, fun label u hu => ?_⟩
    · rw [Build.declaredEdges, hus]
      rfl
    · rcases (hiff u).mp hu with rfl | rfl | hu | hu
      · exact hl
      · exact hr
      · exact hls.mem hu
      · exact hrs.mem hu
    · rcases (hiff u).mp hu with rfl | rfl | hu | hu
      · exact .merged (by simp) hleft hsizeLeft
      · exact .merged (by simp) hright hsizeRight
      · obtain ⟨hsub, hsize⟩ := hls.made u hu
        exact .merged (by simp) (fun v hv => hleft (hsub hv)) (by omega)
      · obtain ⟨hsub, hsize⟩ := hrs.made u hu
        exact .merged (by simp) (fun v hv => hright (hsub hv)) (by omega)
    · obtain ⟨hu, hleaf⟩ := List.mem_filter.mp hu
      rw [Bool.not_eq_true'] at hleaf
      rcases List.mem_append.mp (hperm.mem_iff.mp hu) with hu | hu
      · exact (hiff u).mpr (.inr (.inr (.inl (hls.covers u hu hleaf))))
      · exact (hiff u).mpr (.inr (.inr (.inr (hrs.covers u hu hleaf))))
  | difference =>
    refine ⟨[], [left, right], rfl, List.nil_subset _, by simp [hl, hr], by simp, ?_,
      fun _ => List.nil_subset _, fun _ => List.nil_subset _⟩
    intro label u hu
    simp only [List.mem_cons, List.not_mem_nil, or_false] at hu
    rcases hu with rfl | rfl
    · exact .merged (by simp) hleft hsizeLeft
    · exact .merged (by simp) hright hsizeRight

end Edges

end StructuralTypes
