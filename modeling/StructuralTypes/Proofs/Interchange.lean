import StructuralTypes.Proofs.CanonicalForm
import StructuralTypes.Proofs.Containment

/-!
# Interchangeable types

A copy has an identity of its own, but it has the structure of the node it was made from and leads to the
same types. `RelatedUpToParts` lets such types take each other's place, also inside of containers. Whatever
the one offers the other one offers something related to it, so nothing that is found to contain the one
fails to contain the other.
-/

namespace StructuralTypes

open Relation

namespace Lattice

/-- A node and another one that is a copy of it, or that it is a copy of. The edges of a container can be
worked out for one of them only, but where edges are always there they are the same. -/
structure Copied (l : Lattice) (s t : Ty) : Prop where
  sameOrigin : s.SameOrigin t
  stored : s.isContainer = false → ∀ d, l.stored? d s.id = l.stored? d t.id

/-- Types that are related, or containers whose parts are. -/
inductive RelatedUpToParts (R : Ty → Ty → Prop) : Ty → Ty → Prop
  | refl (t : Ty) : RelatedUpToParts R t t
  | related {s t : Ty} : R s t → RelatedUpToParts R s t
  | unary {label label' : Label} (extractor : Fn) {outer outer' inner inner' : Ty} :
      RelatedUpToParts R outer outer' → RelatedUpToParts R inner inner' →
      RelatedUpToParts R (.unary label outer extractor inner) (.unary label' outer' extractor inner')

/-- Whatever a type offers, the types it is related to offer something related to that up to parts. -/
def OfferSimulation (l : Lattice) (R : Ty → Ty → Prop) : Prop :=
  ∀ s t, R s t → s.Same t ∧ ∀ d u, l.Offers d s u → ∃ v, l.Offers d t v ∧ RelatedUpToParts R u v

namespace RelatedUpToParts

variable {l : Lattice} {R : Ty → Ty → Prop} {s t u : Ty}

lemma same (hR : l.OfferSimulation R) (h : RelatedUpToParts R s t) (hu : s.Same u) : t.Same u := by
  induction h generalizing u with
  | refl => exact hu
  | related hst => exact (hR _ _ hst).1.symm.trans hu
  | unary extractor _ _ iho ihi =>
    cases hu with
    | unary _ _ _ ho hi => exact .unary _ _ extractor (iho ho) (ihi hi)

lemma offers (hR : l.OfferSimulation R) (h : RelatedUpToParts R s t) {d : Direction} (hu : l.Offers d s u) :
    ∃ v, l.Offers d t v ∧ RelatedUpToParts R u v := by
  induction h generalizing d u with
  | refl => exact ⟨u, hu, .refl u⟩
  | related hst => exact (hR _ _ hst).2 d u hu
  | @unary label label' extractor outer outer' inner inner' ho hi iho ihi =>
    cases hu with
    | stored hleaf => cases hleaf
    | narrowInner hu =>
      obtain ⟨v, hv, hlike⟩ := ihi hu
      exact ⟨.unary label' outer' extractor v, .narrowInner hv, .unary extractor ho hlike⟩
    | narrowOuter hu =>
      obtain ⟨v, hv, hlike⟩ := iho hu
      exact ⟨.unary label' v extractor inner', .narrowOuter hv, .unary extractor hlike hi⟩
    | narrowBoth hu hu' =>
      obtain ⟨v, hv, hlike⟩ := iho hu
      obtain ⟨v', hv', hlike'⟩ := ihi hu'
      exact ⟨.unary label' v extractor v', .narrowBoth hv hv', .unary extractor hlike hlike'⟩
    | outer => exact ⟨outer', .outer, ho⟩
    | widenInner hu =>
      obtain ⟨v, hv, hlike⟩ := ihi hu
      exact ⟨.unary label' outer' extractor v, .widenInner hv, .unary extractor ho hlike⟩

lemma path (hR : l.OfferSimulation R) (h : RelatedUpToParts R s t) {d : Direction}
    (hpath : ReflTransGen (l.Offers d) s u) : ∃ v, ReflTransGen (l.Offers d) t v ∧ RelatedUpToParts R u v := by
  induction hpath with
  | refl => exact ⟨t, .refl, h⟩
  | tail _ hoffers ih =>
    obtain ⟨v, hv, hlike⟩ := ih
    obtain ⟨w, hw, hlike'⟩ := hlike.offers hR hoffers
    exact ⟨w, hv.tail hw, hlike'⟩

/-- What a type contains, a type related to it contains. -/
lemma contains (hR : l.OfferSimulation R) {sup sup' sub sub' : Ty} (hsup : RelatedUpToParts R sup sup')
    (hsub : RelatedUpToParts R sub sub') (h : l.Contains sup sub) : l.Contains sup' sub' := by
  obtain ⟨low, high, hlow, hhigh, hequal⟩ := h
  obtain ⟨low', hlow', hlike⟩ := hsup.path hR hlow
  obtain ⟨high', hhigh', hlike'⟩ := hsub.path hR hhigh
  refine ⟨low', high', hlow', hhigh', Ty.equals_iff_same.mpr ?_⟩
  have hsame := hlike.same hR (Ty.equals_iff_same.mp hequal)
  exact (hlike'.same hR hsame.symm).symm

end RelatedUpToParts

end Lattice

section Copies

variable {l l' : Lattice} {s t u : Ty}

lemma Ty.SameOrigin.isContainer (h : s.SameOrigin t) : t.isContainer = s.isContainer := by
  rw [← h.relabelled]
  cases s <;> rfl

lemma Ty.SameOrigin.isMadeBy (h : s.SameOrigin t) (op : Operator) : t.isMadeBy op = s.isMadeBy op := by
  rw [← h.relabelled]
  cases s <;> rfl

lemma Ty.SameOrigin.same (h : s.SameOrigin t) (hs : s.Proper) : s.Same t :=
  Ty.equals_iff_same.mp (h.agrees hs false)

namespace Lattice.Copied

lemma refl (l : Lattice) (t : Ty) : l.Copied t t := ⟨.refl t, fun _ _ => rfl⟩

lemma symm (h : l.Copied s t) : l.Copied t s :=
  ⟨h.sameOrigin.symm, fun ht d => (h.stored (h.sameOrigin.isContainer ▸ ht) d).symm⟩

lemma trans (h : l.Copied s t) (h' : l.Copied t u) : l.Copied s u :=
  ⟨h.sameOrigin.trans h'.sameOrigin,
    fun hs d => (h.stored hs d).trans (h'.stored (h.sameOrigin.isContainer.trans hs) d)⟩

lemma edge (h : l.Copied s t) (hs : s.isContainer = false) {d : Direction} (hedge : l.Edge d s u) :
    l.Edge d t u := by
  obtain ⟨rs, hrs, hu⟩ := hedge
  exact ⟨rs, (h.stored hs d).symm.trans hrs, hu⟩

lemma offers (h : l.Copied s t) {d : Direction} (hu : l.Offers d s u) : l.Offers d t u := by
  by_cases hleaf : s.isContainer = false
  · exact .stored (h.sameOrigin.isContainer.trans hleaf) (h.edge hleaf (hu.edge hleaf))
  · have hlabelled := hu.setLabel (by simpa using hleaf) t.label
    rw [h.sameOrigin.relabelled] at hlabelled
    exact hlabelled

end Lattice.Copied

variable {terms : Terms} {ns : List Ty}

/-- Copies stay copies: the edges that are always there stay what they are. -/
lemma WellFormed.copied_of_grows (h : WellFormed terms l ns) (hgrows : l.Grows l') (hs : s ∈ ns)
    (hcopied : l.Copied s t) : l'.Copied s t := by
  refine ⟨hcopied.sameOrigin, fun hleaf d => ?_⟩
  obtain ⟨rs, hrs⟩ := (h.storedAsOffered s hs).settled hleaf d
  rw [hgrows d _ rs hrs, hgrows d _ rs ((hcopied.stored hleaf d).symm.trans hrs)]

lemma WellFormed.contains_congr (h : WellFormed terms l ns) (hdoc : terms.documented)
    {sup sup' sub sub' : Ty} (hsup : sup ∈ ns) (hsub : sub ∈ ns) (hsup' : sup' ∈ ns) (hsub' : sub' ∈ ns)
    (hiff : l.Contains sup sub ↔ l.Contains sup' sub') :
    (Build.supersedes (.type sup) (.type sub) l).1 = (Build.supersedes (.type sup') (.type sub') l).1 := by
  rw [← h.supersedes_iff hdoc hsup hsub, ← h.supersedes_iff hdoc hsup' hsub'] at hiff
  obtain ⟨answer, hanswer⟩ := h.supersedes_answers hdoc hsup hsub
  obtain ⟨answer', hanswer'⟩ := h.supersedes_answers hdoc hsup' hsub'
  rw [hanswer, hanswer'] at hiff ⊢
  have hsame : answer = true ↔ answer' = true := by simpa using hiff
  rw [Bool.eq_iff_iff.mpr hsame]

/-- A search does not distinguish types that are related to each other. -/
lemma WellFormed.supersedes_relatedUpToParts (h : WellFormed terms l ns) (hdoc : terms.documented)
    {R : Ty → Ty → Prop} (hR : l.OfferSimulation R) (hsymm : ∀ s t, R s t → R t s) (hs : s ∈ ns) (ht : t ∈ ns)
    (hst : R s t) (hu : u ∈ ns) :
    (Build.supersedes (.type s) (.type u) l).1 = (Build.supersedes (.type t) (.type u) l).1 ∧
      (Build.supersedes (.type u) (.type s) l).1 = (Build.supersedes (.type u) (.type t) l).1 := by
  have hlike : Lattice.RelatedUpToParts R s t := .related hst
  have hlike' : Lattice.RelatedUpToParts R t s := .related (hsymm s t hst)
  constructor
  · apply h.contains_congr hdoc hs hu ht hu
    exact ⟨hlike.contains hR (.refl u), hlike'.contains hR (.refl u)⟩
  · apply h.contains_congr hdoc hu hs hu ht
    exact ⟨Lattice.RelatedUpToParts.contains hR (.refl u) hlike, Lattice.RelatedUpToParts.contains hR (.refl u) hlike'⟩

end Copies

section Declarations

namespace Lattice

/-- Going up from intersection to intersection as far as it goes leads to a node. -/
inductive Above (l : Lattice) : Ty → Ty → Prop
  | self {t : Ty} : t.isMadeBy .intersection = false → Above l t t
  | step {t u v : Ty} : t.isMadeBy .intersection = true → l.Edge .supersets t u → Above l u v → Above l t v

/-- The nodes that an operator leads to from its result, given its two operands. -/
def Declares (l : Lattice) (a b : Ty) : Operator → Direction → Ty → Prop
  | .intersection, .supersets, u => u = a ∨ u = b ∨ l.Above a u ∨ l.Above b u
  | .union, .subsets, u => u ∈ a.contribution .union ++ b.contribution .union
  | .difference, .supersets, u => u = a ∨ u = b
  | _, _, _ => False

variable {l l' : Lattice} {a a' b b' u : Ty}

lemma Above.mono (hgrows : l.Grows l') (h : l.Above a u) : l'.Above a u := by
  induction h with
  | self hleaf => exact .self hleaf
  | step hmade hedge _ ih => exact .step hmade (hedge.mono hgrows) ih

lemma Copied.above (h : l.Copied a a') (hu : l.Above a u) : ∃ v, l.Above a' v ∧ l.Copied u v := by
  cases hu with
  | self hleaf => exact ⟨a', .self ((h.sameOrigin.isMadeBy _).trans hleaf), h⟩
  | step hmade hedge hrest =>
    have hleaf : a.isContainer = false := by
      cases a with
      | unary => cases hmade
      | _ => rfl
    exact ⟨u, .step ((h.sameOrigin.isMadeBy _).trans hmade) (h.edge hleaf hedge) hrest, .refl l u⟩

lemma Copied.contribution (h : l.Copied a a') {op : Operator} (hu : u ∈ a.contribution op) :
    ∃ v, v ∈ a'.contribution op ∧ l.Copied u v := by
  cases hnone : a.absorbed? op with
  | none =>
    rw [Ty.contribution_eq_singleton hnone, List.mem_singleton] at hu
    rw [Ty.contribution_eq_singleton (h.sameOrigin.absorbed?_eq.symm.trans hnone)]
    exact ⟨a', List.mem_singleton_self a', hu ▸ h⟩
  | some ts =>
    refine ⟨u, ?_, .refl l u⟩
    rw [Ty.contribution, hnone] at hu
    rw [Ty.contribution, ← h.sameOrigin.absorbed?_eq, hnone]
    exact hu

/-- With copies for operands, an operator leads to copies. -/
lemma Copied.declares (ha : l.Copied a a') (hb : l.Copied b b') {op : Operator} {d : Direction}
    (hu : l.Declares a b op d u) : ∃ v, l.Declares a' b' op d v ∧ l.Copied u v := by
  cases op <;> cases d <;> try exact hu.elim
  · rcases hu with rfl | rfl | hu | hu
    · exact ⟨a', .inl rfl, ha⟩
    · exact ⟨b', .inr (.inl rfl), hb⟩
    · obtain ⟨v, hv, hcopied⟩ := ha.above hu
      exact ⟨v, .inr (.inr (.inl hv)), hcopied⟩
    · obtain ⟨v, hv, hcopied⟩ := hb.above hu
      exact ⟨v, .inr (.inr (.inr hv)), hcopied⟩
  · rcases List.mem_append.mp hu with hu | hu
    · obtain ⟨v, hv, hcopied⟩ := ha.contribution hu
      exact ⟨v, List.mem_append_left _ hv, hcopied⟩
    · obtain ⟨v, hv, hcopied⟩ := hb.contribution hu
      exact ⟨v, List.mem_append_right _ hv, hcopied⟩
  · rcases hu with rfl | rfl
    · exact ⟨a', .inl rfl, ha⟩
    · exact ⟨b', .inr rfl, hb⟩

end Lattice

variable {terms : Terms} {l l' : Lattice} {ns : List Ty} {a b : Ty}

lemma WellFormed.above_iff (h : WellFormed terms l ns) (hgrows : l.Grows l') {u : Ty} (ha : a ∈ ns) :
    l'.Above a u ↔ l.Above a u := by
  constructor
  · intro habove
    induction habove with
    | self hleaf => exact .self hleaf
    | @step t u v hmade hedge _ ih =>
      have hleaf : t.isContainer = false := by
        cases t with
        | unary => cases hmade
        | _ => rfl
      have hoffers := (h.offers_iff hgrows (.node ha) .supersets u).mp (.stored hleaf hedge)
      have hedge' := hoffers.edge hleaf
      exact .step hmade hedge' (ih (h.edge ha hedge').1)
  · exact fun habove => habove.mono hgrows

lemma WellFormed.declares_iff (h : WellFormed terms l ns) (hgrows : l.Grows l') (ha : a ∈ ns)
    (hb : b ∈ ns) (op : Operator) (d : Direction) (u : Ty) :
    l'.Declares a b op d u ↔ l.Declares a b op d u := by
  cases op <;> cases d <;>
    simp only [Lattice.Declares, h.above_iff hgrows ha, h.above_iff hgrows hb]

lemma mem_supersetLeaves_iff (h : WellFormed terms l ns) {depth : Nat} (ha : a ∈ ns)
    {rs : List Referent} (hrs : supersetLeaves l depth (.type a) = .ok rs) (r : Referent) :
    r ∈ rs ↔ ∃ u, r = .type u ∧ l.Above a u := by
  induction depth generalizing a rs with
  | zero => cases hrs
  | succ depth ih =>
    by_cases hmade : a.isMadeBy .intersection = true
    · obtain ⟨label, ts, rfl⟩ := Ty.exists_of_isMadeBy hmade
      obtain ⟨es, hes⟩ := (h.storedAsOffered _ ha).settled rfl .supersets
      obtain ⟨us, rfl, hus⟩ := h.stored _ ha .supersets es hes
      have hstored : l.stored? .supersets label.id = some (us.map .type) := hes
      rw [supersetLeaves, hstored, Option.getD_some] at hrs
      cases hparts : (us.map Referent.type).mapM (supersetLeaves l depth) with
      | error fault =>
        rw [hparts] at hrs
        cases hrs
      | ok parts =>
        rw [hparts] at hrs
        obtain rfl : parts.flatten = rs := Except.ok.inj hrs
        have hforall := forall₂_of_mapM hparts
        rw [List.forall₂_map_left_iff] at hforall
        constructor
        · intro hr
          obtain ⟨part, hpart, hr⟩ := List.mem_flatten.mp hr
          obtain ⟨u, hu, hleaves⟩ := exists_related_left hforall hpart
          obtain ⟨v, rfl, habove⟩ := (ih (hus.mem hu) hleaves).mp hr
          exact ⟨v, rfl, .step rfl ((Lattice.edge_iff hes).mpr hu) habove⟩
        · rintro ⟨v, rfl, habove⟩
          cases habove with
          | self hleaf => cases hleaf
          | step _ hedge hrest =>
            have hu := (Lattice.edge_iff hes).mp hedge
            obtain ⟨part, hpart, hleaves⟩ := exists_related_right hforall hu
            exact List.mem_flatten.mpr ⟨part, hpart, (ih (hus.mem hu) hleaves).mpr ⟨v, rfl, hrest⟩⟩
    · have hself := supersetLeaves_self l depth (t := a) (by simpa using hmade)
      obtain rfl : [.type a] = rs := Except.ok.inj (hself.symm.trans hrs)
      rw [List.mem_singleton]
      constructor
      · rintro rfl
        exact ⟨a, rfl, .self (by simpa using hmade)⟩
      · rintro ⟨u, rfl, habove⟩
        cases habove with
        | self => rfl
        | step hmade' => exact (hmade hmade').elim

/-- The edges that an operator declares lead exactly where it is to lead. -/
lemma mem_declaredEdges_iff (h : WellFormed terms l ns) (ha : a ∈ ns) (hb : b ∈ ns) {op : Operator}
    {edges : Edges} (hedges : Build.declaredEdges l (.type a) (.type b) op = .ok edges) (d : Direction) :
    ∃ us : List Ty, edges.get? d = some (us.map .type) ∧ ∀ u, u ∈ us ↔ l.Declares a b op d u := by
  have hnone : ∀ op', (∀ u, ¬l.Declares a b op' d u) →
      ∀ u, u ∈ ([] : List Ty) ↔ l.Declares a b op' d u := by
    intro op' hfalse u
    exact ⟨fun hu => (List.not_mem_nil hu).elim, fun hu => (hfalse u hu).elim⟩
  cases op with
  | intersection =>
    have hdepth : ∀ t ∈ ns, t.id < l.entries.size + 1 := by
      intro t ht
      rw [h.length]
      exact Nat.lt_succ_of_lt (h.id_lt ht)
    obtain ⟨ls, hls, hover⟩ := supersetLeaves_types h ha (hdepth a ha)
    obtain ⟨rs, hrs, hover'⟩ := supersetLeaves_types h hb (hdepth b hb)
    have hmem : a :: b :: ls ++ rs ⊆ ns := by
      intro t ht
      simp only [List.cons_append, List.mem_cons, List.mem_append] at ht
      rcases ht with rfl | rfl | ht | ht
      · exact ha
      · exact hb
      · exact hover.mem ht
      · exact hover'.mem ht
    obtain ⟨us, hus, hiff⟩ := dropRepeats_nodes h hmem
    have hrun : intersectionSupersets l (.type a) (.type b) = .ok (us.map .type) := by
      unfold intersectionSupersets
      dsimp only
      rw [hls, hrs, ← hus]
      simp only [List.cons_append, List.map_cons, List.map_append]
      rfl
    rw [Build.declaredEdges, hrun] at hedges
    obtain rfl := Except.ok.inj hedges
    cases d with
    | subsets => exact ⟨[], rfl, hnone .intersection fun u hu => hu⟩
    | supersets =>
      refine ⟨us, rfl, fun u => ?_⟩
      have hleft := mem_supersetLeaves_iff h ha hls (.type u)
      have hright := mem_supersetLeaves_iff h hb hrs (.type u)
      simp only [List.mem_map, Referent.type.injEq, exists_eq_right, exists_eq_left'] at hleft hright
      rw [hiff]
      simp only [List.cons_append, List.mem_cons, List.mem_append, hleft, hright, Lattice.Declares]
  | union =>
    obtain ⟨us, hus, -, hiff⟩ := unionSubsets_types h ha hb
    rw [Build.declaredEdges, hus] at hedges
    obtain rfl := Except.ok.inj hedges
    cases d with
    | subsets => exact ⟨us, rfl, hiff⟩
    | supersets => exact ⟨[], rfl, hnone .union fun u hu => hu⟩
  | difference =>
    obtain rfl := Except.ok.inj hedges
    cases d with
    | subsets => exact ⟨[], rfl, hnone .difference fun u hu => hu⟩
    | supersets => exact ⟨[a, b], rfl, fun u => by simp [Lattice.Declares]⟩

end Declarations

end StructuralTypes
