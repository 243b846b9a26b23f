import StructuralTypes.Proofs.MutualContainment

/-!
# Chains of containment

Containment passes from link to link unless two intersections with the same operands are grouped in different
ways. Equal types lead down to equal types, and they lead up to equal types as well, except for the
intersections that an intersection was made of: an equal one may be made of others. So a chain can only break
where the first type meets the second one at such a group, and the third type has no equal group.
-/

namespace StructuralTypes

open Relation

/-- What the inner parts of a container come down to. -/
def Ty.innermostPart : Ty → Ty
  | .unary _ _ _ inner => inner.innermostPart
  | t => t

namespace Lattice

variable {l : Lattice} {d : Direction} {a b c s t u m : Ty}

/-- `l.HasGroup t u` if `u` is an intersection that the intersection `t` declares as a superset, or if `t` and `u`
are containers that differ in this way in their inner parts. -/
inductive HasGroup (l : Lattice) : Ty → Ty → Prop
  | declared {t u : Ty} : t.isMadeBy .intersection = true → u.isMadeBy .intersection = true →
      l.Edge .supersets t u → HasGroup l t u
  | inner {label label' : Label} {outer inner inner' : Ty} {extractor : Fn} : HasGroup l inner inner' →
      HasGroup l (.unary label outer extractor inner) (.unary label' outer extractor inner')

/-- A way up that is none to a group of an intersection. -/
inductive OffersNonGroup (l : Lattice) : Ty → Ty → Prop
  | stored {t u : Ty} : t.isContainer = false → l.Edge .supersets t u →
      (t.isMadeBy .intersection = true → u.isMadeBy .intersection = false) → OffersNonGroup l t u
  | outer {label : Label} {outer inner : Ty} {extractor : Fn} :
      OffersNonGroup l (.unary label outer extractor inner) outer
  | widenInner {label label' : Label} {outer inner inner' : Ty} {extractor : Fn} : OffersNonGroup l inner inner' →
      OffersNonGroup l (.unary label outer extractor inner) (.unary label' outer extractor inner')

/-- Below `a` there is an equal of `m`, which is `t` or a group of it, or a group of one of its groups and so on.
And `b` leads up to `t` without leading to a group. -/
structure MeetsAt (l : Lattice) (a b t m : Ty) : Prop where
  below : ∃ low, ReflTransGen (l.Offers .subsets) a low ∧ low.equals m = .ok true
  above : ReflTransGen l.OffersNonGroup b t
  group : ReflTransGen l.HasGroup t m

/-- Wherever `t` meets `c`, the type above `c` has a group that is equal to `m` or to a type below it. -/
def GroupedAlike (l : Lattice) (t m c : Ty) : Prop :=
  ∀ r s, ReflTransGen (l.Offers .subsets) t r → ReflTransGen (l.Offers .supersets) c s → r.equals s = .ok true →
    ∃ low group, ReflTransGen (l.Offers .subsets) m low ∧ ReflTransGen l.HasGroup s group ∧
      low.equals group = .ok true

lemma HasGroup.offers (h : l.HasGroup t u) : l.Offers .supersets t u := by
  induction h with
  | @declared t u hmade _ hedge =>
    refine .stored ?_ hedge
    cases t with
    | unary => cases hmade
    | _ => rfl
  | inner _ ih => exact .widenInner ih

lemma OffersNonGroup.offers (h : l.OffersNonGroup t u) : l.Offers .supersets t u := by
  induction h with
  | stored hleaf hedge => exact .stored hleaf hedge
  | outer => exact .outer
  | widenInner _ ih => exact .widenInner ih

lemma HasGroup.innermostPart (h : l.HasGroup t u) : u.innermostPart.isMadeBy .intersection = true := by
  induction h with
  | @declared t u _ hmade _ =>
    cases u with
    | unary => cases hmade
    | _ => exact hmade
  | inner _ ih => exact ih

lemma Offers.hasGroup_or (h : l.Offers d t u) (hd : d = .supersets) : l.HasGroup t u ∨ l.OffersNonGroup t u := by
  induction h with
  | @stored d t u hleaf hedge =>
    subst hd
    by_cases hgroup : t.isMadeBy .intersection = true ∧ u.isMadeBy .intersection = true
    · exact .inl (.declared hgroup.1 hgroup.2 hedge)
    · exact .inr (.stored hleaf hedge (by simpa using hgroup))
  | outer => exact .inr .outer
  | widenInner _ ih => exact (ih hd).imp .inner .widenInner
  | _ => cases hd

lemma path_of_hasGroup (h : ReflTransGen l.HasGroup t u) : ReflTransGen (l.Offers .supersets) t u :=
  ReflTransGen.mono (fun _ _ hstep => hstep.offers) t u h

lemma path_of_offersNonGroup (h : ReflTransGen l.OffersNonGroup t u) : ReflTransGen (l.Offers .supersets) t u :=
  ReflTransGen.mono (fun _ _ hstep => hstep.offers) t u h

/-- Nothing is asked where `b` leads up to `m` without leading to a group. -/
lemma GroupedAlike.refl (l : Lattice) (t c : Ty) : l.GroupedAlike t t c :=
  fun r s hr _ hequal => ⟨r, s, hr, .refl, hequal⟩

lemma MeetsAt.eq_or_group (h : l.MeetsAt a b t m) : t = m ∨ m.innermostPart.isMadeBy .intersection = true := by
  rcases ReflTransGen.cases_tail h.group with rfl | ⟨u, -, hstep⟩
  · exact .inl rfl
  · exact .inr hstep.innermostPart

/-- What is contained stays so while the container widens and the contained narrows. -/
lemma Contains.extend {a a' c c' : Ty} (h : l.Contains a' c')
    (hlow : ReflTransGen (l.Offers .subsets) a a') (hhigh : ReflTransGen (l.Offers .supersets) c c') :
    l.Contains a c := by
  obtain ⟨low, high, hlow', hhigh', hequal⟩ := h
  exact ⟨low, high, hlow.trans hlow', hhigh.trans hhigh', hequal⟩

end Lattice

namespace WellFormed

variable {terms : Terms} {l : Lattice} {ns : List Ty} {s t u a b c : Ty}

lemma offers_evident (h : WellFormed terms l ns) {d : Direction} (ht : t ∈ ns) (hu : u ∈ t.evident d) :
    l.Offers d t u :=
  .stored (Ty.not_container_of_evident hu) ((h.storedAsOffered t ht).evident d u hu)

/-- Equal types lead down to equal types. -/
lemma same_below (h : WellFormed terms l ns) (ht : t.Spanned ns) (hs : s.Spanned ns) (hsame : t.Same s)
    (hoffers : l.Offers .subsets t u) : ∃ v, l.Offers .subsets s v ∧ u.Same v := by
  induction hsame generalizing u with
  | compound label label' op hlength hall =>
    have hoperands := (Ty.same_compound_iff.mp (.compound label label' op hlength hall)).2
    cases (h.offered ht hoffers).2 with
    | operand hu =>
      obtain ⟨v, hv, huv⟩ := exists_related_right hoperands hu
      exact ⟨v, h.offers_evident (hs.mem rfl) hv, huv⟩
  | unary label label' e hsameOuter hsameInner iho ihi =>
    obtain ⟨ho, hi⟩ := h.parts_spanned ht
    obtain ⟨ho', hi'⟩ := h.parts_spanned hs
    cases hoffers with
    | stored hleaf => cases hleaf
    | narrowInner hstep =>
      obtain ⟨v, hv, hsame⟩ := ihi hi hi' hstep
      exact ⟨.unary label' _ e v, .narrowInner hv, .unary _ _ e hsameOuter hsame⟩
    | narrowOuter hstep =>
      obtain ⟨v, hv, hsame⟩ := iho ho ho' hstep
      exact ⟨.unary label' v e _, .narrowOuter hv, .unary _ _ e hsame hsameInner⟩
    | narrowBoth hstep hstep' =>
      obtain ⟨v, hv, hsame⟩ := iho ho ho' hstep
      obtain ⟨w, hw, hsame'⟩ := ihi hi hi' hstep'
      exact ⟨.unary label' v e w, .narrowBoth hv hw, .unary _ _ e hsame hsame'⟩
  | _ => cases (h.offered ht hoffers).2

lemma same_below_path (h : WellFormed terms l ns) (ht : t.Spanned ns) (hs : s.Spanned ns)
    (hsame : t.Same s) (hpath : ReflTransGen (l.Offers .subsets) t u) :
    ∃ v, ReflTransGen (l.Offers .subsets) s v ∧ u.Same v := by
  induction hpath with
  | refl => exact ⟨s, .refl, hsame⟩
  | tail hpath hstep ih =>
    obtain ⟨w, hw, hsame'⟩ := ih
    obtain ⟨v, hv, huv⟩ :=
      h.same_below (h.spanned_of_path ht hpath) (h.spanned_of_path hs hw) hsame' hstep
    exact ⟨v, hw.tail hv, huv⟩

lemma contains_of_same (h : WellFormed terms l ns) (ht : t.Spanned ns) (hs : s.Spanned ns)
    (hsame : t.Same s) (hcontains : l.Contains t c) : l.Contains s c := by
  obtain ⟨low, high, hlow, hhigh, hmeet⟩ := Lattice.contains_iff_exists_same.mp hcontains
  obtain ⟨low', hlow', hsame'⟩ := h.same_below_path ht hs hsame hlow
  exact Lattice.contains_iff_exists_same.mpr ⟨low', high, hlow', hhigh, hsame'.symm.trans hmeet⟩

/-- Equal outer parts lead down to equal types, so what the inner parts contain decides. -/
lemma contains_container_of_same (h : WellFormed terms l ns) {outer outer' low low' inner inner' : Ty}
    {label label' : Label} {e : Fn} (ho : outer.Spanned ns) (ho' : outer'.Spanned ns)
    (hlow' : low'.Spanned ns) (hi : inner.Spanned ns) (hi' : inner'.Spanned ns) (hsame : outer'.Same outer)
    (hpath : ReflTransGen (l.Offers .subsets) outer low) (hsame' : low.Same low')
    (hinner : l.Contains inner inner') :
    l.Contains (.unary label outer' e inner) (.unary label' low' e inner') := by
  obtain ⟨v, hv, hlow⟩ := h.same_below_path ho ho' hsame.symm hpath
  have hequal : low'.equals v = .ok true := Ty.equals_iff_same.mpr (hsame'.symm.trans hlow)
  exact (h.contains_container_iff ho' hlow' hi hi' label label' e e).mpr
    (.inl ⟨rfl, ⟨v, hv, hequal⟩, hinner⟩)

/-- Equal types that are no containers lead up to equal types, except from intersection to intersection. -/
lemma same_above (h : WellFormed terms l ns) (hterms : ¬terms.differences) (ht : t ∈ ns) (hs : s ∈ ns)
    (hleaf : t.isContainer = false) (hsame : t.Same s) (hoffers : l.Offers .supersets t u)
    (hu : t.isMadeBy .intersection = true → u.isMadeBy .intersection = false) :
    ∃ v, l.Offers .supersets s v ∧ u.Same v := by
  cases (h.offered (.node ht) hoffers).2 with
  | @merged label op ts _ hop hcontribution _ =>
    cases hsame with
    | compound _ label' _ hlength hall =>
      have hoperands := (Ty.same_compound_iff.mp (.compound label label' op hlength hall)).2
      cases op with
      | union => exact (hop rfl).elim
      | difference =>
        cases (h.sound _ ht).regular with
        | compound _ hop => exact (hterms (hop rfl)).elim
      | intersection =>
        have huleaf := hu rfl
        have hmem : u ∈ ts := by
          apply hcontribution
          rw [Ty.contribution_eq_singleton (Ty.absorbed?_intersection huleaf)]
          exact List.mem_singleton_self u
        obtain ⟨v, hv, huv⟩ := exists_related_right hoperands hmem
        refine ⟨v, h.offers_evident hs (List.mem_filter.mpr ⟨hv, ?_⟩), huv⟩
        rw [← huv.isMadeBy_eq, huleaf]
        rfl
  | left =>
    cases hsame with
    | without _ _ hleft _ => exact ⟨_, h.offers_evident hs (List.mem_singleton_self _), hleft⟩
  | _ => cases hleaf

/-- A way up from a group, if it leads to no group in turn, starts from the intersection as well, as that declares
all its operands. -/
lemma offersNonGroup_of_hasGroup (h : WellFormed terms l ns) (ht : t.Spanned ns) (hgroup : l.HasGroup t u)
    (hstep : l.OffersNonGroup u s) : l.OffersNonGroup t s := by
  induction hgroup generalizing s with
  | @declared t u hmade hmade' hedge =>
    obtain ⟨label, ts, rfl⟩ := Ty.exists_of_isMadeBy hmade
    obtain ⟨label', us, rfl⟩ := Ty.exists_of_isMadeBy hmade'
    cases hstep with
    | stored _ hedge' hs =>
      have hnode := h.spanned_of_path ht (.single (.stored rfl hedge))
      obtain ⟨-, hleads⟩ := h.offered ht (.stored rfl hedge)
      obtain ⟨-, hleads'⟩ := h.offered hnode (.stored rfl hedge')
      cases hleads with
      | merged _ hus =>
        cases hleads' with
        | merged _ hts =>
          have hleaf := hs hmade'
          rw [Ty.contribution_eq_singleton (Ty.absorbed?_intersection hleaf)] at hts
          have hmem : s ∈ ts := hus (hts (List.mem_singleton_self s))
          have hoffers : l.Offers .supersets (.compound label .intersection ts) s :=
            h.offers_evident (ht.mem rfl) (List.mem_filter.mpr ⟨hmem, by rw [hleaf]; rfl⟩)
          exact .stored rfl (hoffers.edge rfl) fun _ => hleaf
  | inner _ ih =>
    cases hstep with
    | stored hleaf => cases hleaf
    | outer => exact .outer
    | widenInner hstep => exact .widenInner (ih (h.parts_spanned ht).2 hstep)

/-- Every way up leads to groups at its end only. -/
lemma exists_group_of_path (h : WellFormed terms l ns) (hb : b.Spanned ns)
    (hpath : ReflTransGen (l.Offers .supersets) b m) :
    ∃ t, ReflTransGen l.OffersNonGroup b t ∧ ReflTransGen l.HasGroup t m := by
  induction hpath with
  | refl => exact ⟨b, .refl, .refl⟩
  | @tail u m _ hoffers ih =>
    obtain ⟨t, habove, hgroup⟩ := ih
    rcases hoffers.hasGroup_or rfl with hstep | hstep
    · exact ⟨t, habove, hgroup.tail hstep⟩
    · refine ⟨m, habove.tail ?_, .refl⟩
      have ht := h.spanned_of_path hb (Lattice.path_of_offersNonGroup habove)
      clear habove
      induction hgroup using ReflTransGen.head_induction_on with
      | refl => exact hstep
      | head hfirst _ ih =>
        exact h.offersNonGroup_of_hasGroup ht hfirst (ih (h.offered ht hfirst.offers).1)

/-- One type contains another exactly if it meets it somewhere. -/
lemma contains_iff_meetsAt (h : WellFormed terms l ns) (hb : b.Spanned ns) :
    l.Contains a b ↔ ∃ t m, l.MeetsAt a b t m := by
  constructor
  · rintro ⟨low, m, hlow, hhigh, hequal⟩
    obtain ⟨t, habove, hgroup⟩ := h.exists_group_of_path hb hhigh
    exact ⟨t, m, ⟨low, hlow, hequal⟩, habove, hgroup⟩
  · rintro ⟨t, m, ⟨low, hlow, hequal⟩, habove, hgroup⟩
    exact ⟨low, m, hlow, (Lattice.path_of_offersNonGroup habove).trans (Lattice.path_of_hasGroup hgroup), hequal⟩

/-- What a type leads up to without leading to a group contains all that the type contains. -/
lemma contains_of_offersNonGroup (h : WellFormed terms l ns) (hterms : ¬terms.differences) (hb : b.Spanned ns)
    (hc : c.Spanned ns) (hstep : l.OffersNonGroup b u) (hbc : l.Contains b c) : l.Contains u c := by
  induction hstep generalizing c with
  | @stored b u hleaf hedge hgroup =>
    obtain ⟨low, high, hlow, hhigh, hmeet⟩ := Lattice.contains_iff_exists_same.mp hbc
    have hoffers : l.Offers .supersets b u := .stored hleaf hedge
    -- a type that leads up does not lead down, so an equal of it lies above the other one
    obtain rfl : low = b :=
      Ty.eq_of_leads_down (h.leads_of_path hb hlow) hleaf (h.offered hb hoffers).2.not_union
    have hhighLeaf : high.isContainer = false := hmeet.isContainer_eq.symm.trans hleaf
    have hs := (h.spanned_of_path hc hhigh).mem hhighLeaf
    obtain ⟨v, hv, huv⟩ := h.same_above hterms (hb.mem hleaf) hs hleaf hmeet hoffers hgroup
    exact Lattice.contains_iff_exists_same.mpr ⟨u, v, .refl, hhigh.tail hv, huv⟩
  | outer => exact hbc.outer
  | @widenInner label label' outer inner inner' e hstep ih =>
    obtain ⟨ho, hi⟩ := h.parts_spanned hb
    obtain ⟨low, high, hlow, hhigh, hmeet⟩ := Lattice.contains_iff_exists_same.mp hbc
    obtain ⟨_, outerLow, innerLow, rfl, hnarrow, hnarrow'⟩ := narrowed_of_path hlow
    cases hmeet with
    | @unary _ labelC _ _ outerC _ innerC houter hinner =>
      obtain ⟨hoC, hiC⟩ := h.parts_spanned (h.spanned_of_path hc hhigh)
      have hinners : l.Contains inner' innerC :=
        ih hi hiC (Lattice.contains_iff_exists_same.mpr ⟨innerLow, innerC, hnarrow', .refl, hinner⟩)
      have hi' := (h.offered hi hstep.offers).1
      exact (h.contains_container_of_same ho ho hoC hi' hiC (.refl (h.proper ho)) hnarrow houter hinners).extend
        .refl hhigh

lemma contains_of_path (h : WellFormed terms l ns) (hterms : ¬terms.differences) (hb : b.Spanned ns)
    (hc : c.Spanned ns) (hpath : ReflTransGen l.OffersNonGroup b t) (hbc : l.Contains b c) : l.Contains t c := by
  induction hpath with
  | refl => exact hbc
  | tail hpath hstep ih =>
    have ht := h.spanned_of_path hb (Lattice.path_of_offersNonGroup hpath)
    exact h.contains_of_offersNonGroup hterms ht hc hstep ih

/-- Containment passes on through a type where it is met at one that the type at the end is grouped alike for. -/
theorem contains_trans (h : WellFormed terms l ns) (hterms : ¬terms.differences) (ha : a.Spanned ns)
    (hb : b.Spanned ns) (hc : c.Spanned ns) {t m : Ty} (hmeets : l.MeetsAt a b t m) (hgrouped : l.GroupedAlike t m c)
    (hbc : l.Contains b c) : l.Contains a c := by
  obtain ⟨r, s, hr, hs, hmeet⟩ := h.contains_of_path hterms hb hc hmeets.above hbc
  obtain ⟨low', group, hlow', hgroup, hequal⟩ := hgrouped r s hr hs hmeet
  have hmc : l.Contains m c :=
    ⟨low', group, hlow', hs.trans (Lattice.path_of_hasGroup hgroup), hequal⟩
  obtain ⟨low, hlow, hsame⟩ := hmeets.below
  have ht := h.spanned_of_path hb (Lattice.path_of_offersNonGroup hmeets.above)
  have hm := h.spanned_of_path ht (Lattice.path_of_hasGroup hmeets.group)
  have hsame' := (Ty.equals_iff_same.mp hsame).symm
  exact (h.contains_of_same hm (h.spanned_of_path ha hlow) hsame' hmc).extend hlow .refl

lemma supersedes_run (h : WellFormed terms l ns) (hdoc : terms.documented) (ha : a ∈ ns) (hb : b ∈ ns) :
    ∃ answer l' ns', Build.supersedes (.type a) (.type b) l = (.ok answer, l') ∧ WellFormed terms l' ns' ∧
      ns ⊆ ns' ∧ l.Grows l' ∧ (answer = true ↔ l.Contains a b) := by
  obtain ⟨answer, hanswer⟩ := h.supersedes_answers hdoc ha hb
  obtain ⟨ns', hpop, hns, hgrows, -⟩ := supersedes_outcome (walkable terms) h ha hb
  refine ⟨answer, _, ns', Prod.ext hanswer rfl, hpop, hns, hgrows, ?_⟩
  rw [← h.supersedes_iff hdoc ha hb, hanswer, Except.ok.injEq]

end WellFormed

/-- Three questions asked one after the other: they are answered. The first type contains the second one if it
meets it somewhere, and then it contains all that the second one contains. Only where it meets it at an
intersection, or at a container of such, it is asked that the third type is grouped alike there. -/
theorem Made.supersedes_passes_on {l : Lattice} {ts : List Ty}
    (h : Made { documented := True, differences := False } l ts) {a b c : Ty} (ha : a ∈ ts) (hb : b ∈ ts)
    (hc : c ∈ ts) :
    ∃ first second both, ((do
      let first ← Build.supersedes (.type a) (.type b)
      let second ← Build.supersedes (.type b) (.type c)
      let both ← Build.supersedes (.type a) (.type c)
      return (first, second, both)) l).1 = .ok (first, second, both) ∧
      (first = true ↔ ∃ t m, l.MeetsAt a b t m) ∧
      ∀ t m, l.MeetsAt a b t m → (m.innermostPart.isMadeBy .intersection = true → l.GroupedAlike t m c) →
        second = true → both = true := by
  obtain ⟨ns, hpop, hns⟩ := h.wellFormed
  obtain ⟨first, l₁, ns₁, hrun₁, hpop₁, hns₁, hgrows₁, hfirst⟩ :=
    hpop.supersedes_run trivial (hns ha) (hns hb)
  obtain ⟨second, l₂, ns₂, hrun₂, hpop₂, hns₂, hgrows₂, hsecond⟩ :=
    hpop₁.supersedes_run trivial (hns₁ (hns hb)) (hns₁ (hns hc))
  obtain ⟨both, l₃, -, hrun₃, -, -, -, hboth⟩ :=
    hpop₂.supersedes_run trivial (hns₂ (hns₁ (hns ha))) (hns₂ (hns₁ (hns hc)))
  refine ⟨first, second, both, ?_, hfirst.trans (hpop.contains_iff_meetsAt (.node (hns hb))), ?_⟩
  · rw [bind_of_ok hrun₁, bind_of_ok hrun₂, bind_of_ok hrun₃, pure_apply]
  -- the questions leave everything as it was for the old types
  rw [hpop.contains_iff (hgrows₁.trans hgrows₂) (.node (hns ha)) (.node (hns hc))] at hboth
  rw [hpop.contains_iff hgrows₁ (.node (hns hb)) (.node (hns hc))] at hsecond
  intro t m hmeets hgrouped hbc
  refine hboth.mpr (hpop.contains_trans id (.node (hns ha)) (.node (hns hb)) (.node (hns hc)) hmeets ?_
    (hsecond.mp hbc))
  rcases hmeets.eq_or_group with rfl | hgroup
  · exact .refl l t c
  · exact hgrouped hgroup

section Regrouping

/-- The three tests taken together a third time, after the first two were taken together in the other order. -/
def regroupedTypes : List Ty :=
  let joined (id : Nat) (name : String) (ts : List Ty) : Ty :=
    .compound ⟨id, id, some [name],
      some (Build.docLink "intersection" :: ts.map fun _ => Build.docLink "predicate")⟩ .intersection ts
  let all := [groupedType 6, groupedType 5, groupedType 4]
  [joined 8 "(even ∩ positive ∩ small)" all, joined 7 "(even ∩ positive)" (all.take 2)]

def regroupedType (i : Nat) : Ty := regroupedTypes.getD i default

def regroupedLattice : Lattice :=
  ⟨groupedLattice.entries.push ⟨some [], some [.type (groupedType 5), .type (groupedType 6)]⟩ |>.push
    ⟨some [], some [.type (regroupedType 1), .type (groupedType 4), .type (groupedType 5), .type (groupedType 6)]⟩, 9⟩

lemma regroupedLattice_made (terms : Terms) : Made terms regroupedLattice (regroupedTypes ++ groupedTypes) := by
  have hpair : Made terms
      ⟨groupedLattice.entries.push ⟨some [], some [.type (groupedType 5), .type (groupedType 6)]⟩, 8⟩
      (regroupedTypes.drop 1 ++ groupedTypes) :=
    .act (.refine (.operator .intersection (groupedType 5)) (groupedType 6)) (groupedLattice_made terms)
      ⟨⟨by simp [Terms.operators], by simp [groupedTypes, groupedType]⟩, by simp [groupedTypes, groupedType]⟩
  exact .act (.refine (.operator .intersection (regroupedType 1)) (groupedType 4)) hpair
    ⟨⟨by simp [Terms.operators], by simp [regroupedTypes, regroupedType]⟩, by simp [groupedTypes, groupedType]⟩

/-- The third way to take the tests together declares a group that is equal to that of the first one. -/
lemma regroupedType_alike : regroupedLattice.GroupedAlike (groupedType 2) (groupedType 3) (regroupedType 0) := by
  have hbelow : regroupedLattice.stored? .subsets (groupedType 2).id = some ([].map .type) := rfl
  have hall : regroupedLattice.stored? .supersets (regroupedType 0).id =
      some ([regroupedType 1, groupedType 4, groupedType 5, groupedType 6].map .type) := rfl
  have hpair : regroupedLattice.stored? .supersets (regroupedType 1).id =
      some ([groupedType 5, groupedType 6].map .type) := rfl
  have htest : ∀ t ∈ [groupedType 4, groupedType 5, groupedType 6],
      t.isContainer = false ∧ regroupedLattice.stored? .supersets t.id = some ([].map .type) := by
    simp only [List.forall_mem_cons, List.not_mem_nil, false_imp_iff, implies_true, and_true]
    exact ⟨⟨rfl, rfl⟩, ⟨rfl, rfl⟩, rfl, rfl⟩
  have habove : ∀ {s}, ReflTransGen (regroupedLattice.Offers .supersets) (regroupedType 0) s →
      s = regroupedType 0 ∨ s = regroupedType 1 ∨ s ∈ [groupedType 4, groupedType 5, groupedType 6] := by
    intro s hs
    induction hs with
    | refl => exact .inl rfl
    | tail _ hstep ih =>
      rcases ih with rfl | rfl | ht
      · exact .inr (List.mem_cons.mp ((Lattice.edge_iff hall).mp (hstep.edge rfl)))
      · exact .inr (.inr (List.mem_cons_of_mem _ ((Lattice.edge_iff hpair).mp (hstep.edge rfl))))
      · cases (Lattice.edge_iff (htest _ ht).2).mp (hstep.edge (htest _ ht).1)
  intro r s hr hs hequal
  obtain rfl : r = groupedType 2 := by
    rcases ReflTransGen.cases_head hr with rfl | ⟨u, hfirst, -⟩
    · rfl
    · cases (Lattice.edge_iff hbelow).mp (hfirst.edge rfl)
  rcases habove hs with rfl | rfl | hs
  · have hgroup : regroupedLattice.HasGroup (regroupedType 0) (regroupedType 1) :=
      .declared rfl rfl ((Lattice.edge_iff hall).mpr List.mem_cons_self)
    exact ⟨groupedType 3, regroupedType 1, .refl, .single hgroup, rfl⟩
  · cases hequal
  · simp only [List.mem_cons, List.not_mem_nil, or_false] at hs
    rcases hs with rfl | rfl | rfl <;> cases hequal

/-- One test contains all three, taken together in two ways. Two tests contain all three, taken together in two
ways that both start with these. -/
theorem Made.supersedes_passes_on_regrouped :
    Made { documented := True, differences := False } regroupedLattice (regroupedTypes ++ groupedTypes) ∧
      regroupedLattice.MeetsAt (groupedType 6) (groupedType 2) (groupedType 6) (groupedType 6) ∧
      ((do
        let first ← Build.supersedes (.type (groupedType 6)) (.type (groupedType 2))
        let second ← Build.supersedes (.type (groupedType 2)) (.type (groupedType 0))
        let both ← Build.supersedes (.type (groupedType 6)) (.type (groupedType 0))
        return (first, second, both)) regroupedLattice).1 = .ok (true, true, true) ∧
      regroupedLattice.MeetsAt (groupedType 3) (groupedType 2) (groupedType 2) (groupedType 3) ∧
      regroupedLattice.GroupedAlike (groupedType 2) (groupedType 3) (regroupedType 0) ∧
      ((do
        let first ← Build.supersedes (.type (groupedType 3)) (.type (groupedType 2))
        let second ← Build.supersedes (.type (groupedType 2)) (.type (regroupedType 0))
        let both ← Build.supersedes (.type (groupedType 3)) (.type (regroupedType 0))
        return (first, second, both)) regroupedLattice).1 = .ok (true, true, true) := by
  have hmade := regroupedLattice_made { documented := True, differences := False }
  have hmem : ∀ i < 7, groupedType i ∈ regroupedTypes ++ groupedTypes := by
    intro i hi
    rw [groupedType, List.getD_eq_getElem groupedTypes default hi]
    exact List.mem_append_right _ (List.getElem_mem hi)
  have hthird : regroupedType 0 ∈ regroupedTypes ++ groupedTypes := by simp [regroupedTypes, regroupedType]
  have hdeclared : regroupedLattice.stored? .supersets (groupedType 2).id =
      some ([groupedType 3, groupedType 4, groupedType 6, groupedType 5].map .type) := rfl
  have htest : regroupedLattice.MeetsAt (groupedType 6) (groupedType 2) (groupedType 6) (groupedType 6) :=
    ⟨⟨_, .refl, rfl⟩, .single (.stored rfl ((Lattice.edge_iff hdeclared).mpr (by simp)) fun _ => rfl), .refl⟩
  have hpair : regroupedLattice.MeetsAt (groupedType 3) (groupedType 2) (groupedType 2) (groupedType 3) :=
    ⟨⟨_, .refl, rfl⟩, .refl, .single (.declared rfl rfl ((Lattice.edge_iff hdeclared).mpr (by simp)))⟩
  have hchain : ∀ {a b c t m}, a ∈ regroupedTypes ++ groupedTypes → b ∈ regroupedTypes ++ groupedTypes →
      c ∈ regroupedTypes ++ groupedTypes → regroupedLattice.MeetsAt a b t m →
      (m.innermostPart.isMadeBy .intersection = true → regroupedLattice.GroupedAlike t m c) →
      Build.supersedes (.type a) (.type b) regroupedLattice = (.ok true, regroupedLattice) →
      Build.supersedes (.type b) (.type c) regroupedLattice = (.ok true, regroupedLattice) →
      ((do
        let first ← Build.supersedes (.type a) (.type b)
        let second ← Build.supersedes (.type b) (.type c)
        let both ← Build.supersedes (.type a) (.type c)
        return (first, second, both)) regroupedLattice).1 = .ok (true, true, true) := by
    intro a b c t m ha hb hc hmeets hgrouped hfirst hsecond
    obtain ⟨first, second, both, hrun, -, hpasses⟩ := hmade.supersedes_passes_on ha hb hc
    rw [bind_of_ok hfirst, bind_of_ok hsecond] at hrun ⊢
    obtain ⟨answer, l', hanswer, hreturn⟩ := ok_of_bind hrun
    obtain ⟨rfl, rfl, rfl⟩ : true = first ∧ true = second ∧ answer = both := by
      rw [pure_apply, Except.ok.injEq, Prod.mk.injEq, Prod.mk.injEq] at hreturn
      exact hreturn
    rw [hrun, hpasses t m hmeets hgrouped rfl]
  refine ⟨hmade, htest, ?_, hpair, regroupedType_alike, ?_⟩
  · exact hchain (hmem 6 (by decide)) (hmem 2 (by decide)) (hmem 0 (by decide)) htest
      (absurd · Bool.false_ne_true) rfl rfl
  · exact hchain (hmem 3 (by decide)) (hmem 2 (by decide)) hthird hpair (fun _ => regroupedType_alike) rfl rfl

end Regrouping

/-- Two tests taken together contain all three, taken together in one way. They are not found to contain
them taken together in another way, which is equal. -/
theorem regrouped_chain_broken :
    Made { documented := True, differences := False } groupedLattice groupedTypes ∧
      ((do
        let first ← Build.supersedes (.type (groupedType 3)) (.type (groupedType 2))
        let second ← Build.supersedes (.type (groupedType 2)) (.type (groupedType 0))
        let both ← Build.supersedes (.type (groupedType 3)) (.type (groupedType 0))
        return (first, second, both)) groupedLattice).1 = .ok (true, true, false) :=
  ⟨groupedLattice_made _, ok_of_toOption (by decide +kernel)⟩

end StructuralTypes
