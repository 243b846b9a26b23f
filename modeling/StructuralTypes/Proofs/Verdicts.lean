import StructuralTypes.Proofs.EdgesOnDemand

/-!
# Predicted verdicts

What a search is going to answer is predicted without making a node, by going through the predicted edges. No
pair has to be remembered for that, since edges lead down in rank. The answer stays the same if containers
get other numbers, and if the lattice is exchanged for one that has the same types under new numbers.
-/

namespace StructuralTypes

namespace Ty.SameUpToNumbers

variable {t u : Ty}

lemma eq_of_leaf (h : t.SameUpToNumbers u) (ht : t.isContainer = false) : u = t := by
  cases h with
  | refl => rfl
  | unary => cases ht

lemma of_unary {label : Label} {outer inner : Ty} {extractor : Fn}
    (h : (Ty.unary label outer extractor inner).SameUpToNumbers u) :
    ∃ label' outer' inner', u = .unary label' outer' extractor inner' ∧ outer.SameUpToNumbers outer' ∧
      inner.SameUpToNumbers inner' := by
  cases h with
  | refl => exact ⟨label, outer, inner, rfl, .refl outer, .refl inner⟩
  | unary _ _ _ ho hi => exact ⟨_, _, _, rfl, ho, hi⟩

lemma spanned {ns : List Ty} (h : t.SameUpToNumbers u) (hparts : ∀ t ∈ ns, t.parts ⊆ ns) (ht : t.Spanned ns) :
    u.Spanned ns := by
  induction h with
  | refl => exact ht
  | unary extractor _ _ _ _ iho ihi =>
    obtain ⟨ho, hi⟩ := ht.of_unary hparts
    exact .unary _ extractor (iho ho) (ihi hi)

end Ty.SameUpToNumbers

namespace Referent

/-- The same referent except for the numbers of containers. -/
inductive SameUpToNumbers : Referent → Referent → Prop
  | type {t u : Ty} : t.SameUpToNumbers u → SameUpToNumbers (.type t) (.type u)
  | plain (handle : Nat) (v : Value) : SameUpToNumbers (.plain handle v) (.plain handle v)

def Spanned (ns : List Ty) : Referent → Prop
  | .type t => t.Spanned ns
  | .plain .. => True

lemma SameUpToNumbers.refl (r : Referent) : r.SameUpToNumbers r := by
  cases r with
  | type t => exact .type (.refl t)
  | plain handle v => exact .plain handle v

lemma SameUpToNumbers.checkHashable {r s : Referent} (h : r.SameUpToNumbers s) : s.checkHashable = r.checkHashable := by
  cases h <;> rfl

lemma SameUpToNumbers.rank_eq {r s : Referent} (h : r.SameUpToNumbers s) : r.rank = s.rank := by
  cases h with
  | type h => exact h.rank_eq
  | plain => rfl

lemma SameUpToNumbers.equals {r r' s s' : Referent} (hr : r.SameUpToNumbers r') (hs : s.SameUpToNumbers s') :
    r'.equals s' = r.equals s := by
  cases hr with
  | plain => rfl
  | type hr =>
    cases hs with
    | type hs => exact (hr.alike.equals_eq hs.alike).symm
    | plain =>
      cases hr with
      | refl => rfl
      | unary => rfl

end Referent

namespace Lattice

/-- The edges that a referent would answer with. -/
def predict (l : Lattice) (d : Direction) (r : Referent) : Attempt (List Referent) := do
  let t ← r.expect d.feature
  let ts ← l.predicted d t
  return ts.map .type

lemma predict_type (l : Lattice) (d : Direction) (t : Ty) :
    l.predict d (.type t) = (l.predicted d t).map (List.map .type) := by
  change (l.predicted d t >>= fun ts => Except.ok (ts.map Referent.type)) = _
  cases l.predicted d t <;> rfl

/-- What a search would answer that remembers nothing and makes no node. -/
def verdict (l : Lattice) : Nat → Referent → Referent → Attempt Bool
  | 0, _, _ => .error .tooDeep
  | depth + 1, sup, sub => do
    sup.checkHashable
    sub.checkHashable
    if ← sup.equals sub then return true
    let below ← l.predict .subsets sup
    if ← below.anyM fun r => verdict l depth r sub then return true
    let above ← l.predict .supersets sub
    above.anyM fun r => verdict l depth sup r

/-- Types that are not containers have the same edges in both lattices, under new numbers. -/
def SameLeafEdges (ρ : Renumbering) (ns : List Ty) (l l' : Lattice) : Prop :=
  ∀ t ∈ ns, t.isContainer = false → ∀ d,
    l'.stored? d (ρ.id t.id) = (l.stored? d t.id).map (·.map (Referent.renumber ρ))

end Lattice

section LeafEdges

variable {ρ : Renumbering} {ns : List Ty} {l l' : Lattice}

lemma Lattice.sameLeafEdges_refl (l : Lattice) (ns : List Ty) : l.SameLeafEdges .refl ns l := by
  intro t _ _ d
  rw [show Referent.renumber .refl = fun r => r from funext Referent.renumber_refl]
  simp only [List.map_id', Option.map_id']
  rfl

lemma related_predictedContainer {outer outer' inner inner' : Ty} (extractor : Fn)
    (ho : (outer.renumber ρ).SameUpToNumbers outer') (hi : (inner.renumber ρ).SameUpToNumbers inner') :
    RelatedResults .exact (fun v v' => (v.renumber ρ).SameUpToNumbers v') (Ty.predictedContainer outer extractor inner)
      (Ty.predictedContainer outer' extractor inner') := by
  have honame : outer'.canonicalName = outer.canonicalName := by rw [← ho.canonicalName, Ty.canonicalName_renumber]
  have hiname : inner'.canonicalName = inner.canonicalName := by rw [← hi.canonicalName, Ty.canonicalName_renumber]
  have hodoc : outer'.firstDoc = outer.firstDoc := by rw [← ho.firstDoc, Ty.firstDoc_renumber]
  have hidoc : inner'.firstDoc = inner.firstDoc := by rw [← hi.firstDoc, Ty.firstDoc_renumber]
  unfold Ty.predictedContainer
  rw [honame, hiname, hodoc, hidoc]
  apply RelatedResults.bind RelatedResults.of_eq
  rintro outerName _ _ rfl
  apply RelatedResults.bind RelatedResults.of_eq
  rintro innerName _ _ rfl
  apply RelatedResults.bind RelatedResults.of_eq
  rintro outerDoc _ _ rfl
  apply RelatedResults.bind RelatedResults.of_eq
  rintro innerDoc _ _ rfl
  exact .ok (.unary extractor rfl rfl ho hi)

lemma Referent.types_renumber (rs : List Referent) :
    Referent.types (rs.map (Referent.renumber ρ)) = (Referent.types rs).map (Ty.renumber ρ) := by
  unfold Referent.types
  rw [List.filterMap_map, List.map_filterMap]
  congr 1
  funext r
  cases r <;> rfl

/-- The edges predicted for a type and for its image. -/
lemma related_predicted (hparts : ∀ t ∈ ns, t.parts ⊆ ns) (hleaves : l.SameLeafEdges ρ ns l') (d : Direction)
    {t t' : Ty} (ht : t.Spanned ns) (hnumbers : (t.renumber ρ).SameUpToNumbers t') :
    RelatedResults .exact (List.Forall₂ fun v v' => (v.renumber ρ).SameUpToNumbers v') (l.predicted d t)
      (l'.predicted d t') := by
  induction t generalizing d t' with
  | unary label outer extractor inner iho ihi =>
    obtain ⟨ho, hi⟩ := ht.of_unary hparts
    obtain ⟨label', outer', inner', rfl, hko, hki⟩ := hnumbers.of_unary
    have hdrafts : ∀ {o o' : Ty}, (o.renumber ρ).SameUpToNumbers o' → ∀ {is is' : List Ty},
        List.Forall₂ (fun v v' => (v.renumber ρ).SameUpToNumbers v') is is' →
        RelatedResults .exact (List.Forall₂ fun v v' => (v.renumber ρ).SameUpToNumbers v')
          (is.mapM fun i => Ty.predictedContainer o extractor i)
          (is'.mapM fun i => Ty.predictedContainer o' extractor i) :=
      fun hko is is' his => .mapM (his.imp fun _ _ hki => related_predictedContainer extractor hko hki)
    cases d with
    | subsets =>
      rw [Lattice.predicted, Lattice.predicted]
      apply (iho .subsets ho hko).bind
      intro outers outers' _ houters
      apply (ihi .subsets hi hki).bind
      intro inners inners' _ hinners
      apply (hdrafts hko hinners).bind
      intro first first' _ hfirst
      have hrows : RelatedResults .exact (List.Forall₂ (List.Forall₂ fun v v' => (v.renumber ρ).SameUpToNumbers v'))
          (outers.mapM fun o => (inner :: inners).mapM fun i => Ty.predictedContainer o extractor i)
          (outers'.mapM fun o => (inner' :: inners').mapM fun i => Ty.predictedContainer o extractor i) :=
        .mapM (houters.imp fun _ _ hko => hdrafts hko (.cons hki hinners))
      apply hrows.bind
      intro rest rest' _ hrest
      exact .ok (List.rel_append hfirst (List.rel_flatten hrest))
    | supersets =>
      rw [Lattice.predicted, Lattice.predicted]
      apply (ihi .supersets hi hki).bind
      intro inners inners' _ hinners
      apply (hdrafts hko hinners).bind
      intro widened widened' _ hwidened
      exact .ok (.cons hko hwidened)
  | _ =>
    have hmem := ht.mem rfl
    rw [hnumbers.eq_of_leaf rfl, Lattice.predicted_of_leaf rfl, Lattice.predicted_of_leaf rfl, Ty.id_renumber,
      hleaves _ hmem rfl]
    refine .ok ?_
    have hgetD : ∀ rs? : Option (List Referent), (rs?.map (·.map (Referent.renumber ρ))).getD [] =
        (rs?.getD []).map (Referent.renumber ρ) := by
      intro rs?
      cases rs? <;> rfl
    rw [hgetD, Referent.types_renumber, List.forall₂_map_right_iff]
    exact List.forall₂_same.mpr fun v _ => .refl _

lemma related_predict (hparts : ∀ t ∈ ns, t.parts ⊆ ns) (hleaves : l.SameLeafEdges ρ ns l') (d : Direction)
    {r r' : Referent} (hr : r.Spanned ns) (hnumbers : (r.renumber ρ).SameUpToNumbers r') :
    RelatedResults .exact (List.Forall₂ fun s s' => (s.renumber ρ).SameUpToNumbers s') (l.predict d r)
      (l'.predict d r') := by
  cases r with
  | plain handle v =>
    cases hnumbers
    exact .error rfl
  | type t =>
    cases hnumbers with
    | type hnumbers =>
      apply (related_predicted hparts hleaves d hr hnumbers).bind
      intro ts ts' _ hts
      refine .ok ?_
      rw [List.forall₂_map_left_iff, List.forall₂_map_right_iff]
      exact hts.imp fun _ _ hnumbers => .type hnumbers

lemma RelatedResults.anyM {c : Comparison} {α β : Type} {f : α → Attempt Bool} {g : β → Attempt Bool} {as : List α}
    {bs : List β} (h : List.Forall₂ (fun a b => RelatedResults c Eq (f a) (g b)) as bs) :
    RelatedResults c Eq (as.anyM f) (bs.anyM g) := by
  induction h with
  | nil => exact .ok rfl
  | cons hab _ ih =>
    apply hab.bind
    rintro found _ _ rfl
    cases found with
    | true => exact .ok rfl
    | false => exact ih

end LeafEdges

section Verdicts

variable {ρ : Renumbering} {ns : List Ty} {l l' : Lattice}

/-- What a type offers is made of the same nodes. -/
lemma Lattice.Untouched.spanned (h : l.Untouched ns) (hparts : ∀ t ∈ ns, t.parts ⊆ ns) {d : Direction} {t u : Ty}
    (ht : t.Spanned ns) (hu : l.Offers d t u) : u.Spanned ns := by
  induction hu with
  | @stored d t u hleaf hedge =>
    obtain ⟨us, hus, hback⟩ := h.settled t (ht.mem hleaf) hleaf d
    exact .node (hback u ((Lattice.edge_iff hus).mp hedge)).1
  | narrowInner _ ih => exact .unary _ _ (ht.of_unary hparts).1 (ih (ht.of_unary hparts).2)
  | narrowOuter _ ih => exact .unary _ _ (ih (ht.of_unary hparts).1) (ht.of_unary hparts).2
  | narrowBoth _ _ iho ihi => exact .unary _ _ (iho (ht.of_unary hparts).1) (ihi (ht.of_unary hparts).2)
  | outer => exact (ht.of_unary hparts).1
  | widenInner _ ih => exact .unary _ _ (ht.of_unary hparts).1 (ih (ht.of_unary hparts).2)

lemma spanned_of_predicted (h : l.Untouched ns) (hparts : ∀ t ∈ ns, t.parts ⊆ ns) {d : Direction} {t : Ty}
    (ht : t.Spanned ns) {vs : List Ty} (hvs : l.predicted d t = .ok vs) : ∀ v ∈ vs, v.Spanned ns :=
  fun _ hv => h.spanned hparts ht (Lattice.offers_of_predicted hvs hv)

/-- What is predicted for a referent is smaller and made of the same nodes. -/
lemma descends_of_predict (h : NodeEnumeration True l ns) {d : Direction} {r : Referent} (hr : r.Spanned ns)
    {rs : List Referent} (hrs : l.predict d r = .ok rs) : ∀ s ∈ rs, s.Spanned ns ∧ s.rank < r.rank := by
  cases r with
  | plain => cases hrs
  | type t =>
    obtain ⟨_, ⟨⟩, hrs⟩ := ok_of_attempt hrs
    obtain ⟨ts, hts, hrs⟩ := ok_of_attempt hrs
    rw [← Except.ok.inj hrs]
    intro s hs
    obtain ⟨u, hu, rfl⟩ := List.mem_map.mp hs
    exact ⟨spanned_of_predicted (h.untouched trivial) h.parts hr hts u hu,
      rank_lt_of_predicted (h.untouched trivial) h.parts hr hts u hu⟩

/-- The same question about other numbers in a lattice with the same edges has the same answer. -/
theorem related_verdict (h : NodeEnumeration True l ns) (hleaves : l.SameLeafEdges ρ ns l') (depth : Nat)
    {sup sup' sub sub' : Referent} (hsup : sup.Spanned ns) (hsub : sub.Spanned ns)
    (hsup' : (sup.renumber ρ).SameUpToNumbers sup') (hsub' : (sub.renumber ρ).SameUpToNumbers sub') :
    RelatedResults .exact Eq (l.verdict depth sup sub) (l'.verdict depth sup' sub') := by
  induction depth generalizing sup sup' sub sub' with
  | zero => exact .error rfl
  | succ depth ih =>
    unfold Lattice.verdict
    rw [hsup'.checkHashable, hsub'.checkHashable, hsup'.equals hsub', Referent.checkHashable_renumber,
      Referent.checkHashable_renumber, Referent.equals_renumber]
    apply RelatedResults.bind RelatedResults.of_eq
    rintro _ _ _ rfl
    apply RelatedResults.bind RelatedResults.of_eq
    rintro _ _ _ rfl
    apply RelatedResults.bind RelatedResults.of_eq
    rintro same _ _ rfl
    cases same with
    | true => exact .ok rfl
    | false =>
      apply (related_predict h.parts hleaves .subsets hsup hsup').bind
      intro below below' hbelow hallNumbers
      have hany : RelatedResults .exact Eq (below.anyM fun r => l.verdict depth r sub)
          (below'.anyM fun r => l'.verdict depth r sub') := by
        apply RelatedResults.anyM
        refine ((List.forall₂_and_left below below').mpr ⟨?_, hallNumbers⟩).imp fun r r' hr => ih hr.1 hsub hr.2 hsub'
        exact fun r hr => (descends_of_predict h hsup hbelow r hr).1
      apply hany.bind
      rintro found _ _ rfl
      cases found with
      | true => exact .ok rfl
      | false =>
        apply (related_predict h.parts hleaves .supersets hsub hsub').bind
        intro above above' habove hallNumbers'
        apply RelatedResults.anyM
        refine ((List.forall₂_and_left above above').mpr ⟨?_, hallNumbers'⟩).imp fun r r' hr => ih hsup hr.1 hsup' hr.2
        exact fun r hr => (descends_of_predict h hsub habove r hr).1

lemma eq_of_relatedResults {α : Type} {x y : Attempt α} (h : RelatedResults .exact Eq x y) : x = y := by
  cases h with
  | ok heq => exact congrArg Except.ok heq
  | error heq => exact congrArg Except.error heq

/-- Types that are the same up to numbers have the same verdict. -/
lemma verdict_sameUpToNumbers (h : NodeEnumeration True l ns) (depth : Nat) {a a' b b' : Referent} (ha : a.Spanned ns)
    (hb : b.Spanned ns) (hka : a.SameUpToNumbers a') (hkb : b.SameUpToNumbers b') :
    l.verdict depth a' b' = l.verdict depth a b := by
  refine (eq_of_relatedResults (related_verdict h (l.sameLeafEdges_refl ns) depth ha hb ?_ ?_)).symm
  · rw [Referent.renumber_refl]
    exact hka
  · rw [Referent.renumber_refl]
    exact hkb

/-- Any depth beyond the ranks will do. -/
theorem verdict_stable (h : NodeEnumeration True l ns) {depth depth' : Nat} {sup sub : Referent} (hsup : sup.Spanned ns)
    (hsub : sub.Spanned ns) (hdepth : sup.rank + sub.rank < depth) (hdepth' : sup.rank + sub.rank < depth') :
    l.verdict depth sup sub = l.verdict depth' sup sub := by
  apply eq_of_relatedResults
  induction depth generalizing depth' sup sub with
  | zero => omega
  | succ depth ih =>
    obtain ⟨depth', rfl⟩ : ∃ k, depth' = k + 1 := ⟨depth' - 1, by omega⟩
    unfold Lattice.verdict
    apply RelatedResults.bind RelatedResults.of_eq
    rintro _ _ _ rfl
    apply RelatedResults.bind RelatedResults.of_eq
    rintro _ _ _ rfl
    apply RelatedResults.bind RelatedResults.of_eq
    rintro same _ _ rfl
    cases same with
    | true => exact .ok rfl
    | false =>
      apply RelatedResults.bind RelatedResults.of_eq
      rintro below _ hbelow rfl
      have hany : RelatedResults .exact Eq (below.anyM fun r => l.verdict depth r sub)
          (below.anyM fun r => l.verdict depth' r sub) := by
        apply RelatedResults.anyM
        refine List.forall₂_same.mpr fun r hr => ?_
        obtain ⟨hspanned, hlt⟩ := descends_of_predict h hsup hbelow r hr
        exact ih hspanned hsub (by omega) (by omega)
      apply hany.bind
      rintro found _ _ rfl
      cases found with
      | true => exact .ok rfl
      | false =>
        apply RelatedResults.bind RelatedResults.of_eq
        rintro above _ habove rfl
        apply RelatedResults.anyM
        refine List.forall₂_same.mpr fun r hr => ?_
        obtain ⟨hspanned, hlt⟩ := descends_of_predict h hsub habove r hr
        exact ih hsup hspanned (by omega) (by omega)

end Verdicts

end StructuralTypes
