import StructuralTypes.Proofs.LatticeEmbedding

/-!
# Edges on demand

As long as no edge is overwritten, asking a type for its edges gives those predicted, whether they were worked
out before or not, and extends the lattice without changing what is predicted for any type.
Edges lead down in rank, so that no way along them is longer than the rank of the type it starts from.
-/

namespace StructuralTypes

namespace Ty

/-- A number that falls along edges: it doubles with each new node, and for a container it is that of its
parts together, whoever made it and when. -/
def rank : Ty → Nat
  | .unary _ outer _ inner => rank outer + rank inner
  | t => 2 ^ (t.id + 1)

lemma rank_of_leaf {t : Ty} (h : t.isContainer = false) : t.rank = 2 ^ (t.id + 1) := by
  cases t with
  | unary => cases h
  | _ => rfl

lemma rank_pos (t : Ty) : 0 < t.rank := by
  induction t with
  | unary label outer extractor inner iho ihi =>
    rw [rank]
    omega
  | _ => exact Nat.two_pow_pos _

lemma SameUpToNumbers.rank_eq {t u : Ty} (h : t.SameUpToNumbers u) : t.rank = u.rank := by
  induction h with
  | refl => rfl
  | unary extractor _ _ _ _ iho ihi => rw [rank, rank, iho, ihi]

end Ty

/-- The rank of a type, and nothing for a plain value, which has no edges. -/
def Referent.rank : Referent → Nat
  | .type t => t.rank
  | .plain .. => 0

section Ranks

variable {l : Lattice} {ns : List Ty}

lemma Lattice.Untouched.rank_le (h : l.Untouched ns) (hparts : ∀ t ∈ ns, t.parts ⊆ ns) {t : Ty} (ht : t ∈ ns) :
    t.rank ≤ 2 ^ (t.id + 1) := by
  induction t with
  | unary label outer extractor inner iho ihi =>
    have ho : outer ∈ (Ty.unary label outer extractor inner).parts := by simp [Ty.parts]
    have hi : inner ∈ (Ty.unary label outer extractor inner).parts := by simp [Ty.parts]
    have holder := iho (hparts _ ht ho)
    have hilder := ihi (hparts _ ht hi)
    have hopow : 2 ^ (outer.id + 1) ≤ 2 ^ (Ty.unary label outer extractor inner).id :=
      Nat.pow_le_pow_right (by omega) (h.older _ ht outer ho)
    have hipow : 2 ^ (inner.id + 1) ≤ 2 ^ (Ty.unary label outer extractor inner).id :=
      Nat.pow_le_pow_right (by omega) (h.older _ ht inner hi)
    rw [Ty.rank, Nat.pow_succ]
    omega
  | _ => exact le_of_eq (Ty.rank_of_leaf rfl)

/-- Whatever a type offers is of lower rank. -/
lemma Lattice.Untouched.rank_lt (h : l.Untouched ns) (hparts : ∀ t ∈ ns, t.parts ⊆ ns) {d : Direction} {t u : Ty}
    (ht : t.Spanned ns) (hu : l.Offers d t u) : u.rank < t.rank := by
  induction hu with
  | @stored d t u hleaf hedge =>
    obtain ⟨us, hus, hback⟩ := h.settled t (ht.mem hleaf) hleaf d
    obtain ⟨hmem, holder⟩ := hback u ((Lattice.edge_iff hus).mp hedge)
    calc u.rank ≤ 2 ^ (u.id + 1) := h.rank_le hparts hmem
      _ < 2 ^ (t.id + 1) := Nat.pow_lt_pow_right (by omega) (Nat.succ_lt_succ holder)
      _ = t.rank := (Ty.rank_of_leaf hleaf).symm
  | narrowInner _ ih => exact Nat.add_lt_add_left (ih (ht.of_unary hparts).2) _
  | narrowOuter _ ih => exact Nat.add_lt_add_right (ih (ht.of_unary hparts).1) _
  | narrowBoth _ _ iho ihi => exact Nat.add_lt_add (iho (ht.of_unary hparts).1) (ihi (ht.of_unary hparts).2)
  | outer => exact Nat.lt_add_of_pos_right (Ty.rank_pos _)
  | widenInner _ ih => exact Nat.add_lt_add_left (ih (ht.of_unary hparts).2) _

lemma rank_lt_of_predicted (h : l.Untouched ns) (hparts : ∀ t ∈ ns, t.parts ⊆ ns) {d : Direction} {t : Ty}
    (ht : t.Spanned ns) {vs : List Ty} (hvs : l.predicted d t = .ok vs) : ∀ v ∈ vs, v.rank < t.rank :=
  fun _ hv => h.rank_lt hparts ht (Lattice.offers_of_predicted hvs hv)

end Ranks

/-- The extension of a lattice that results from asking for edges: nodes and edges were added. -/
structure DemandExtension (l₀ : Lattice) (ns₀ ns : List Ty) (l : Lattice) (_ : Unit) : Prop where
  enumeration : NodeEnumeration True l ns
  nodes : ns₀ ⊆ ns
  grows : l₀.Grows l
  serials : l₀.nextSerial ≤ l.nextSerial

section Demand

variable {l₀ l : Lattice} {ns₀ ns : List Ty}

lemma NodeEnumeration.predicted_grows (h : NodeEnumeration True l₀ ns₀) (hgrows : l₀.Grows l) {t : Ty}
    (ht : t.Spanned ns₀) (d : Direction) : l.predicted d t = l₀.predicted d t := by
  apply Lattice.predicted_congr h.parts _ d ht
  intro u hu hleaf d
  obtain ⟨us, hus, _⟩ := (h.untouched trivial).settled u hu hleaf d
  rw [hus]
  exact hgrows d u.id _ hus

/-- A node is the one predicted, up to numbers. -/
def Referent.MatchesPrediction (ns : List Ty) (r : Referent) (v : Ty) : Prop :=
  ∃ u ∈ ns, r = .type u ∧ u.SameUpToNumbers v

lemma Referent.MatchesPrediction.mono {ns ns' : List Ty} (hns : ns ⊆ ns') {r : Referent} {v : Ty}
    (h : r.MatchesPrediction ns v) : r.MatchesPrediction ns' v := by
  obtain ⟨u, hu, hr, hnumbers⟩ := h
  exact ⟨u, hns hu, hr, hnumbers⟩

lemma matchesPrediction_self {ts : List Ty} (hts : ts ⊆ ns) :
    List.Forall₂ (Referent.MatchesPrediction ns) (ts.map Referent.type) ts := by
  rw [List.forall₂_map_left_iff]
  exact List.forall₂_same.mpr fun t ht => ⟨t, hts ht, rfl, .refl t⟩

lemma Lattice.Matching.matchesPrediction {d : Direction} {t : Ty} {rs : List Referent} (h : l.Matching d t rs)
    (hknown : ∀ r ∈ rs, r.Known ns) :
    ∃ vs, l.predicted d t = .ok vs ∧ List.Forall₂ (Referent.MatchesPrediction ns) rs vs := by
  obtain ⟨us, vs, rfl, hvs, hnumbers⟩ := h
  refine ⟨vs, hvs, ?_⟩
  rw [List.forall₂_map_left_iff]
  have hus : ∀ u ∈ us, u ∈ ns := fun u hu => hknown (.type u) (List.mem_map_of_mem hu)
  exact (List.forall₂_and_left us vs).mpr ⟨hus, hnumbers⟩ |>.imp fun u v huv => ⟨u, huv.1, rfl, huv.2⟩

lemma matching_of_matchesPrediction {d : Direction} {t : Ty} {rs : List Referent} {vs : List Ty}
    (hvs : l.predicted d t = .ok vs) (h : List.Forall₂ (Referent.MatchesPrediction ns) rs vs) : l.Matching d t rs := by
  have hus : ∃ us : List Ty, rs = us.map .type ∧ List.Forall₂ Ty.SameUpToNumbers us vs := by
    clear hvs
    induction h with
    | nil => exact ⟨[], rfl, .nil⟩
    | cons hhead _ ih =>
      obtain ⟨u, _, rfl, hnumbers⟩ := hhead
      obtain ⟨us, rfl, hallNumbers⟩ := ih
      exact ⟨u :: us, rfl, .cons hnumbers hallNumbers⟩
  obtain ⟨us, hrs, hnumbers⟩ := hus
  exact ⟨us, vs, hrs, hvs, hnumbers⟩

lemma known_of_matchesPrediction {rs : List Referent} {vs : List Ty}
    (h : List.Forall₂ (Referent.MatchesPrediction ns) rs vs) : ∀ r ∈ rs, r.Known ns := by
  intro r hr
  obtain ⟨v, _, u, hu, rfl, _⟩ := exists_related_right h hr
  exact hu

/-- From an extension on demand of a lattice, a computation comes to what is predicted and extends it further. -/
abbrev ComputesPrediction (l₀ : Lattice) (ns₀ ns : List Ty) (l : Lattice) {α β : Type} (x : Build α) (a : Attempt β)
    (Q : List Ty → α → β → Prop) : Prop :=
  Simulates .exact (DemandExtension l₀ ns₀) ns l () x a.stateless Q

lemma computes_container (h : DemandExtension l₀ ns₀ ns l ()) {o i o' i' : Ty} (extractor : Fn) (ho : o ∈ ns)
    (hi : i ∈ ns) (hko : o.SameUpToNumbers o') (hki : i.SameUpToNumbers i') :
    ComputesPrediction l₀ ns₀ ns l (do return Referent.type (← Build.container (.type o) extractor (.type i)))
      (Ty.predictedContainer o' extractor i') Referent.MatchesPrediction := by
  have hgrows : l₀.Grows { l with nextSerial := l.nextSerial + 1 } := h.grows
  have h : DemandExtension l₀ ns₀ ns { l with nextSerial := l.nextSerial + 1 } () :=
    ⟨h.enumeration.withSerial (Nat.le_succ _), h.nodes, hgrows, h.serials.trans (Nat.le_succ _)⟩
  have hname : ∀ {t u : Ty}, t.SameUpToNumbers u → RelatedResults .exact Eq t.canonicalName u.canonicalName := by
    intro t u hnumbers
    rw [hnumbers.canonicalName]
    exact .of_eq
  have hdoc : ∀ {t u : Ty}, t.SameUpToNumbers u → RelatedResults .exact Eq t.firstDoc u.firstDoc := by
    intro t u hnumbers
    rw [hnumbers.firstDoc]
    exact .of_eq
  unfold ComputesPrediction Build.container Ty.predictedContainer
  simp only [bind_assoc]
  rw [Attempt.stateless_bind]
  have htake : Build.takeSerial l = (.ok l.nextSerial, { l with nextSerial := l.nextSerial + 1 }) := rfl
  have hexpect : ∀ (t : Ty) l, Build.ofAttempt ((Referent.type t).expect .canonicalName) l = (.ok t, l) :=
    fun _ _ => rfl
  apply Simulates.after_ok htake
  apply Simulates.after_ok (hexpect o _)
  apply Simulates.attempt_bind h (hname hko)
  rintro outerName _ _ rfl
  rw [Attempt.stateless_bind]
  apply Simulates.after_ok (hexpect i _)
  apply Simulates.attempt_bind h (hname hki)
  rintro innerName _ _ rfl
  rw [Attempt.stateless_bind]
  apply Simulates.attempt_bind h (hdoc hko)
  rintro outerDoc _ _ rfl
  rw [Attempt.stateless_bind]
  apply Simulates.attempt_bind h (hdoc hki)
  rintro innerDoc _ _ rfl
  refine ⟨ns ++ [_], List.subset_append_left _ _,
    ⟨h.enumeration.push ⟨rfl, ?_, Nat.lt_succ_self _, ?_, ?_, ?_⟩, ?_, ?_, ?_⟩,
    .ok ⟨_, List.mem_append_right ns (List.mem_singleton_self _), rfl, .unary extractor rfl rfl hko hki⟩⟩
  · intro p hp
    rcases List.mem_pair.mp hp with rfl | rfl
    · exact ho
    · exact hi
  · intro d rs hrs
    cases d <;> cases hrs
  · intro _ hleaf
    cases hleaf
  · intro _ _ d rs hrs
    cases d <;> cases hrs
  · exact fun t ht => List.mem_append_left _ (h.nodes ht)
  · exact h.grows.trans (Lattice.grows_push _ _)
  · exact h.serials

/-- Containers are made over some types one after the other. -/
lemma computes_containers (h : DemandExtension l₀ ns₀ ns l ()) {o o' : Ty} (extractor : Fn) (ho : o ∈ ns)
    (hko : o.SameUpToNumbers o') {rs : List Referent} {is : List Ty}
    (hrs : List.Forall₂ (Referent.MatchesPrediction ns) rs is) :
    ComputesPrediction l₀ ns₀ ns l (rs.mapM fun r => do return Referent.type (← Build.container (.type o) extractor r))
      (is.mapM fun i => Ty.predictedContainer o' extractor i) fun ns =>
        List.Forall₂ (Referent.MatchesPrediction ns) := by
  unfold ComputesPrediction
  rw [Attempt.stateless_mapM]
  refine Simulates.mapM (P := fun ns r i => o ∈ ns ∧ Referent.MatchesPrediction ns r i) ?_ ?_ ?_ h
    (hrs.imp fun r i hri => ⟨ho, hri⟩)
  · exact fun ns ns' r i hns hri => ⟨hns hri.1, hri.2.mono hns⟩
  · exact fun ns ns' r i hns hri => hri.mono hns
  · rintro r i ns l _ h ⟨ho, u, hu, rfl, hnumbers⟩
    exact computes_container h extractor ho hu hko hnumbers

/-- What is kept for a container, or worked out and then kept, is what is predicted. -/
lemma computes_kept (h₀ : NodeEnumeration True l₀ ns₀) (h : DemandExtension l₀ ns₀ ns l ()) {t : Ty} (ht : t ∈ ns₀)
    (hcontainer : t.isContainer = true) {d : Direction} {work : Build (List Referent)}
    (hwork : ComputesPrediction l₀ ns₀ ns l work (l₀.predicted d t) fun ns =>
      List.Forall₂ (Referent.MatchesPrediction ns)) :
    ComputesPrediction l₀ ns₀ ns l (Build.kept d t.id work) (l₀.predicted d t)
      fun ns => List.Forall₂ (Referent.MatchesPrediction ns) := by
  have hsame := h₀.predicted_grows h.grows (.node ht) d
  unfold ComputesPrediction Simulates
  cases hstored : l.stored? d t.id with
  | some rs =>
    have hmatching := (h.enumeration.untouched trivial).worked t (h.nodes ht) hcontainer d rs hstored
    obtain ⟨vs, hvs, hrs⟩ := hmatching.matchesPrediction (h.enumeration.known t (h.nodes ht) d rs hstored)
    rw [Build.kept_of_stored hstored, Attempt.stateless, ← hsame, hvs]
    exact ⟨ns, List.Subset.refl ns, h, .ok hrs⟩
  | none =>
    obtain ⟨ns', hns, h', hresults⟩ := hwork
    rcases hrun : work l with ⟨fault | rs, l₁⟩ <;> rw [hrun] at h' hresults
    · rw [Build.kept_of_error hstored hrun]
      exact ⟨ns', hns, h', hresults⟩
    · rw [Build.kept_of_ok hstored hrun]
      refine ⟨ns', hns, ⟨?_, h'.nodes, ?_, h'.serials⟩, hresults⟩
      · cases hvs : l₀.predicted d t with
        | error fault =>
          rw [Attempt.stateless, hvs] at hresults
          cases hresults
        | ok vs =>
          rw [Attempt.stateless, hvs] at hresults
          cases hresults with
          | ok hrs =>
            have hvs' : l₁.predicted d t = .ok vs := (h₀.predicted_grows h'.grows (.node ht) d).trans hvs
            exact h'.enumeration.store (h'.nodes ht) (known_of_matchesPrediction hrs)
              fun _ => ⟨hcontainer, matching_of_matchesPrediction hvs' hrs⟩
      -- nothing was stored in this place before
      · intro d' id ss hss
        rw [Lattice.stored?_store, if_neg]
        · exact h'.grows d' id ss hss
        · rintro ⟨rfl, rfl, _⟩
          rw [h.grows _ _ ss hss] at hstored
          cases hstored

lemma computes_containerSubsets (h : DemandExtension l₀ ns₀ ns l ()) {outer inner : Ty} (extractor : Fn)
    (ho : outer ∈ ns) (hi : inner ∈ ns) {os is : List Referent} {outers inners : List Ty}
    (hos : List.Forall₂ (Referent.MatchesPrediction ns) os outers)
    (his : List.Forall₂ (Referent.MatchesPrediction ns) is inners)
    (hother : ∀ o ∈ os, o.isSame (.type outer) = false) :
    ComputesPrediction l₀ ns₀ ns l (Build.containerSubsets outer extractor inner os is)
      (do
        let first ← inners.mapM fun i => Ty.predictedContainer outer extractor i
        let rest ← outers.mapM fun o => (inner :: inners).mapM fun i => Ty.predictedContainer o extractor i
        return first ++ rest.flatten) fun ns => List.Forall₂ (Referent.MatchesPrediction ns) := by
  unfold ComputesPrediction Build.containerSubsets
  rw [List.mapM_cons, Attempt.stateless_bind]
  have hself : (Referent.type outer).isSame (.type outer) = true := by simp [Referent.isSame]
  simp only [bind_assoc, hself, if_true]
  apply (computes_containers h extractor ho (.refl outer) his).bind
  intro first first' ns₁ l₁ _ _ hns₁ h₁ hfirst
  have hinners : List.Forall₂ (Referent.MatchesPrediction ns₁) (.type inner :: is) (inner :: inners) :=
    .cons ⟨inner, hns₁ hi, rfl, .refl inner⟩ (his.imp fun _ _ hri => hri.mono hns₁)
  rw [Attempt.stateless_bind]
  have hrows : ComputesPrediction l₀ ns₀ ns₁ l₁
      (os.mapM fun o => do
        let inners := if o.isSame (.type outer) then is else .type inner :: is
        inners.mapM fun i => return Referent.type (← Build.container o extractor i))
      (outers.mapM fun o => (inner :: inners).mapM fun i => Ty.predictedContainer o extractor i)
      fun ns => List.Forall₂ (List.Forall₂ (Referent.MatchesPrediction ns)) := by
    unfold ComputesPrediction
    rw [Attempt.stateless_mapM]
    refine Simulates.mapM (P := fun ns r o => r.isSame (.type outer) = false ∧ Referent.MatchesPrediction ns r o ∧
      List.Forall₂ (Referent.MatchesPrediction ns) (.type inner :: is) (inner :: inners)) ?_ ?_ ?_ h₁ ?_
    · exact fun ns ns' r o hns hro => ⟨hro.1, hro.2.1.mono hns, hro.2.2.imp fun _ _ hri => hri.mono hns⟩
    · exact fun ns ns' rs vs hns hrs => hrs.imp fun _ _ hri => hri.mono hns
    · rintro r o ns l _ h ⟨hdiffers, ⟨u, hu, rfl, hnumbers⟩, hinners⟩
      simp only [hdiffers]
      exact computes_containers h extractor hu hnumbers hinners
    · exact ((List.forall₂_and_left os outers).mpr ⟨hother, hos⟩).imp fun r o hro =>
        ⟨hro.1, hro.2.mono hns₁, hinners⟩
  apply hrows.bind
  intro rest rest' ns₂ l₂ _ _ hns₂ h₂ hrest
  have hall : List.Forall₂ (Referent.MatchesPrediction ns₂) (first :: rest).flatten (first' ++ rest'.flatten) := by
    rw [List.flatten_cons]
    exact List.rel_append (hfirst.imp fun _ _ hri => hri.mono hns₂) (List.rel_flatten hrest)
  exact Simulates.pure h₂ hall

lemma computes_containerSupersets (h : DemandExtension l₀ ns₀ ns l ()) {outer : Ty} (extractor : Fn) (ho : outer ∈ ns)
    {is : List Referent} {inners : List Ty} (his : List.Forall₂ (Referent.MatchesPrediction ns) is inners) :
    ComputesPrediction l₀ ns₀ ns l (Build.containerSupersets outer extractor is)
      (do
        let widened ← inners.mapM fun i => Ty.predictedContainer outer extractor i
        return outer :: widened) fun ns => List.Forall₂ (Referent.MatchesPrediction ns) := by
  unfold ComputesPrediction Build.containerSupersets
  rw [Attempt.stateless_bind]
  apply (computes_containers h extractor ho (.refl outer) his).bind
  intro widened widened' ns₁ l₁ _ _ hns₁ h₁ hwidened
  have hall : List.Forall₂ (Referent.MatchesPrediction ns₁) (.type outer :: widened) (outer :: widened') :=
    .cons ⟨outer, hns₁ ho, rfl, .refl outer⟩ hwidened
  exact Simulates.pure h₁ hall

/-- Asked for its edges, a type gives those predicted. -/
theorem computes_edges (h₀ : NodeEnumeration True l₀ ns₀) (h : DemandExtension l₀ ns₀ ns l ()) {t : Ty} (ht : t ∈ ns₀)
    (d : Direction) :
    ComputesPrediction l₀ ns₀ ns l (t.edges d) (l₀.predicted d t) fun ns =>
      List.Forall₂ (Referent.MatchesPrediction ns) := by
  induction t generalizing d ns l with
  | unary label outer extractor inner iho ihi =>
    have ho : outer ∈ ns₀ := h₀.parts _ ht (by simp [Ty.parts])
    have hi : inner ∈ ns₀ := h₀.parts _ ht (by simp [Ty.parts])
    cases d with
    | subsets =>
      rw [Ty.edges]
      apply computes_kept h₀ h ht rfl
      unfold ComputesPrediction
      rw [Lattice.predicted, Attempt.stateless_bind]
      apply (iho h ho .subsets).with_result.bind
      rintro os outers ns₁ l₁ _ _ hns₁ h₁ ⟨houters, hos⟩
      rw [Attempt.stateless_bind]
      apply (ihi h₁ hi .subsets).bind
      intro is inners ns₂ l₂ _ _ hns₂ h₂ his
      refine computes_containerSubsets h₂ extractor (h₂.nodes ho) (h₂.nodes hi)
        (hos.imp fun _ _ hri => hri.mono hns₂) his ?_
      -- what lies below the outer part has a smaller rank, so it is another node
      intro o ho'
      obtain ⟨v, hv, u, hu, rfl, hnumbers⟩ := exists_related_right hos ho'
      have hlt := rank_lt_of_predicted (h₀.untouched trivial) h₀.parts (.node ho) houters v hv
      rw [← hnumbers.rank_eq] at hlt
      by_contra hsame
      have hid : u.id = outer.id := by simpa [Referent.isSame] using hsame
      rw [h₁.enumeration.unique hu (h₁.nodes ho) hid] at hlt
      exact lt_irrefl _ hlt
    | supersets =>
      rw [Ty.edges]
      apply computes_kept h₀ h ht rfl
      unfold ComputesPrediction
      rw [Lattice.predicted, Attempt.stateless_bind]
      apply (ihi h hi .supersets).bind
      intro is inners ns₁ l₁ _ _ hns₁ h₁ his
      exact computes_containerSupersets h₁ extractor (h₁.nodes ho) his
  | _ =>
    obtain ⟨us, hus, hback⟩ := (h₀.untouched trivial).settled _ ht rfl d
    unfold ComputesPrediction Simulates
    rw [Ty.edges_of_stored (h.grows _ _ _ hus), Attempt.stateless, Lattice.predicted_of_leaf rfl, hus, Option.getD_some,
      Referent.types_map]
    exact ⟨ns, List.Subset.refl ns, h, .ok (matchesPrediction_self fun u hu => h.nodes (hback u hu).1)⟩

lemma DemandExtension.refl (h : NodeEnumeration True l ns) : DemandExtension l ns ns l () :=
  ⟨h, List.Subset.refl ns, .refl l, le_rfl⟩

lemma DemandExtension.trans {l₁ : Lattice} {ns₁ : List Ty} (h : DemandExtension l₀ ns₀ ns l ())
    (h' : DemandExtension l ns ns₁ l₁ ()) : DemandExtension l₀ ns₀ ns₁ l₁ () :=
  ⟨h'.enumeration, fun _ ht => h'.nodes (h.nodes ht), h.grows.trans h'.grows, h.serials.trans h'.serials⟩

/-- Edges that are answered are those predicted, also where they were not worked out yet. -/
lemma matching_of_edges (h : NodeEnumeration True l ns) {t : Ty} (ht : t ∈ ns) {d : Direction} {rs : List Referent}
    {l' : Lattice} (hrun : t.edges d l = (.ok rs, l')) : l.Matching d t rs ∧ l.Grows l' := by
  obtain ⟨ns', _, h', hresults⟩ := (computes_edges h (.refl h) ht d).with_result
  rw [hrun] at h' hresults
  have hmatches : ∃ vs, l.predicted d t = .ok vs ∧ List.Forall₂ (Referent.MatchesPrediction ns') rs vs := by
    generalize (Attempt.stateless (l.predicted d t) ()).1 = a at hresults
    cases hresults with
    | ok hrs => exact ⟨_, hrs⟩
  obtain ⟨vs, hvs, hrs⟩ := hmatches
  exact ⟨matching_of_matchesPrediction hvs hrs, h'.grows⟩

end Demand

end StructuralTypes
