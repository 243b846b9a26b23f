import StructuralTypes.Proofs.UnlimitedDepth
import StructuralTypes.Proofs.Walks

/-!
# What a search comes to

A search that has not answered yet has refuted every pair that it has decided: none of them is
equal, and all that its edges lead to was decided before it. The pairs being decided are those that
lead to the current one. Hence a positive answer comes with a way to equal types, a negative one with
the whole of what there is to explore, and meeting a pending pair again with a cycle.
-/

namespace StructuralTypes

open Relation

/-- What a search remembers a pair by. -/
def pairKey (p : Ty × Ty) : Identity × Identity := (.type p.1.id, .type p.2.id)

lemma pairKey_inj {ns : List Ty} (hunique : ∀ t ∈ ns, ∀ u ∈ ns, t.id = u.id → t = u) {p q : Ty × Ty}
    (hp₁ : p.1 ∈ ns) (hp₂ : p.2 ∈ ns) (hq₁ : q.1 ∈ ns) (hq₂ : q.2 ∈ ns) (hkey : pairKey p = pairKey q) :
    p = q := by
  obtain ⟨h₁, h₂⟩ := Prod.mk.inj hkey
  exact Prod.ext (hunique _ hp₁ _ hq₁ (Identity.type.inj h₁)) (hunique _ hp₂ _ hq₂ (Identity.type.inj h₂))

/-- Every decided pair is refuted by those decided before it. -/
inductive Refuted (l : Lattice) (ns : List Ty) : List ((Identity × Identity) × Bool) → Prop
  | nil : Refuted l ns []
  | cons {a b : Ty} {below above : List Ty} {decided : List ((Identity × Identity) × Bool)} :
      a ∈ ns → b ∈ ns → a.equals b = .ok false →
      l.stored? .subsets a.id = some (below.map .type) →
      l.stored? .supersets b.id = some (above.map .type) →
      (∀ s ∈ below, s ∈ ns ∧ (pairKey (s, b), false) ∈ decided) →
      (∀ s ∈ above, s ∈ ns ∧ (pairKey (a, s), false) ∈ decided) →
      Refuted l ns decided → Refuted l ns ((pairKey (a, b), false) :: decided)

/-- The pairs being decided all lead to the current one. -/
def Leading (l : Lattice) (ns : List Ty) (pending : List (Identity × Identity)) (p : Ty × Ty) :
    Prop :=
  ∀ k ∈ pending, ∃ q : Ty × Ty, q.1 ∈ ns ∧ q.2 ∈ ns ∧ k = pairKey q ∧ TransGen l.PairStep q p

/-- Why a search of a pair to depth `n` may fail. -/
def SearchFault (W : Lattice → List Ty → Prop) (l : Lattice) (ns : List Ty)
    (pending : List (Identity × Identity)) (n : Nat) (p : Ty × Ty) (fault : Fault) : Prop :=
  (fault = .tooDeep ∧ Descent l.PairStep (fun q => q.1 ∈ ns ∧ q.2 ∈ ns) pairKey pending n p) ∨
    (∃ q, fault = .cyclicLattice (.type q.1) (.type q.2) ∧ ReflTransGen l.PairStep p q ∧
      TransGen l.PairStep q q) ∨
    ∃ d, EdgeFault d W fault

/-- The outcome of searching the pairs `qs` one after the other. -/
structure Searched (W : Lattice → List Ty → Prop) (n : Nat) (ns : List Ty) (s : Search)
    (qs : List (Ty × Ty)) (ns' : List Ty) (result : Attempt Bool) (s' : Search) : Prop where
  inside : W s'.lattice ns'
  subset : ns ⊆ ns'
  grows : s.lattice.Grows s'.lattice
  found : result = .ok true → ∃ q ∈ qs, s'.lattice.Linked q
  refuted : result = .ok false → s'.pending = s.pending ∧ Refuted s'.lattice ns' s'.decided ∧
    s.decided ⊆ s'.decided ∧ ∀ q ∈ qs, (pairKey q, false) ∈ s'.decided
  fault : ∀ f, result = .error f → ∃ q ∈ qs, SearchFault W s'.lattice ns' s.pending n q f

/-- Searches to depth `n` come to what they should. -/
def Searches (W : Lattice → List Ty → Prop) (n : Nat) : Prop :=
  ∀ ns s p, W s.lattice ns → p.1 ∈ ns → p.2 ∈ ns → Refuted s.lattice ns s.decided →
    Leading s.lattice ns s.pending p →
    ∃ ns', Searched W n ns s [p] ns' (Searching.supersedes n (.type p.1) (.type p.2) s).1
      (Searching.supersedes n (.type p.1) (.type p.2) s).2

lemma Refuted.mono {l l' : Lattice} {ns ns' : List Ty} (hl : l.Grows l') (hns : ns ⊆ ns')
    {decided : List ((Identity × Identity) × Bool)} (h : Refuted l ns decided) :
    Refuted l' ns' decided := by
  induction h with
  | nil => exact .nil
  | cons ha hb hne hbelow habove hb' ha' _ ih =>
    exact .cons (hns ha) (hns hb) hne (hl _ _ _ hbelow) (hl _ _ _ habove)
      (fun s hs => ⟨hns (hb' s hs).1, (hb' s hs).2⟩) (fun s hs => ⟨hns (ha' s hs).1, (ha' s hs).2⟩) ih

lemma Refuted.eq_false {l : Lattice} {ns : List Ty} {decided : List ((Identity × Identity) × Bool)}
    (h : Refuted l ns decided) {k : Identity × Identity} {b : Bool} (hk : (k, b) ∈ decided) :
    b = false := by
  induction h with
  | nil => cases hk
  | cons _ _ _ _ _ _ _ _ ih =>
    rcases List.mem_cons.mp hk with hk | hk
    · exact (Prod.mk.inj hk).2
    · exact ih hk

lemma Leading.mono {l l' : Lattice} {ns ns' : List Ty} (hl : l.Grows l') (hns : ns ⊆ ns')
    {pending : List (Identity × Identity)} {p : Ty × Ty} (h : Leading l ns pending p) :
    Leading l' ns' pending p := by
  intro k hk
  obtain ⟨q, hq₁, hq₂, hkey, hqp⟩ := h k hk
  exact ⟨q, hns hq₁, hns hq₂, hkey, hqp.lift id fun _ _ hstep => hstep.mono hl⟩

lemma Leading.step {l : Lattice} {ns : List Ty} {pending : List (Identity × Identity)} {p q : Ty × Ty}
    (h : Leading l ns pending p) (hp₁ : p.1 ∈ ns) (hp₂ : p.2 ∈ ns) (hstep : l.PairStep p q) :
    Leading l ns (pairKey p :: pending) q := by
  intro k hk
  rcases List.mem_cons.mp hk with rfl | hk
  · exact ⟨p, hp₁, hp₂, rfl, .single hstep⟩
  · obtain ⟨q', hq₁, hq₂, hkey, hqp⟩ := h k hk
    exact ⟨q', hq₁, hq₂, hkey, hqp.tail hstep⟩

/-- What makes a search fail after a step makes it fail before the step, one deeper. -/
lemma SearchFault.step {W : Lattice → List Ty → Prop} {l : Lattice} {ns : List Ty}
    {pending : List (Identity × Identity)} {n : Nat} {p q : Ty × Ty} {f : Fault}
    (h : SearchFault W l ns (pairKey p :: pending) n q f) (hnew : pairKey p ∉ pending)
    (hp₁ : p.1 ∈ ns) (hp₂ : p.2 ∈ ns) (hstep : l.PairStep p q) :
    SearchFault W l ns pending (n + 1) p f := by
  rcases h with ⟨rfl, hdescent⟩ | ⟨c, rfl, hreach, hcycle⟩ | hedge
  · exact .inl ⟨rfl, .step hnew ⟨hp₁, hp₂⟩ hstep hdescent⟩
  · exact .inr (.inl ⟨c, rfl, hreach.head hstep, hcycle⟩)
  · exact .inr (.inr hedge)

lemma Lattice.Linked.step {l : Lattice} {p q : Ty × Ty} (hstep : l.PairStep p q)
    (h : l.Linked q) : l.Linked p := by
  obtain ⟨c, hreach, heq⟩ := h
  exact ⟨c, hreach.head hstep, heq⟩

lemma Searched.found_first {W : Lattice → List Ty → Prop} {n : Nat} {ns ns' : List Ty} {s s' : Search}
    {q : Ty × Ty} {qs : List (Ty × Ty)} {b : Bool} (hb : b = true)
    (h : Searched W n ns s [q] ns' (.ok b) s') : Searched W n ns s (q :: qs) ns' (.ok true) s' := by
  subst hb
  refine ⟨h.inside, h.subset, h.grows, ?_, (fun h => nomatch h), (fun _ h => nomatch h)⟩
  intro _
  obtain ⟨q', hq', hlinked⟩ := h.found rfl
  rw [List.mem_singleton.mp hq'] at hlinked
  exact ⟨q, List.mem_cons_self, hlinked⟩

lemma Searched.cons {W : Lattice → List Ty → Prop} {n : Nat} {ns ns₁ ns₂ : List Ty} {s s₁ s₂ : Search}
    {q : Ty × Ty} {qs : List (Ty × Ty)} {result : Attempt Bool}
    (h : Searched W n ns s [q] ns₁ (.ok false) s₁) (h' : Searched W n ns₁ s₁ qs ns₂ result s₂) :
    Searched W n ns s (q :: qs) ns₂ result s₂ := by
  obtain ⟨hpending, -, hdecided, hq⟩ := h.refuted rfl
  refine ⟨h'.inside, fun t ht => h'.subset (h.subset ht), h.grows.trans h'.grows, ?_, ?_, ?_⟩
  · intro hr
    obtain ⟨q', hq', hlinked⟩ := h'.found hr
    exact ⟨q', List.mem_cons_of_mem _ hq', hlinked⟩
  · intro hr
    obtain ⟨hpending', hrefuted, hdecided', hqs⟩ := h'.refuted hr
    refine ⟨hpending'.trans hpending, hrefuted, fun k hk => hdecided' (hdecided hk), ?_⟩
    intro q' hq'
    rcases List.mem_cons.mp hq' with rfl | hq'
    · exact hdecided' (hq q' (List.mem_singleton_self q'))
    · exact hqs q' hq'
  · intro f hf
    obtain ⟨q', hq', hfault⟩ := h'.fault f hf
    rw [hpending] at hfault
    exact ⟨q', List.mem_cons_of_mem _ hq', hfault⟩

lemma searched_anyM {W : Lattice → List Ty → Prop} {n : Nat} (hn : Searches W n)
    (pair : Ty → Ty × Ty) {f : Referent → Searching Bool}
    (hf : ∀ u, f (.type u) = Searching.supersedes n (.type (pair u).1) (.type (pair u).2))
    (us : List Ty) (ns : List Ty) (s : Search) (hW : W s.lattice ns)
    (hus : ∀ u ∈ us, (pair u).1 ∈ ns ∧ (pair u).2 ∈ ns)
    (hrefuted : Refuted s.lattice ns s.decided)
    (hleading : ∀ u ∈ us, Leading s.lattice ns s.pending (pair u)) :
    ∃ ns', Searched W n ns s (us.map pair) ns' ((us.map Referent.type).anyM f s).1
      ((us.map Referent.type).anyM f s).2 := by
  induction us generalizing ns s with
  | nil =>
    refine ⟨ns, hW, fun _ h => h, .refl _, (fun h => nomatch h), ?_, (fun _ h => nomatch h)⟩
    intro _
    exact ⟨rfl, hrefuted, fun _ h => h, by simp⟩
  | cons u us ih =>
    obtain ⟨hu₁, hu₂⟩ := hus u List.mem_cons_self
    obtain ⟨ns₁, h₁⟩ := hn ns s (pair u) hW hu₁ hu₂ hrefuted (hleading u List.mem_cons_self)
    rw [← hf] at h₁
    rw [List.map_cons, List.map_cons, List.anyM_cons]
    rcases hrun : f (.type u) s with ⟨_ | b, s₁⟩
    · rw [bind_of_error hrun]
      rw [hrun] at h₁
      refine ⟨ns₁, h₁.inside, h₁.subset, h₁.grows, (fun h => nomatch h), (fun h => nomatch h), ?_⟩
      intro f' hf'
      obtain ⟨q, hq, hfault⟩ := h₁.fault f' hf'
      rw [List.mem_singleton.mp hq] at hfault
      exact ⟨pair u, List.mem_cons_self, hfault⟩
    · rw [bind_of_ok hrun]
      rw [hrun] at h₁
      cases b with
      | true => exact ⟨ns₁, h₁.found_first rfl⟩
      | false =>
        obtain ⟨hpending, hrefuted₁, -, -⟩ := h₁.refuted rfl
        have hus₁ : ∀ v ∈ us, (pair v).1 ∈ ns₁ ∧ (pair v).2 ∈ ns₁ := by
          intro v hv
          obtain ⟨hv₁, hv₂⟩ := hus v (List.mem_cons_of_mem _ hv)
          exact ⟨h₁.subset hv₁, h₁.subset hv₂⟩
        have hleading₁ : ∀ v ∈ us, Leading s₁.lattice ns₁ s₁.pending (pair v) := by
          intro v hv
          have := (hleading v (List.mem_cons_of_mem _ hv)).mono h₁.grows h₁.subset
          rwa [← hpending] at this
        obtain ⟨ns₂, h₂⟩ := ih ns₁ s₁ h₁.inside hus₁ hrefuted₁ hleading₁
        exact ⟨ns₂, h₁.cons h₂⟩

lemma ofAttempt_equals {a b : Ty} {answer : Bool} (h : a.equals b = .ok answer) (s : Search) :
    Searching.ofAttempt ((Referent.type a).equals (.type b)) s = (.ok answer, s) := by
  rw [← h]
  rfl

lemma ofBuild_edges (a : Ty) (d : Direction) (s : Search) :
    Searching.ofBuild ((Referent.type a).edges d) s =
      ((a.edges d s.lattice).1, { s with lattice := (a.edges d s.lattice).2 }) := rfl

/-- What searching along the edges of one node of a pending pair comes to. -/
structure SearchedEdges (W : Lattice → List Ty → Prop) (n : Nat) (ns : List Ty) (s : Search)
    (pending : List (Identity × Identity)) (p : Ty × Ty) (d : Direction) (t : Ty)
    (pair : Ty → Ty × Ty) (ns' : List Ty) (result : Attempt Bool) (s' : Search) : Prop where
  inside : W s'.lattice ns'
  subset : ns ⊆ ns'
  grows : s.lattice.Grows s'.lattice
  found : result = .ok true → s'.lattice.Linked p
  refuted : result = .ok false → s'.pending = s.pending ∧ Refuted s'.lattice ns' s'.decided ∧
    s.decided ⊆ s'.decided ∧ ∃ us : List Ty, s'.lattice.stored? d t.id = some (us.map .type) ∧
      ∀ u ∈ us, u ∈ ns' ∧ (pairKey (pair u), false) ∈ s'.decided
  fault : ∀ f, result = .error f → SearchFault W s'.lattice ns' pending (n + 1) p f

lemma searched_edges {W : Lattice → List Ty → Prop} (hWalk : Walkable W) {n : Nat}
    (hn : Searches W n) {ns : List Ty} {s : Search} {p : Ty × Ty}
    {pending : List (Identity × Identity)} (hW : W s.lattice ns) (hp₁ : p.1 ∈ ns) (hp₂ : p.2 ∈ ns)
    (hrefuted : Refuted s.lattice ns s.decided) (hleading : Leading s.lattice ns pending p)
    (hpending : s.pending = pairKey p :: pending) (hnew : pairKey p ∉ pending)
    {t : Ty} (ht : t ∈ ns) (d : Direction) (pair : Ty → Ty × Ty)
    (hpair : ∀ ns' : List Ty, ns ⊆ ns' → ∀ u ∈ ns', (pair u).1 ∈ ns' ∧ (pair u).2 ∈ ns')
    (hstep : ∀ (l : Lattice) u, l.Edge d t u → l.PairStep p (pair u)) {f : Referent → Searching Bool}
    (hf : ∀ u, f (.type u) = Searching.supersedes n (.type (pair u).1) (.type (pair u).2)) :
    ∃ ns', SearchedEdges W n ns s pending p d t pair ns'
      ((Searching.ofBuild ((Referent.type t).edges d) >>= fun rs => rs.anyM f) s).1
      ((Searching.ofBuild ((Referent.type t).edges d) >>= fun rs => rs.anyM f) s).2 := by
  obtain ⟨l, decided, waiting⟩ := s
  obtain rfl : waiting = pairKey p :: pending := hpending
  obtain ⟨ns₁, hW₁, hsub₁, hgrows₁, hedges⟩ := (hWalk.explorable d).edges hW ht
  have hask := ofBuild_edges t d ⟨l, decided, pairKey p :: pending⟩
  rcases hrun : t.edges d l with ⟨fault | rs, l₁⟩
  · simp only [hrun] at hW₁ hgrows₁ hask
    rw [bind_of_error hask]
    refine ⟨ns₁, hW₁, hsub₁, hgrows₁, (fun h => nomatch h), (fun h => nomatch h), ?_⟩
    intro f' hf'
    obtain rfl : fault = f' := Except.error.inj hf'
    exact .inr (.inr ⟨d, l, ns, t, hW, ht, by rw [hrun]⟩)
  · simp only [hrun] at hW₁ hgrows₁ hask hedges
    obtain ⟨hstored, us, rfl, hus⟩ := hedges rs rfl
    rw [bind_of_ok hask]
    have hsteps : ∀ u ∈ us, l₁.PairStep p (pair u) := fun u hu =>
      hstep l₁ u ((Lattice.edge_iff hstored).mpr hu)
    have hleading₁ : ∀ u ∈ us, Leading l₁ ns₁ (pairKey p :: pending) (pair u) := fun u hu =>
      (hleading.mono hgrows₁ hsub₁).step (hsub₁ hp₁) (hsub₁ hp₂) (hsteps u hu)
    obtain ⟨ns', h⟩ := searched_anyM hn pair hf us ns₁ ⟨l₁, decided, pairKey p :: pending⟩ hW₁
      (fun u hu => hpair ns₁ hsub₁ u (hus hu)) (hrefuted.mono hgrows₁ hsub₁) hleading₁
    refine ⟨ns', h.inside, fun t ht => h.subset (hsub₁ ht), hgrows₁.trans h.grows, ?_, ?_, ?_⟩
    · intro hr
      obtain ⟨q, hq, hlinked⟩ := h.found hr
      obtain ⟨u, hu, rfl⟩ := List.mem_map.mp hq
      exact hlinked.step ((hsteps u hu).mono h.grows)
    · intro hr
      obtain ⟨hpending', hrefuted', hdecided, hall⟩ := h.refuted hr
      refine ⟨hpending', hrefuted', hdecided, us, h.grows _ _ _ hstored, ?_⟩
      intro u hu
      exact ⟨h.subset (hus hu), hall (pair u) (List.mem_map_of_mem hu)⟩
    · intro f' hf'
      obtain ⟨q, hq, hfault⟩ := h.fault f' hf'
      obtain ⟨u, hu, rfl⟩ := List.mem_map.mp hq
      exact hfault.step hnew (h.subset (hsub₁ hp₁)) (h.subset (hsub₁ hp₂))
        ((hsteps u hu).mono h.grows)

/-- What deciding a pair comes to, while it is pending. -/
structure SettledPair (W : Lattice → List Ty → Prop) (n : Nat) (ns : List Ty) (s : Search)
    (pending : List (Identity × Identity)) (p : Ty × Ty) (ns' : List Ty) (result : Attempt Bool)
    (s' : Search) : Prop where
  inside : W s'.lattice ns'
  subset : ns ⊆ ns'
  grows : s.lattice.Grows s'.lattice
  found : result = .ok true → s'.lattice.Linked p
  refuted : result = .ok false → s'.pending = s.pending ∧ s.decided ⊆ s'.decided ∧
    Refuted s'.lattice ns' ((pairKey p, false) :: s'.decided)
  fault : ∀ f, result = .error f → SearchFault W s'.lattice ns' pending (n + 1) p f

lemma settle_settles {W : Lattice → List Ty → Prop} (hWalk : Walkable W) {n : Nat} (hn : Searches W n)
    {ns : List Ty} {s : Search} {a b : Ty} {pending : List (Identity × Identity)}
    (hW : W s.lattice ns) (ha : a ∈ ns) (hb : b ∈ ns)
    (hrefuted : Refuted s.lattice ns s.decided) (hleading : Leading s.lattice ns pending (a, b))
    (hpending : s.pending = pairKey (a, b) :: pending) (hnew : pairKey (a, b) ∉ pending) :
    ∃ ns', SettledPair W n ns s pending (a, b) ns'
      (Searching.settle (Searching.supersedes n) (.type a) (.type b) s).1
      (Searching.settle (Searching.supersedes n) (.type a) (.type b) s).2 := by
  obtain ⟨equal, hequal⟩ := hWalk.comparable hW ha hb
  unfold Searching.settle
  rw [bind_of_ok (ofAttempt_equals hequal s)]
  cases equal with
  | true =>
    refine ⟨ns, hW, fun _ h => h, .refl _, ?_, (fun h => nomatch h), (fun _ h => nomatch h)⟩
    intro _
    exact ⟨(a, b), .refl, hequal⟩
  | false =>
    obtain ⟨ns₁, h₁⟩ := searched_edges hWalk hn hW ha hb hrefuted hleading hpending hnew ha
      .subsets (fun u => (u, b)) (fun ns' hsub u hu => ⟨hu, hsub hb⟩) (fun l u h => .down b h)
      (f := fun u => Searching.supersedes n u (.type b)) (fun _ => rfl)
    simp only [Bool.false_eq_true, if_false, ← bind_assoc]
    rcases hdown : (Searching.ofBuild ((Referent.type a).edges .subsets) >>=
      fun rs => rs.anyM fun u => Searching.supersedes n u (.type b)) s with ⟨fault | found, s₁⟩
    · rw [bind_of_error hdown]
      rw [hdown] at h₁
      exact ⟨ns₁, h₁.inside, h₁.subset, h₁.grows, (fun h => nomatch h), (fun h => nomatch h), h₁.fault⟩
    · rw [bind_of_ok hdown]
      rw [hdown] at h₁
      cases found with
      | true =>
        exact ⟨ns₁, h₁.inside, h₁.subset, h₁.grows, h₁.found, (fun h => nomatch h), h₁.fault⟩
      | false =>
        obtain ⟨hpending₁, hrefuted₁, hdecided₁, below, hbelow, hdown'⟩ := h₁.refuted rfl
        obtain ⟨ns₂, h₂⟩ := searched_edges hWalk hn h₁.inside (h₁.subset ha) (h₁.subset hb) hrefuted₁
          (hleading.mono h₁.grows h₁.subset) (hpending₁.trans hpending) hnew (h₁.subset hb)
          .supersets (fun u => (a, u)) (fun ns' hsub u hu => ⟨hsub (h₁.subset ha), hu⟩)
          (fun l u h => .up a h) (f := fun u => Searching.supersedes n (.type a) u) (fun _ => rfl)
        refine ⟨ns₂, h₂.inside, fun t ht => h₂.subset (h₁.subset ht), h₁.grows.trans h₂.grows,
          h₂.found, ?_, h₂.fault⟩
        intro hr
        obtain ⟨hpending₂, hrefuted₂, hdecided₂, above, habove, hup⟩ := h₂.refuted hr
        refine ⟨hpending₂.trans hpending₁, fun k hk => hdecided₂ (hdecided₁ hk), ?_⟩
        -- all that the pair leads to was decided before it, below the one side and above the other
        exact .cons (h₂.subset (h₁.subset ha)) (h₂.subset (h₁.subset hb)) hequal
          (h₂.grows _ _ _ hbelow) habove
          (fun u hu => ⟨h₂.subset (hdown' u hu).1, hdecided₂ (hdown' u hu).2⟩) hup hrefuted₂

lemma supersedes_succ (n : Nat) (a b : Ty) (s : Search) :
    Searching.supersedes (n + 1) (.type a) (.type b) s =
      match s.decided.lookup (pairKey (a, b)) with
      | some answer => (.ok answer, s)
      | none =>
        if s.pending.contains (pairKey (a, b)) then
          (.error (.cyclicLattice (.type a) (.type b)), s)
        else
          match Searching.settle (Searching.supersedes n) (.type a) (.type b)
              { s with pending := pairKey (a, b) :: s.pending } with
          | (.ok answer, s') => (.ok answer, { s' with
              decided := (pairKey (a, b), answer) :: s'.decided
              pending := s'.pending.erase (pairKey (a, b)) })
          | (.error fault, s') => (.error fault, s') := by
  have hhash : ∀ t : Ty, Searching.ofAttempt (Referent.type t).checkHashable s = (.ok (), s) :=
    fun _ => rfl
  have hkey : ((Referent.type a).identity, (Referent.type b).identity) = pairKey (a, b) := rfl
  rw [Searching.supersedes, bind_of_ok (hhash a), bind_of_ok (hhash b), hkey]
  dsimp only
  rw [get_bind]
  cases s.decided.lookup (pairKey (a, b)) with
  | some answer => rfl
  | none =>
    dsimp only
    rw [get_bind]
    by_cases hpending : s.pending.contains (pairKey (a, b)) = true
    · rw [if_pos hpending, if_pos hpending]
      rfl
    · rw [if_neg hpending, if_neg hpending]
      have hstart : Searching.start (pairKey (a, b)) s =
          (.ok (), { s with pending := pairKey (a, b) :: s.pending }) := rfl
      rw [bind_of_ok hstart, bind_apply]
      rcases Searching.settle (Searching.supersedes n) (.type a) (.type b)
        { s with pending := pairKey (a, b) :: s.pending } with ⟨_ | _, _⟩ <;> rfl

/-- Searching to any depth comes to what it should. -/
theorem supersedes_searches {W : Lattice → List Ty → Prop} (hWalk : Walkable W) (n : Nat) :
    Searches W n := by
  induction n with
  | zero =>
    rintro ns s p hW - - - -
    refine ⟨ns, hW, fun _ h => h, .refl _, (fun h => nomatch h), (fun h => nomatch h), ?_⟩
    intro f hf
    obtain rfl : Fault.tooDeep = f := Except.error.inj hf
    exact ⟨p, List.mem_singleton_self p, .inl ⟨rfl, .stop _ _⟩⟩
  | succ n ih =>
    rintro ns s ⟨a, b⟩ hW ha hb hrefuted hleading
    rw [supersedes_succ]
    cases hlookup : s.decided.lookup (pairKey (a, b)) with
    | some answer =>
      -- a search that goes on has refuted all that it remembers, so the answer is no
      have hmem := mem_of_lookup hlookup
      obtain rfl := hrefuted.eq_false hmem
      refine ⟨ns, hW, fun _ h => h, .refl _, (fun h => nomatch h), ?_, (fun _ h => nomatch h)⟩
      intro _
      refine ⟨rfl, hrefuted, fun _ h => h, ?_⟩
      intro q hq
      rw [List.mem_singleton.mp hq]
      exact hmem
    | none =>
      by_cases hpending : s.pending.contains (pairKey (a, b)) = true
      · -- the pair is being decided, so it leads to itself
        simp only [hpending, if_true]
        refine ⟨ns, hW, fun _ h => h, .refl _, (fun h => nomatch h), (fun h => nomatch h), ?_⟩
        intro f hf
        obtain rfl : Fault.cyclicLattice (.type a) (.type b) = f := Except.error.inj hf
        obtain ⟨q, hq₁, hq₂, hkey, hcycle⟩ := hleading _ (List.contains_iff_mem.mp hpending)
        obtain rfl := pairKey_inj (fun t ht u hu => (hWalk.explorable .subsets).unique hW ht hu)
          (p := (a, b)) ha hb hq₁ hq₂ hkey
        exact ⟨(a, b), List.mem_singleton_self _, .inr (.inl ⟨(a, b), rfl, .refl, hcycle⟩)⟩
      · have hnew : pairKey (a, b) ∉ s.pending := fun h => hpending (List.contains_iff_mem.mpr h)
        simp only [hpending]
        obtain ⟨ns', h⟩ := settle_settles hWalk ih (s := { s with pending := pairKey (a, b) :: s.pending })
          hW ha hb hrefuted hleading rfl hnew
        refine ⟨ns', ?_⟩
        rcases hrun : Searching.settle (Searching.supersedes n) (.type a) (.type b)
          { s with pending := pairKey (a, b) :: s.pending } with ⟨fault | answer, s'⟩
        · rw [hrun] at h
          refine ⟨h.inside, h.subset, h.grows, (fun h => nomatch h), (fun h => nomatch h), ?_⟩
          intro f hf
          exact ⟨(a, b), List.mem_singleton_self _, h.fault f hf⟩
        · rw [hrun] at h
          refine ⟨h.inside, h.subset, h.grows, ?_, ?_, (fun _ h => nomatch h)⟩
          · intro hr
            exact ⟨(a, b), List.mem_singleton_self _, h.found hr⟩
          · intro hr
            obtain ⟨hwaiting, hdecided, hrefuted'⟩ := h.refuted hr
            obtain rfl : answer = false := Except.ok.inj hr
            refine ⟨?_, hrefuted', fun k hk => List.mem_cons_of_mem _ (hdecided hk), ?_⟩
            · dsimp only
              rw [hwaiting]
              exact List.erase_cons_head ..
            · intro q hq
              rw [List.mem_singleton.mp hq]
              exact List.mem_cons_self

/-- Equal types are found to contain each other before any edge is looked at. -/
lemma supersedes_of_equals {a b : Ty} (h : a.equals b = .ok true) (l : Lattice) :
    (Build.supersedes (.type a) (.type b) l).1 = .ok true := by
  have hsettle : Searching.settle (Searching.supersedes 0) (.type a) (.type b)
      ⟨l, [], [pairKey (a, b)]⟩ = (.ok true, ⟨l, [], [pairKey (a, b)]⟩) := by
    unfold Searching.settle
    rw [bind_of_ok (ofAttempt_equals h _)]
    rfl
  have hrun : (Build.supersedesWithin (.type a) (.type b) 1 l).1 = .ok true := by
    change (Searching.supersedes 1 (.type a) (.type b) ⟨l, [], []⟩).1 = .ok true
    rw [supersedes_succ]
    simp [hsettle]
  have hne : (Build.supersedesWithin (.type a) (.type b) 1 l).1 ≠ .error .tooDeep := by simp [hrun]
  unfold Build.supersedes
  rw [(Build.monotoneInDepth_supersedesWithin _ _).unlimited_eq hne, hrun]

/-- A refuted pair leads to no equal types, and to no infinite walk either. -/
lemma Refuted.exhausts {l : Lattice} {ns : List Ty}
    (hunique : ∀ t ∈ ns, ∀ u ∈ ns, t.id = u.id → t = u)
    {decided : List ((Identity × Identity) × Bool)} (h : Refuted l ns decided) {p : Ty × Ty}
    (hp₁ : p.1 ∈ ns) (hp₂ : p.2 ∈ ns) (hp : (pairKey p, false) ∈ decided) :
    Acc (fun q p => l.PairStep p q) p ∧
      ∀ q, ReflTransGen l.PairStep p q → q.1.equals q.2 = .ok false := by
  -- on the order of decisions: what a pair leads to was decided before it
  induction h generalizing p with
  | nil => cases hp
  | @cons a b below above decided ha hb hequal hbelow habove hdown hup _ ih =>
    rcases List.mem_cons.mp hp with hp | hp
    · obtain rfl : p = (a, b) := pairKey_inj hunique hp₁ hp₂ ha hb (Prod.mk.inj hp).1
      have hnext : ∀ q, l.PairStep (a, b) q → Acc (fun q p => l.PairStep p q) q ∧
          ∀ r, ReflTransGen l.PairStep q r → r.1.equals r.2 = .ok false := by
        intro q hstep
        cases hstep with
        | down _ hedge =>
          obtain ⟨hmem, hkey⟩ := hdown _ ((Lattice.edge_iff hbelow).mp hedge)
          exact ih hmem hb hkey
        | up _ hedge =>
          obtain ⟨hmem, hkey⟩ := hup _ ((Lattice.edge_iff habove).mp hedge)
          exact ih ha hmem hkey
      refine ⟨.intro _ fun q hq => (hnext q hq).1, ?_⟩
      intro q hq
      rcases ReflTransGen.cases_head hq with rfl | ⟨r, hstep, hrest⟩
      · exact hequal
      · exact (hnext r hstep).2 q hrest
    · exact ih hp₁ hp₂ hp

/-- Why a search of a pair may fail whose depth is not limited. If it goes too deep, there are walks of any
length without a repetition. -/
def SearchFailure (W : Lattice → List Ty → Prop) (l : Lattice) (p : Ty × Ty) (fault : Fault) : Prop :=
  (fault = .tooDeep ∧ ∀ n, ∃ l' ns', W l' ns' ∧
      Descent l'.PairStep (fun q => q.1 ∈ ns' ∧ q.2 ∈ ns') pairKey [] n p) ∨
    (∃ q, fault = .cyclicLattice (.type q.1) (.type q.2) ∧ ReflTransGen l.PairStep p q ∧
      TransGen l.PairStep q q) ∨
    ∃ d, EdgeFault d W fault

section Outcome

variable {W : Lattice → List Ty → Prop} {l : Lattice} {ns : List Ty} {sup sub : Ty}

/-- A search whose depth is not limited is one to some depth, unless none is enough. -/
lemma supersedes_cases (hWalk : Walkable W) (hW : W l ns) (hsup : sup ∈ ns) (hsub : sub ∈ ns) :
    (∃ n result s ns', Searched W n ns ⟨l, [], []⟩ [(sup, sub)] ns' result s ∧ result ≠ .error .tooDeep ∧
      Build.supersedes (.type sup) (.type sub) l = (result, s.lattice)) ∨
    Build.supersedes (.type sup) (.type sub) l = (.error .tooDeep, l) ∧
      ∀ n, ∃ l' ns', W l' ns' ∧ SearchFault W l' ns' [] n (sup, sub) .tooDeep := by
  have hsearch := fun n => supersedes_searches hWalk n ns ⟨l, [], []⟩ (sup, sub) hW hsup hsub .nil (by simp [Leading])
  rcases Build.unlimited_cases (Build.supersedesWithin (.type sup) (.type sub)) l with ⟨n, hrun, hn⟩ | hrun
  · obtain ⟨ns', h⟩ := hsearch n
    exact .inl ⟨n, _, _, ns', h, hn, hrun⟩
  · refine .inr ⟨hrun, fun n => ?_⟩
    have hdeep := (Build.monotoneInDepth_supersedesWithin _ _).tooDeep (congrArg Prod.fst hrun) n
    obtain ⟨ns', h⟩ := hsearch n
    obtain ⟨q, hq, hfault⟩ := h.fault _ hdeep
    rw [List.mem_singleton.mp hq] at hfault
    exact ⟨_, ns', h.inside, hfault⟩

/-- What asking whether one type contains another comes to, in any family of lattices that can be
walked through. -/
theorem supersedes_outcome (hWalk : Walkable W) (hW : W l ns) (hsup : sup ∈ ns) (hsub : sub ∈ ns) :
    let run := Build.supersedes (.type sup) (.type sub) l
    ∃ ns', W run.2 ns' ∧ ns ⊆ ns' ∧ l.Grows run.2 ∧
      (run.1 = .ok true → run.2.Linked (sup, sub)) ∧
      (run.1 = .ok false → Acc (fun q p => run.2.PairStep p q) (sup, sub) ∧
        ∀ q, ReflTransGen run.2.PairStep (sup, sub) q → q.1.equals q.2 = .ok false) ∧
      ∀ f, run.1 = .error f → SearchFailure W run.2 (sup, sub) f := by
  intro run
  rcases supersedes_cases hWalk hW hsup hsub with ⟨n, result, s, ns', h, hne, hrun⟩ | ⟨hrun, hdeep⟩
  · have hrun : run = (result, s.lattice) := hrun
    rw [hrun]
    refine ⟨ns', h.inside, h.subset, h.grows, ?_, ?_, ?_⟩
    · intro hr
      obtain ⟨q, hq, hlinked⟩ := h.found hr
      rw [List.mem_singleton.mp hq] at hlinked
      exact hlinked
    · intro hr
      obtain ⟨-, hrefuted, -, hdecided⟩ := h.refuted hr
      exact hrefuted.exhausts (fun t ht u hu => (hWalk.explorable .subsets).unique h.inside ht hu) (h.subset hsup)
        (h.subset hsub) (hdecided _ (List.mem_singleton_self _))
    · intro f hf
      obtain ⟨q, hq, hfault⟩ := h.fault f hf
      rw [List.mem_singleton.mp hq] at hfault
      rcases hfault with ⟨rfl, -⟩ | hrest
      · exact absurd hf hne
      · exact .inr hrest
  · have hrun : run = (.error .tooDeep, l) := hrun
    rw [hrun]
    refine ⟨ns, hW, List.Subset.refl ns, .refl l, (fun h => nomatch h), (fun h => nomatch h), ?_⟩
    intro f hf
    obtain rfl : Fault.tooDeep = f := Except.error.inj hf
    by_cases hedge : ∃ d, EdgeFault d W .tooDeep
    · exact .inr (.inr hedge)
    · refine .inl ⟨rfl, fun n => ?_⟩
      obtain ⟨l', ns', hW', ⟨-, hdescent⟩ | ⟨q, hq, -⟩ | hfault⟩ := hdeep n
      · exact ⟨l', ns', hW', hdescent⟩
      · cases hq
      · exact absurd hfault hedge

/-- A search that answers no has refuted the pair that it was asked about. -/
lemma supersedes_refutes (hWalk : Walkable W) (hW : W l ns) (hsup : sup ∈ ns) (hsub : sub ∈ ns)
    (hno : (Build.supersedes (.type sup) (.type sub) l).1 = .ok false) :
    ∃ l' ns' decided, W l' ns' ∧ ns ⊆ ns' ∧ l.Grows l' ∧ Refuted l' ns' decided ∧
      (pairKey (sup, sub), false) ∈ decided := by
  rcases supersedes_cases hWalk hW hsup hsub with ⟨n, result, s, ns', h, -, hrun⟩ | ⟨hrun, -⟩
  · rw [hrun] at hno
    obtain ⟨-, hrefuted, -, hdecided⟩ := h.refuted hno
    exact ⟨_, ns', _, h.inside, h.subset, h.grows, hrefuted, hdecided _ (List.mem_singleton_self _)⟩
  · rw [hrun] at hno
    cases hno

end Outcome

end StructuralTypes
