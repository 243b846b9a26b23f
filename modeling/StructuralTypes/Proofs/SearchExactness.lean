import StructuralTypes.Proofs.Search

/-!
# Exactness of the search over stored edges

Whatever edges are stored for a set of nodes, cycles included, the search finds equal types below
the one side and above the other exactly if there are any, unless it meets a cycle first. It fails
only by naming a pair with a cycle on one of its sides. Where there is no cycle, remembering what
was decided changes nothing: plain recursion gives the same answers.
-/

namespace StructuralTypes

open Relation

/-- The same question decided by recursion alone, remembering nothing. -/
def plainSupersedes : Nat → Referent → Referent → Searching Bool
  | 0, _, _ => throw .tooDeep
  | depth + 1, sup, sub => Searching.settle (plainSupersedes depth) sup sub

/-- All pairs of identities of a lattice. -/
def Lattice.pairKeys (l : Lattice) : List (Identity × Identity) :=
  (List.range l.entries.size).flatMap fun i =>
    (List.range l.entries.size).map fun j => (.type i, .type j)

lemma Lattice.length_pairKeys (l : Lattice) : l.pairKeys.length = l.entries.size * l.entries.size := by
  simp [pairKeys, List.length_flatMap]

lemma Lattice.mem_pairKeys {l : Lattice} {p : Ty × Ty} (h₁ : p.1.id < l.entries.size)
    (h₂ : p.2.id < l.entries.size) : pairKey p ∈ l.pairKeys := by
  rw [pairKeys, List.mem_flatMap]
  refine ⟨p.1.id, List.mem_range.mpr h₁, ?_⟩
  rw [List.mem_map]
  exact ⟨p.2.id, List.mem_range.mpr h₂, rfl⟩

namespace Settled

variable {l : Lattice} {nodes : List Ty}

lemma descent_le (h : Settled l nodes) {seen : List (Identity × Identity)} {n : Nat} {p : Ty × Ty}
    (hseen : seen.Nodup) (hsub : seen ⊆ l.pairKeys)
    (hd : Descent l.PairStep (fun q => q.1 ∈ nodes ∧ q.2 ∈ nodes) pairKey seen n p) :
    n ≤ l.entries.size * l.entries.size := by
  have hkeys : ∀ q : Ty × Ty, q.1 ∈ nodes ∧ q.2 ∈ nodes → pairKey q ∈ l.pairKeys := fun q hq =>
    Lattice.mem_pairKeys (h.id_lt hq.1) (h.id_lt hq.2)
  have hle := hd.add_length_le l.pairKeys hkeys hseen hsub
  rw [l.length_pairKeys] at hle
  omega

end Settled

lemma anyM_unchanged {f : Referent → Searching Bool} {s : Search} (us : List Ty)
    (hf : ∀ u ∈ us, (f (.type u) s).2 = s) :
    ∃ result, (us.map Referent.type).anyM f s = (result, s) ∧
      (result = .ok true → ∃ u ∈ us, (f (.type u) s).1 = .ok true) ∧
      (result = .ok false → ∀ u ∈ us, (f (.type u) s).1 = .ok false) ∧
      ∀ fault, result = .error fault → ∃ u ∈ us, (f (.type u) s).1 = .error fault := by
  induction us with
  | nil => exact ⟨.ok false, rfl, (fun h => nomatch h), by simp, (fun _ h => nomatch h)⟩
  | cons u us ih =>
    have hu := hf u List.mem_cons_self
    rw [List.map_cons, List.anyM_cons]
    rcases hrun : f (.type u) s with ⟨fault | found, s'⟩
    · rw [hrun] at hu
      obtain rfl : s' = s := hu
      rw [bind_of_error hrun]
      refine ⟨.error fault, rfl, (fun h => nomatch h), (fun h => nomatch h), ?_⟩
      intro fault' hfault
      exact ⟨u, List.mem_cons_self, by rw [hrun]; exact hfault⟩
    · rw [hrun] at hu
      obtain rfl : s' = s := hu
      rw [bind_of_ok hrun]
      cases found with
      | true =>
        refine ⟨.ok true, rfl, ?_, (fun h => nomatch h), (fun _ h => nomatch h)⟩
        intro _
        exact ⟨u, List.mem_cons_self, by rw [hrun]⟩
      | false =>
        obtain ⟨result, hrest, hfound, hnone, hfault⟩ := ih fun v hv => hf v (List.mem_cons_of_mem _ hv)
        refine ⟨result, hrest, ?_, ?_, ?_⟩
        · intro hr
          obtain ⟨v, hv, hv'⟩ := hfound hr
          exact ⟨v, List.mem_cons_of_mem _ hv, hv'⟩
        · intro hr v hv
          rcases List.mem_cons.mp hv with rfl | hv
          · rw [hrun]
          · exact hnone hr v hv
        · intro fault hr
          obtain ⟨v, hv, hv'⟩ := hfault fault hr
          exact ⟨v, List.mem_cons_of_mem _ hv, hv'⟩

/-- Where equal types are looked for over stored edges, the answer for a pair comes from the answers
for the pairs one step further. -/
lemma Settled.settle_eq {l : Lattice} {nodes : List Ty} (h : Settled l nodes) {a b : Ty} (ha : a ∈ nodes)
    (hb : b ∈ nodes) {s : Search} (hs : s.lattice = l) {search : Referent → Referent → Searching Bool}
    (hsearch : ∀ q : Ty × Ty, l.PairStep (a, b) q → (search (.type q.1) (.type q.2) s).2 = s) :
    ∃ result, Searching.settle search (.type a) (.type b) s = (result, s) ∧
      (result = .ok true → a.equals b = .ok true ∨
        ∃ q, l.PairStep (a, b) q ∧ (search (.type q.1) (.type q.2) s).1 = .ok true) ∧
      (result = .ok false → a.equals b = .ok false ∧
        ∀ q, l.PairStep (a, b) q → (search (.type q.1) (.type q.2) s).1 = .ok false) ∧
      ∀ fault, result = .error fault →
        ∃ q, l.PairStep (a, b) q ∧ (search (.type q.1) (.type q.2) s).1 = .error fault := by
  obtain ⟨equal, hequal⟩ := Ty.equals_answers (h.proper a ha) (h.proper b hb)
  unfold Searching.settle
  rw [bind_of_ok (ofAttempt_equals hequal s)]
  cases equal with
  | true => exact ⟨.ok true, rfl, fun _ => .inl hequal, (fun h => nomatch h), (fun _ h => nomatch h)⟩
  | false =>
    obtain ⟨below, hbelow, hstored, -⟩ := h.edges_eq ha .subsets
    obtain ⟨above, habove, hstored', -⟩ := h.edges_eq hb .supersets
    have hask : ∀ {t : Ty} {d : Direction} {us : List Ty}, t.edges d l = (.ok (us.map .type), l) →
        Searching.ofBuild ((Referent.type t).edges d) s = (.ok (us.map .type), s) := by
      intro t d us ht
      rw [ofBuild_edges, hs, ht, ← hs]
    obtain ⟨down, hdown, hfound, hnone, hfault⟩ := anyM_unchanged below
      (f := fun u => search u (.type b)) (s := s)
      (fun u hu => hsearch (u, b) (.down b ((Lattice.edge_iff hstored).mpr hu)))
    obtain ⟨up, hup, hfound', hnone', hfault'⟩ := anyM_unchanged above
      (f := fun u => search (.type a) u) (s := s)
      (fun u hu => hsearch (a, u) (.up a ((Lattice.edge_iff hstored').mpr hu)))
    simp only [Bool.false_eq_true, if_false]
    rw [bind_of_ok (hask hbelow)]
    rcases down with fault | found
    · rw [bind_of_error hdown]
      refine ⟨.error fault, rfl, (fun h => nomatch h), (fun h => nomatch h), ?_⟩
      intro fault' hr
      obtain ⟨u, hu, hrun⟩ := hfault fault' hr
      exact ⟨(u, b), .down b ((Lattice.edge_iff hstored).mpr hu), hrun⟩
    · rw [bind_of_ok hdown]
      cases found with
      | true =>
        refine ⟨.ok true, rfl, ?_, (fun h => nomatch h), (fun _ h => nomatch h)⟩
        intro _
        obtain ⟨u, hu, hrun⟩ := hfound rfl
        exact .inr ⟨(u, b), .down b ((Lattice.edge_iff hstored).mpr hu), hrun⟩
      | false =>
        simp only [Bool.false_eq_true, if_false]
        rw [bind_of_ok (hask habove), hup]
        refine ⟨up, rfl, ?_, ?_, ?_⟩
        · intro hr
          obtain ⟨u, hu, hrun⟩ := hfound' hr
          exact .inr ⟨(a, u), .up a ((Lattice.edge_iff hstored').mpr hu), hrun⟩
        · intro hr
          refine ⟨hequal, ?_⟩
          intro q hq
          cases hq with
          | down _ hedge => exact hnone rfl _ ((Lattice.edge_iff hstored).mp hedge)
          | up _ hedge => exact hnone' hr _ ((Lattice.edge_iff hstored').mp hedge)
        · intro fault hr
          obtain ⟨u, hu, hrun⟩ := hfault' fault hr
          exact ⟨(a, u), .up a ((Lattice.edge_iff hstored').mpr hu), hrun⟩

/-- No type that `t` leads to lies on a cycle. -/
def Lattice.AcyclicFrom (l : Lattice) (d : Direction) (t : Ty) : Prop :=
  ∀ u, l.Reaches d t u → ¬l.OnCycle d u

lemma Lattice.pair_acyclic {l : Lattice} {a b : Ty} (ha : l.AcyclicFrom .subsets a)
    (hb : l.AcyclicFrom .supersets b) (q : Ty × Ty) (hreach : ReflTransGen l.PairStep (a, b) q) :
    ¬TransGen l.PairStep q q := by
  intro hcycle
  obtain ⟨hdown, hup⟩ := Lattice.pairReaches_iff.mp hreach
  rcases Lattice.onCycle_of_pair hcycle with hc | hc
  · exact ha q.1 hdown hc
  · exact hb q.2 hup hc

lemma Lattice.acyclicFrom_of_acc {l : Lattice} {a b : Ty}
    (h : Acc (fun q p => l.PairStep p q) (a, b)) :
    l.AcyclicFrom .subsets a ∧ l.AcyclicFrom .supersets b := by
  have hacyclic : ∀ q, ReflTransGen l.PairStep (a, b) q → ¬TransGen l.PairStep q q := by
    intro q hreach
    have hq : Acc (fun q p => l.PairStep p q) q := by
      induction hreach with
      | refl => exact h
      | tail _ hstep ih => exact ih.inv hstep
    -- a cycle through a pair is a cycle through the next pair on it
    induction hq with
    | intro q _ ih =>
      intro hcycle
      obtain ⟨r, hstep, hrest⟩ := TransGen.head'_iff.mp hcycle
      exact ih r hstep (hreach.tail hstep) (TransGen.tail' hrest hstep)
  constructor
  · intro u hu hc
    exact hacyclic (u, b) (Lattice.pairReaches_iff.mpr ⟨hu, .refl⟩)
      (hc.lift (fun x => (x, b)) fun _ _ hedge => .down b hedge)
  · intro u hu hc
    exact hacyclic (a, u) (Lattice.pairReaches_iff.mpr ⟨.refl, hu⟩)
      (hc.lift (fun x => (a, x)) fun _ _ hedge => .up a hedge)

namespace Settled

variable {l : Lattice} {nodes : List Ty}

lemma pairStep_inside (h : Settled l nodes) {p q : Ty × Ty} (hp : p.1 ∈ nodes ∧ p.2 ∈ nodes)
    (hstep : l.PairStep p q) : q.1 ∈ nodes ∧ q.2 ∈ nodes := by
  cases hstep with
  | down b hedge =>
    obtain ⟨us, hus, hsub⟩ := h.stored _ hp.1 .subsets
    exact ⟨hsub ((Lattice.edge_iff hus).mp hedge), hp.2⟩
  | up a hedge =>
    obtain ⟨us, hus, hsub⟩ := h.stored _ hp.2 .supersets
    exact ⟨hp.1, hsub ((Lattice.edge_iff hus).mp hedge)⟩

lemma plain_answers (h : Settled l nodes) (n : Nat) {p : Ty × Ty} (hp : p.1 ∈ nodes ∧ p.2 ∈ nodes)
    (hacyclic : ∀ q, ReflTransGen l.PairStep p q → ¬TransGen l.PairStep q q)
    {seen : List (Identity × Identity)} (hleading : Leading l nodes seen p) {s : Search}
    (hs : s.lattice = l) :
    ∃ result, plainSupersedes n (.type p.1) (.type p.2) s = (result, s) ∧
      (result = .ok true → l.Linked p) ∧ (result = .ok false → ¬l.Linked p) ∧
      ∀ fault, result = .error fault →
        Descent l.PairStep (fun q => q.1 ∈ nodes ∧ q.2 ∈ nodes) pairKey seen n p := by
  induction n generalizing p seen with
  | zero =>
    exact ⟨.error .tooDeep, rfl, (fun h => nomatch h), (fun h => nomatch h), fun _ _ => .stop _ _⟩
  | succ n ih =>
    obtain ⟨a, b⟩ := p
    have hnew : pairKey (a, b) ∉ seen := by
      intro hmem
      obtain ⟨q, hq₁, hq₂, hkey, hcycle⟩ := hleading _ hmem
      obtain rfl := pairKey_inj h.unique (p := (a, b)) hp.1 hp.2 hq₁ hq₂ hkey
      exact hacyclic _ .refl hcycle
    have hnext := fun q (hstep : l.PairStep (a, b) q) =>
      ih (h.pairStep_inside hp hstep) (fun r hr => hacyclic r (hr.head hstep))
        (hleading.step hp.1 hp.2 hstep)
    have hstate : ∀ q, l.PairStep (a, b) q →
        (plainSupersedes n (.type q.1) (.type q.2) s).2 = s := by
      intro q hq
      obtain ⟨result, hrun, -⟩ := hnext q hq
      rw [hrun]
    obtain ⟨result, hrun, hfound, hnone, hfault⟩ := h.settle_eq hp.1 hp.2 hs hstate
    refine ⟨result, hrun, ?_, ?_, ?_⟩
    · intro hr
      rcases hfound hr with hequal | ⟨q, hstep, hq⟩
      · exact ⟨(a, b), .refl, hequal⟩
      · obtain ⟨result', hrun', hlinked, -⟩ := hnext q hstep
        rw [hrun'] at hq
        exact (hlinked hq).step hstep
    · rintro hr ⟨q, hreach, hequal⟩
      obtain ⟨hunequal, hall⟩ := hnone hr
      rcases ReflTransGen.cases_head hreach with rfl | ⟨r, hstep, hrest⟩
      · rw [hunequal] at hequal
        cases hequal
      · obtain ⟨result', hrun', -, hunlinked, -⟩ := hnext r hstep
        have hr' := hall r hstep
        rw [hrun'] at hr'
        exact hunlinked hr' ⟨q, hrest, hequal⟩
    · intro fault hr
      obtain ⟨q, hstep, hq⟩ := hfault fault hr
      obtain ⟨result', hrun', -, -, hdescent⟩ := hnext q hstep
      rw [hrun'] at hq
      exact .step hnew hp hstep (hdescent fault hq)

lemma supersedes_run (h : Settled l nodes) {sup sub : Ty} (hsup : sup ∈ nodes) (hsub : sub ∈ nodes) :
    ∃ result, Build.supersedes (.type sup) (.type sub) l = (result, l) ∧
      (result = .ok true → l.Linked (sup, sub)) ∧
      (result = .ok false → Acc (fun q p => l.PairStep p q) (sup, sub) ∧
        ∀ q, ReflTransGen l.PairStep (sup, sub) q → q.1.equals q.2 = .ok false) ∧
      ∀ fault, result = .error fault → ∃ q, fault = .cyclicLattice (.type q.1) (.type q.2) ∧
        ReflTransGen l.PairStep (sup, sub) q ∧ TransGen l.PairStep q q := by
  obtain ⟨ns', ⟨hl, rfl⟩, -, -, hfound, hrefuted, hfault⟩ :=
    supersedes_outcome h.walkable (l := l) ⟨rfl, rfl⟩ hsup hsub
  rcases hrun : Build.supersedes (.type sup) (.type sub) l with ⟨result, l'⟩
  rw [hrun] at hl hfound hrefuted hfault
  obtain rfl : l' = l := hl
  refine ⟨result, rfl, hfound, hrefuted, ?_⟩
  intro fault hr
  rcases hfault fault hr with ⟨-, hdescent⟩ | hcycle | hedge
  · obtain ⟨_, _, ⟨rfl, rfl⟩, hwalk⟩ := hdescent (l'.entries.size * l'.entries.size + 1)
    have hle := h.descent_le List.nodup_nil (List.nil_subset _) hwalk
    omega
  · exact hcycle
  · obtain ⟨d, hfault⟩ := hedge
    exact (h.not_edgeFault d fault hfault).elim

/-- The search over stored edges, whatever they are: its outcome is exact, and where there is no
cycle it is that of plain recursion. -/
theorem supersedes_exact (h : Settled l nodes) (sup sub : Ty) (hsup : sup ∈ nodes)
    (hsub : sub ∈ nodes) :
    ∃ result, Build.supersedes (.type sup) (.type sub) l = (result, l) ∧
      (result = .ok true ∨ result = .ok false ∨
        ∃ a b, result = .error (.cyclicLattice (.type a) (.type b))) ∧
      (result = .ok true → ∃ d u, l.Reaches .subsets sup d ∧ l.Reaches .supersets sub u ∧
        d.equals u = .ok true) ∧
      (result = .ok false → (∀ d u, l.Reaches .subsets sup d → l.Reaches .supersets sub u →
        d.equals u = .ok false) ∧ l.AcyclicFrom .subsets sup ∧ l.AcyclicFrom .supersets sub) ∧
      (∀ a b, result = .error (.cyclicLattice (.type a) (.type b)) →
        l.Reaches .subsets sup a ∧ l.Reaches .supersets sub b ∧
          (l.OnCycle .subsets a ∨ l.OnCycle .supersets b)) ∧
      (l.AcyclicFrom .subsets sup → l.AcyclicFrom .supersets sub →
        ∀ depth, l.entries.size * l.entries.size < depth →
          (plainSupersedes depth (.type sup) (.type sub) ⟨l, [], []⟩).1 = result) := by
  obtain ⟨result, hrun, hfound, hrefuted, hfault⟩ := h.supersedes_run hsup hsub
  refine ⟨result, hrun, ?_, ?_, ?_, ?_, ?_⟩
  · rcases result with fault | found
    · obtain ⟨q, rfl, -⟩ := hfault fault rfl
      exact .inr (.inr ⟨q.1, q.2, rfl⟩)
    · cases found with
      | true => exact .inl rfl
      | false => exact .inr (.inl rfl)
  · intro hr
    obtain ⟨⟨d, u⟩, hreach, hequal⟩ := hfound hr
    obtain ⟨hd, hu⟩ := Lattice.pairReaches_iff.mp hreach
    exact ⟨d, u, hd, hu, hequal⟩
  · intro hr
    obtain ⟨hacc, hunequal⟩ := hrefuted hr
    obtain ⟨hdown, hup⟩ := Lattice.acyclicFrom_of_acc hacc
    exact ⟨fun d u hd hu => hunequal (d, u) (Lattice.pairReaches_iff.mpr ⟨hd, hu⟩), hdown, hup⟩
  · intro a b hr
    obtain ⟨q, hq, hreach, hcycle⟩ := hfault _ hr
    obtain ⟨ha, hb⟩ := Fault.cyclicLattice.inj hq
    obtain rfl := Referent.type.inj ha
    obtain rfl := Referent.type.inj hb
    obtain ⟨hdown, hup⟩ := Lattice.pairReaches_iff.mp hreach
    exact ⟨hdown, hup, Lattice.onCycle_of_pair hcycle⟩
  · intro hdown hup depth hdepth
    have hacyclic := Lattice.pair_acyclic hdown hup
    obtain ⟨plain, hplain, hlinked, hunlinked, hdescent⟩ := h.plain_answers depth ⟨hsup, hsub⟩ hacyclic
      (show Leading l nodes [] (sup, sub) by simp [Leading]) (s := ⟨l, [], []⟩) rfl
    rw [hplain]
    rcases plain with fault | found
    · have := h.descent_le List.nodup_nil (List.nil_subset _) (hdescent fault rfl)
      omega
    · rcases result with fault | found'
      · obtain ⟨q, -, hreach, hcycle⟩ := hfault fault rfl
        exact (hacyclic q hreach hcycle).elim
      · cases found with
        | true =>
          obtain ⟨q, hreach, hequal⟩ := hlinked rfl
          cases found' with
          | true => rfl
          | false =>
            rw [(hrefuted rfl).2 q hreach] at hequal
            cases hequal
        | false =>
          cases found' with
          | true => exact (hunlinked rfl (hfound rfl)).elim
          | false => rfl

end Settled

/-- Three tests, two of which are declared to contain each other. -/
def ringLattice : Lattice :=
  ⟨#[⟨some [], some []⟩, ⟨some [], some [.type (.sample 2 "small")]⟩,
    ⟨some [], some [.type (.sample 1 "odd")]⟩], 3⟩

lemma ringLattice_settled :
    Settled ringLattice [Ty.sample 0 "even", Ty.sample 1 "odd", Ty.sample 2 "small"] where
  unique := by simp [Ty.sample, Ty.id, Ty.label]
  proper := by
    intro t ht
    simp only [List.mem_cons, List.not_mem_nil, or_false] at ht
    rcases ht with rfl | rfl | rfl <;> exact .predicate _ _
  stored := by
    intro t ht d
    simp only [List.mem_cons, List.not_mem_nil, or_false] at ht
    rcases ht with rfl | rfl | rfl
    · exact ⟨[], by cases d <;> rfl, by simp⟩
    · cases d with
      | subsets => exact ⟨[], rfl, by simp⟩
      | supersets => exact ⟨[Ty.sample 2 "small"], rfl, by simp⟩
    · cases d with
      | subsets => exact ⟨[], rfl, by simp⟩
      | supersets => exact ⟨[Ty.sample 1 "odd"], rfl, by simp⟩

theorem supersedes_exact_ring :
    Settled ringLattice [Ty.sample 0 "even", Ty.sample 1 "odd", Ty.sample 2 "small"] ∧
      (Build.supersedes (.type (.sample 0 "even")) (.type (.sample 1 "odd")) ringLattice).1 =
        .error (.cyclicLattice (.type (.sample 0 "even")) (.type (.sample 1 "odd"))) ∧
      (ringLattice.OnCycle .subsets (.sample 0 "even") ∨
        ringLattice.OnCycle .supersets (.sample 1 "odd")) := by
  have hrun : (Build.supersedes (.type (.sample 0 "even")) (.type (.sample 1 "odd")) ringLattice).1 =
      .error (.cyclicLattice (.type (.sample 0 "even")) (.type (.sample 1 "odd"))) := rfl
  obtain ⟨result, hresult, -, -, -, hcycle, -⟩ := ringLattice_settled.supersedes_exact
    (.sample 0 "even") (.sample 1 "odd") (by simp) (by simp)
  rw [hresult] at hrun
  exact ⟨ringLattice_settled, by rw [hresult]; exact hrun, (hcycle _ _ hrun).2.2⟩

end StructuralTypes
