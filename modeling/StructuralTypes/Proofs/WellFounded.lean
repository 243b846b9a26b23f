import StructuralTypes.Proofs.Construction
import StructuralTypes.Proofs.CycleReports

/-!
# Constructed lattices are well founded

Every edge of a constructed lattice leads to a smaller tree, also the edges that only come about when
someone asks for them. So searches and checks come to an end, and there is no cycle to be found.
-/

namespace StructuralTypes

open Relation

lemma Lattice.IsComponent.onCycle {l : Lattice} {d : Direction} {root : Ty} {c : List Ty}
    (h : l.IsComponent d root c) (hcycle : l.HasCycle d c) : ∃ t ∈ c, l.OnCycle d t := by
  rcases hcycle with hlength | ⟨t, rfl, hedge⟩
  · match c, hlength with
    | t :: u :: rest, _ =>
      have hne : t ≠ u := by
        have hnodup := h.nodup
        simp only [List.nodup_cons, List.mem_cons, not_or] at hnodup
        exact hnodup.1.1
      have ht : t ∈ t :: u :: rest := List.mem_cons_self
      obtain ⟨htu, hut⟩ := (h.mem_iff t ht u).mp (List.mem_cons_of_mem t List.mem_cons_self)
      refine ⟨t, ht, ?_⟩
      rcases reflTransGen_iff_eq_or_transGen.mp htu with heq | htrans
      · exact (hne heq.symm).elim
      · exact htrans.trans_left hut
  · exact ⟨t, List.mem_singleton_self t, .single hedge⟩

namespace WellFormed

variable {terms : Terms} {l : Lattice} {ns : List Ty} {d : Direction} {t u : Ty}

lemma reaches (h : WellFormed terms l ns) (ht : t ∈ ns) (hreach : l.Reaches d t u) :
    u ∈ ns ∧ ReflTransGen (Ty.Leads d) t u := by
  induction hreach with
  | refl => exact ⟨ht, .refl⟩
  | tail _ hedge ih =>
    obtain ⟨hmem, hleads⟩ := h.edge ih.1 hedge
    exact ⟨hmem, ih.2.tail hleads⟩

lemma size_lt_of_path (h : WellFormed terms l ns) (ht : t ∈ ns) (hpath : TransGen (l.Edge d) t u) :
    u.size < t.size := by
  obtain ⟨v, hfirst, hrest⟩ := TransGen.head'_iff.mp hpath
  obtain ⟨hv, hleads⟩ := h.edge ht hfirst
  have hlt := hleads.size_lt
  have hle := Ty.size_le_of_leads (h.reaches hv hrest).2
  omega

lemma not_onCycle (h : WellFormed terms l ns) (ht : t ∈ ns) : ¬l.OnCycle d t := by
  intro hcycle
  have := h.size_lt_of_path ht hcycle
  omega

lemma pairSize_lt (h : WellFormed terms l ns) {p q : Ty × Ty} (hp₁ : p.1 ∈ ns) (hp₂ : p.2 ∈ ns)
    (hstep : l.PairStep p q) : q.1.size + q.2.size < p.1.size + p.2.size := by
  cases hstep with
  | down b hedge =>
    have := (h.edge hp₁ hedge).2.size_lt
    dsimp only at this ⊢
    omega
  | up a hedge =>
    have := (h.edge hp₂ hedge).2.size_lt
    dsimp only at this ⊢
    omega

lemma not_edgeFault (hdoc : terms.documented) (d : Direction) (fault : Fault) :
    ¬EdgeFault d (WellFormed terms) fault := by
  rintro ⟨l, ns, t, h, ht, hfault⟩
  obtain ⟨-, -, -, -, htotal, -⟩ := yields_edges h ht d
  obtain ⟨rs, hrs⟩ := htotal hdoc
  rw [hrs] at hfault
  cases hfault

theorem supersedes_answers (h : WellFormed terms l ns) (hdoc : terms.documented) {sup sub : Ty}
    (hsup : sup ∈ ns) (hsub : sub ∈ ns) : ∃ b, (Build.supersedes (.type sup) (.type sub) l).1 = .ok b := by
  obtain ⟨ns', hpop, hns, -, -, -, hfault⟩ := supersedes_outcome (walkable terms) h hsup hsub
  rcases hrun : (Build.supersedes (.type sup) (.type sub) l).1 with fault | b
  · rcases hfault fault hrun with ⟨-, hdescent⟩ | ⟨q, -, hreach, hcycle⟩ | hedge
    · -- no walk goes through more pairs than the trees have nodes
      obtain ⟨l', ns', hpop', hwalk⟩ := hdescent (sup.size + sub.size + 1)
      have hle := hwalk.le_measure (fun q => q.1.size + q.2.size)
        fun p q hp hstep => hpop'.pairSize_lt hp.1 hp.2 hstep
      dsimp only at hle
      omega
    · obtain ⟨hdown, hup⟩ := Lattice.pairReaches_iff.mp hreach
      rcases Lattice.onCycle_of_pair hcycle with hcycle | hcycle
      · exact (hpop.not_onCycle (hpop.reaches (hns hsup) hdown).1 hcycle).elim
      · exact (hpop.not_onCycle (hpop.reaches (hns hsub) hup).1 hcycle).elim
    · obtain ⟨d, hfault⟩ := hedge
      exact (not_edgeFault hdoc d fault hfault).elim
  · exact ⟨b, rfl⟩

lemma reachable_acyclic (h : WellFormed terms l ns) (hdoc : terms.documented) {root : Ty}
    (hroot : root ∈ ns) (d : Direction) : ∃ g l' ns', Build.reachable d (.type root) l = (.ok g, l') ∧
      WellFormed terms l' ns' ∧ ns ⊆ ns' ∧ g.cycles = [] := by
  obtain ⟨ns', hpop, hns, -, hok, hfault⟩ := reachable_outcome (explorable terms d) h hroot
  rcases hrun : Build.reachable d (.type root) l with ⟨fault | g, l'⟩
  · rw [hrun] at hpop hfault
    rcases hfault fault rfl with hedge | ⟨-, hdescent⟩
    · exact (not_edgeFault hdoc d fault hedge).elim
    · obtain ⟨l', ns', hpop', hwalk⟩ := hdescent (root.size + 1)
      have hle := hwalk.le_measure Ty.size fun t u ht hedge => (hpop'.edge ht hedge).2.size_lt
      omega
  · rw [hrun] at hpop hok
    have hreach := hok g rfl
    have hunique : ∀ t ∈ ns', ∀ u ∈ ns', t.id = u.id → t = u := fun t ht u hu => hpop.unique ht hu
    have hlists := hreach.listsCycles hunique (hns hroot)
    have hnone : g.cyclicComponents = [] := by
      rw [List.eq_nil_iff_forall_not_mem]
      intro c hc
      obtain ⟨hcomponent, hcycle⟩ := hlists.sound c hc
      obtain ⟨t, ht, hcycle⟩ := hcomponent.onCycle hcycle
      exact hpop.not_onCycle (hpop.reaches (hns hroot) (hcomponent.reached t ht)).1 hcycle
    refine ⟨g, l', ns', rfl, hpop, hns, ?_⟩
    rw [hreach.cycles_eq hunique, hnone, List.map_nil]

lemma checkDirection_quiet (h : WellFormed terms l ns) (hdoc : terms.documented) {root : Ty}
    (hroot : root ∈ ns) (d : Direction) : ∃ l' ns', WellFormed terms l' ns' ∧ ns ⊆ ns' ∧
      ∀ w : Workbench, w.lattice = l → ∃ console, Work.checkDirection (.type root) d w =
        (.ok (), { w with lattice := l', console }) := by
  obtain ⟨g, l', ns', hreach, hpop, hns, hcycles⟩ := h.reachable_acyclic hdoc hroot d
  rw [← List.map_nil (f := fun c : List Ty => c.map Referent.type)] at hcycles
  obtain ⟨shown, hname⟩ := (h.sound root hroot).name
  refine ⟨l', ns', hpop, hns, ?_⟩
  rintro w rfl
  have hroom : w.report.HasRoom 0 := by
    intro cap _
    omega
  obtain ⟨console, hrun⟩ := Work.checkDirection_of_reach hreach hname hcycles .nil hroom
  refine ⟨console, ?_⟩
  rw [hrun]
  simp [Report.addAll]

end WellFormed

/-- Over types made with docs that have an entry, every search has an answer, and every check comes to
an end and adds no complaint. -/
theorem Made.wellFounded {l : Lattice} {ts : List Ty}
    (h : Made { documented := True, differences := True } l ts) {sup sub : Ty} (hsup : sup ∈ ts)
    (hsub : sub ∈ ts) : (∃ b, (Build.supersedes (.type sup) (.type sub) l).1 = .ok b) ∧
      ∀ w : Workbench, w.lattice = l → ∃ l' console,
        Work.checkLattice (.type sup) w = (.ok (), { w with lattice := l', console }) := by
  obtain ⟨ns, hpop, hns⟩ := h.wellFormed
  refine ⟨hpop.supersedes_answers trivial (hns hsup) (hns hsub), fun w hw => ?_⟩
  obtain ⟨l₁, ns₁, hpop₁, hns₁, hdown⟩ := hpop.checkDirection_quiet trivial (hns hsup) .subsets
  obtain ⟨l₂, ns₂, -, -, hup⟩ := hpop₁.checkDirection_quiet trivial (hns₁ (hns hsup)) .supersets
  obtain ⟨console, hfirst⟩ := hdown w hw
  obtain ⟨console', hsecond⟩ := hup { w with lattice := l₁, console := console } rfl
  refine ⟨l₂, console', ?_⟩
  unfold Work.checkLattice
  rw [bind_of_ok hfirst, hsecond]

theorem Made.wellFounded_boxes :
    let w : Workbench := ⟨boxLattice, .new false none, ⟨"", ""⟩, [], []⟩
    Made { documented := True, differences := True } boxLattice boxTypes ∧
      (∃ b, (Build.supersedes (.type (boxType 1)) (.type (boxType 0)) boxLattice).1 = .ok b) ∧
      (Build.supersedes (.type (boxType 1)) (.type (boxType 0)) boxLattice).2.entries.size = 8 ∧
      ∃ l' console, Work.checkLattice (.type (boxType 1)) w = (.ok (), { w with lattice := l', console }) := by
  intro w
  have hmade := boxLattice_made { documented := True, differences := True }
  obtain ⟨hanswer, hcheck⟩ := hmade.wellFounded (show boxType 1 ∈ boxTypes by simp [boxTypes, boxType])
    (show boxType 0 ∈ boxTypes by simp [boxTypes, boxType])
  exact ⟨hmade, hanswer, rfl, hcheck w rfl⟩

end StructuralTypes
