import StructuralTypes.Proofs.SearchExactness
import StructuralTypes.Proofs.WellFounded

/-!
# Searches and checks agree about cycles

A search notices a cycle when it meets a pair of types again that it has not decided yet. A check looks
for strongly connected components in one direction at a time. Over stored edges both see the same: a
search fails exactly because of a cycle that one of the two checks complains about, and a search that
answers no leaves nothing to complain about.

A check that reaches the cap of its report stops there. It goes through the subsets first, so it may
never get to the supersets.
-/

namespace StructuralTypes

open Relation

namespace Lattice

variable {l : Lattice} {nodes : List Ty} {d : Direction} {root t u : Ty}

lemma Reaches.mem_nodes (h : Closed l nodes) (ht : t ∈ nodes) (hreach : l.Reaches d t u) : u ∈ nodes := by
  induction hreach with
  | refl => exact ht
  | tail _ hedge ih =>
    obtain ⟨us, hus, hsub⟩ := h.stored _ ih d
    exact hsub ((edge_iff hus).mp hedge)

/-- The types that lead to `u` and back, as a component. -/
lemma exists_component (h : Closed l nodes) (hroot : root ∈ nodes) (hreach : l.Reaches d root u) :
    ∃ c, l.IsComponent d root c ∧ u ∈ c := by
  classical
  let c := nodes.dedup.filter fun v => l.Reaches d u v ∧ l.Reaches d v u
  have hu : u ∈ nodes := hreach.mem_nodes h hroot
  have hmem : ∀ v, v ∈ c ↔ l.Reaches d u v ∧ l.Reaches d v u := by
    intro v
    simp only [c, List.mem_filter, List.mem_dedup, decide_eq_true_eq]
    exact ⟨And.right, fun hv => ⟨hv.1.mem_nodes h hu, hv⟩⟩
  have huc : u ∈ c := (hmem u).mpr ⟨.refl, .refl⟩
  refine ⟨c, ⟨List.ne_nil_of_mem huc, (List.nodup_dedup nodes).filter _, ?_, ?_⟩, huc⟩
  · intro v hv
    exact hreach.trans ((hmem v).mp hv).1
  · intro v hv w
    rw [hmem w]
    have hback := (hmem v).mp hv
    constructor
    · intro hw
      exact ⟨hback.2.trans hw.1, hw.2.trans hback.1⟩
    · intro hw
      exact ⟨hback.1.trans hw.1, hw.2.trans hback.2⟩

lemma IsComponent.hasCycle {c : List Ty} (h : l.IsComponent d root c) (hu : u ∈ c)
    (hcycle : l.OnCycle d u) : l.HasCycle d c := by
  by_cases hlen : 2 ≤ c.length
  · exact .inl hlen
  · -- the only member leads to itself, since the next node on the cycle is a member too
    obtain ⟨v, hfirst, hrest⟩ := TransGen.head'_iff.mp hcycle
    have hv : v ∈ c := (h.mem_iff u hu v).mpr ⟨.single hfirst, hrest⟩
    match c, hlen, hu, hv with
    | [w], _, hu, hv =>
      rw [List.mem_singleton] at hu hv
      subst hu hv
      exact .inr ⟨v, rfl, hfirst⟩
    | _ :: _ :: _, hlen, _, _ => exact (hlen (by simp)).elim

/-- There is no component to list exactly if nothing that the root leads to lies on a cycle. -/
lemma ListsCycles.eq_nil_iff {cycles : List (List Ty)} (h : l.ListsCycles d root cycles)
    (hclosed : Closed l nodes) (hroot : root ∈ nodes) : cycles = [] ↔ l.AcyclicFrom d root := by
  constructor
  · intro hnil u hreach hcycle
    obtain ⟨c, hc, hu⟩ := exists_component hclosed hroot hreach
    obtain ⟨c', hc', -⟩ := h.complete c hc (hc.hasCycle hu hcycle)
    rw [hnil] at hc'
    cases hc'
  · intro hacyclic
    apply List.eq_nil_iff_forall_not_mem.mpr
    intro c hc
    obtain ⟨hcomponent, hcycle⟩ := h.sound c hc
    obtain ⟨t, ht, honcycle⟩ := hcomponent.onCycle hcycle
    exact hacyclic t (hcomponent.reached t ht) honcycle

end Lattice

/-- The complaint is about a cycle through edges of one kind. -/
def Complaint.Concerns (d : Direction) (k : Complaint) : Prop :=
  ∃ cycle, Complaint.cyclicLattice d.text cycle = .ok k

/-- The complaints that were added since the report was as it was before. -/
def Report.since (before after : Report) : List Complaint := after.issues.drop before.issues.length

/-- A complaint about a cycle through edges of one kind was added. -/
def Report.Complained (d : Direction) (before after : Report) : Prop :=
  ∃ k ∈ before.since after, k.Concerns d

lemma Report.since_addAll (r : Report) (ks : List Complaint) : r.since (r.addAll ks) = ks := by
  simp [since, addAll]

lemma Complaint.About.concerns {d : Direction} {cycles : List (List Ty)} {ks : List Complaint}
    (h : Complaint.About d cycles ks) : ∀ k ∈ ks, k.Concerns d := by
  intro k hk
  obtain ⟨c, -, hck⟩ := exists_related_left h hk
  exact ⟨_, hck⟩

lemma Complaint.Concerns.intro_eq {d : Direction} {k : Complaint} (h : k.Concerns d) : k.intro =
    "These types form a cycle through their " ++ d.text ++ ". The lattice must be acyclic." := by
  obtain ⟨cycle, hk⟩ := h
  unfold Complaint.cyclicLattice at hk
  cases hshown : cycle.mapM (·.display) with
  | error fault =>
    rw [hshown] at hk
    cases hk
  | ok shown =>
    rw [hshown] at hk
    cases hk
    rfl

lemma Complaint.Concerns.not_both {k : Complaint} (h : k.Concerns .subsets) : ¬k.Concerns .supersets := by
  intro h'
  have hintro := h.intro_eq.symm.trans h'.intro_eq
  revert hintro
  decide

namespace Work

/-- Complaints are added one by one, up to the one that reaches the cap, if any does. -/
inductive Adds (w : Workbench) (ks : List Complaint) : Attempt Unit × Workbench → Prop
  | all (console : Console) : Adds w ks (.ok (), { w with report := w.report.addAll ks, console })
  | capped (console : Console) (n : Nat) : 0 < n → n ≤ ks.length →
      Adds w ks (.error .tooManyIssues, { w with report := w.report.addAll (ks.take n), console })

lemma complain_apply (k : Complaint) (w : Workbench) : complain k w =
    (if (w.report.add k).isFull then .error .tooManyIssues else .ok (),
      { w with report := w.report.add k }) := by
  unfold complain
  rw [get_bind]
  by_cases hfull : (w.report.add k).isFull = true
  · simp only [hfull]
    rfl
  · simp only [hfull]
    rfl

lemma adds_complaints {d : Direction} {cycles : List (List Ty)} {ks : List Complaint}
    (hks : Complaint.About d cycles ks) (w : Workbench) :
    Adds w ks (((cycles.map (·.map Referent.type)).forM fun cycle => do
      complain (← ofAttempt (Complaint.cyclicLattice d.text cycle)) : Work Unit) w) := by
  induction hks generalizing w with
  | nil =>
    have hdone : Adds w [] (.ok (), { w with report := w.report.addAll [], console := w.console }) :=
      .all w.console
    simpa [Report.addAll, pure_apply] using hdone
  | @cons c k cycles ks hk _ ih =>
    have hone : (do complain (← ofAttempt (Complaint.cyclicLattice d.text (c.map .type))) : Work Unit) w =
        complain k w := by
      rw [hk]
      rfl
    rw [complain_apply] at hone
    rw [List.map_cons]
    unfold List.forM
    by_cases hfull : (w.report.add k).isFull = true
    · rw [if_pos hfull] at hone
      rw [bind_of_error hone]
      exact .capped w.console 1 (by omega) (by simp)
    · rw [if_neg hfull] at hone
      rw [bind_of_ok hone]
      have hrest := ih { w with report := w.report.add k }
      have hshift : ∀ ks', (w.report.add k).addAll ks' = w.report.addAll (k :: ks') := by
        intro ks'
        simp [Report.add, Report.addAll]
      generalize (List.forM _ _ : Work Unit) { w with report := w.report.add k } = run at hrest ⊢
      cases hrest with
      | all console =>
        rw [hshift]
        exact .all console
      | capped console n hpos hle =>
        rw [hshift]
        exact .capped console (n + 1) (by omega) (by simpa using hle)

end Work

namespace Closed

variable {l : Lattice} {nodes : List Ty} {root : Ty}

/-- A check in one direction adds its complaints until it is done or the cap is reached. -/
lemma checkDirection_adds (h : Closed l nodes) (hnamed : ∀ t ∈ nodes, ∃ name, t.name = .ok name)
    (hroot : root ∈ nodes) (d : Direction) : ∃ ks, (ks = [] ↔ l.AcyclicFrom d root) ∧
      (∀ k ∈ ks, k.Concerns d) ∧ ∀ w : Workbench, w.lattice = l →
        Work.Adds w ks (Work.checkDirection (.type root) d w) := by
  obtain ⟨g, hrun, hreach⟩ := h.reachable_run d hroot
  obtain ⟨shown, hname⟩ := hnamed root hroot
  have hlists := hreach.listsCycles h.unique hroot
  have hmem : ∀ c ∈ g.cyclicComponents, ∀ t ∈ c, t ∈ nodes := by
    intro c hc t ht
    exact ((hlists.sound c hc).1.reached t ht).mem_nodes h hroot
  obtain ⟨ks, hks⟩ := exists_complaints d fun c hc t ht => hnamed t (hmem c hc t ht)
  refine ⟨ks, ?_, hks.concerns, ?_⟩
  · rw [← hlists.eq_nil_iff h hroot, ← List.length_eq_zero_iff, ← hks.length_eq, List.length_eq_zero_iff]
  · rintro w rfl
    have hbuild : Work.ofBuild (Build.reachable d (.type root)) w = (.ok g, w) := by
      unfold Work.ofBuild
      rw [hrun]
    have hshown : Work.ofAttempt (Referent.type root).display w = (.ok shown, w) := by
      unfold Work.ofAttempt
      rw [Referent.display, hname]
    unfold Work.checkDirection
    rw [bind_of_ok hbuild, bind_of_ok hshown]
    obtain ⟨console, hinform⟩ := Work.inform_apply ("Checking " ++ toString g.length ++
      " type(s) reachable through " ++ d.text ++ " from " ++ shown) w
    rw [bind_of_ok hinform, hreach.cycles_eq h.unique]
    have hadds := Work.adds_complaints hks { w with console }
    generalize (List.forM _ _ : Work Unit) { w with console } = run at hadds ⊢
    cases hadds with
    | all console => exact .all console
    | capped console n hpos hle => exact .capped console n hpos hle

/-- What a check adds to a report: complaints about subsets and then complaints about supersets. It goes
through the subsets first, so a cycle among them is complained about whatever the cap is. A cycle
among the supersets is too, unless the cap stops the check. -/
lemma checkLattice_since (h : Closed l nodes) (hnamed : ∀ t ∈ nodes, ∃ name, t.name = .ok name)
    (hroot : root ∈ nodes) (w : Workbench) (hw : w.lattice = l) :
    ∃ below above, w.report.since (Work.checkLattice (.type root) w).2.report = below ++ above ∧
      (∀ k ∈ below, k.Concerns .subsets) ∧ (∀ k ∈ above, k.Concerns .supersets) ∧
      (below = [] ↔ l.AcyclicFrom .subsets root) ∧ (l.AcyclicFrom .supersets root → above = []) ∧
      (above = [] → l.AcyclicFrom .supersets root ∨
        (Work.checkLattice (.type root) w).1 = .error .tooManyIssues) := by
  obtain ⟨below, hbelow, hconcerns, hdown⟩ := h.checkDirection_adds hnamed hroot .subsets
  obtain ⟨above, habove, hconcerns', hup⟩ := h.checkDirection_adds hnamed hroot .supersets
  unfold Work.checkLattice
  have hfirst := hdown w hw
  generalize hrun : Work.checkDirection (.type root) .subsets w = first at hfirst
  cases hfirst with
  | capped console n hpos hle =>
    rw [bind_of_error hrun]
    refine ⟨below.take n, [], ?_, fun k hk => hconcerns k (List.mem_of_mem_take hk), by simp, ?_,
      fun _ => rfl, fun _ => .inr rfl⟩
    · rw [Report.since_addAll, List.append_nil]
    · rw [← hbelow, List.take_eq_nil_iff]
      constructor
      · rintro (hzero | hnil)
        · omega
        · exact hnil
      · exact .inr
  | all console =>
    rw [bind_of_ok hrun]
    have hsecond := hup { w with report := w.report.addAll below, console } hw
    have hboth : ∀ ks, w.report.since ((w.report.addAll below).addAll ks) = below ++ ks := by
      intro ks
      simp [Report.since, Report.addAll]
    generalize Work.checkDirection (.type root) .supersets _ = second at hsecond ⊢
    cases hsecond with
    | all console' =>
      exact ⟨below, above, hboth above, hconcerns, hconcerns', hbelow, habove.mpr,
        fun hnil => .inl (habove.mp hnil)⟩
    | capped console' n hpos hle =>
      refine ⟨below, above.take n, hboth _, hconcerns, fun k hk => hconcerns' k (List.mem_of_mem_take hk),
        hbelow, ?_, fun _ => .inr rfl⟩
      intro hacyclic
      rw [habove.mpr hacyclic, List.take_nil]

lemma complained_subsets_iff (h : Closed l nodes) (hnamed : ∀ t ∈ nodes, ∃ name, t.name = .ok name)
    (hroot : root ∈ nodes) (w : Workbench) (hw : w.lattice = l) :
    w.report.Complained .subsets (Work.checkLattice (.type root) w).2.report ↔
      ¬l.AcyclicFrom .subsets root := by
  obtain ⟨below, above, hsince, hbelow, habove, hnil, -, -⟩ := h.checkLattice_since hnamed hroot w hw
  unfold Report.Complained
  rw [hsince, ← hnil]
  constructor
  · rintro ⟨k, hk, hconcerns⟩ rfl
    exact hconcerns.not_both (habove k hk)
  · intro hne
    obtain ⟨k, hk⟩ := List.exists_mem_of_ne_nil below hne
    exact ⟨k, List.mem_append_left above hk, hbelow k hk⟩

lemma complained_supersets (h : Closed l nodes) (hnamed : ∀ t ∈ nodes, ∃ name, t.name = .ok name)
    (hroot : root ∈ nodes) (w : Workbench) (hw : w.lattice = l) :
    let check := Work.checkLattice (.type root) w
    (w.report.Complained .supersets check.2.report → ¬l.AcyclicFrom .supersets root) ∧
      (¬l.AcyclicFrom .supersets root →
        w.report.Complained .supersets check.2.report ∨ check.1 = .error .tooManyIssues) := by
  intro check
  obtain ⟨below, above, hsince, hbelow, habove, -, hnil, hstopped⟩ := h.checkLattice_since hnamed hroot w hw
  unfold Report.Complained
  rw [hsince]
  constructor
  · rintro ⟨k, hk, hconcerns⟩ hacyclic
    rw [hnil hacyclic, List.append_nil] at hk
    exact (hbelow k hk).not_both hconcerns
  · intro hcyclic
    by_cases hempty : above = []
    · exact .inr ((hstopped hempty).resolve_left hcyclic)
    · obtain ⟨k, hk⟩ := List.exists_mem_of_ne_nil above hempty
      exact .inl ⟨k, List.mem_append_right below hk, habove k hk⟩

end Closed

/-- Searches and checks agree about cycles, whatever edges are stored and whatever the reports hold.
Where a search fails on a cycle, the check of the containing type complains about its subsets or the
check of the contained one about its supersets, if the cap lets it get that far. Where neither does,
the search has an answer, and where that is no, neither does. -/
theorem Settled.search_agrees_with_checks {l : Lattice} {nodes : List Ty} (h : Settled l nodes)
    (hnamed : ∀ t ∈ nodes, ∃ name, t.name = .ok name) (sup sub : Ty) (hsup : sup ∈ nodes)
    (hsub : sub ∈ nodes) (w w' : Workbench) (hw : w.lattice = l) (hw' : w'.lattice = l) :
    let search := (Build.supersedes (.type sup) (.type sub) l).1
    let check := Work.checkLattice (.type sup) w
    let check' := Work.checkLattice (.type sub) w'
    let below := w.report.Complained .subsets check.2.report
    let above := w'.report.Complained .supersets check'.2.report
    ((∃ a b, search = .error (.cyclicLattice a b)) →
        below ∨ above ∨ check'.1 = .error .tooManyIssues) ∧
      (¬below → ¬above → check'.1 ≠ .error .tooManyIssues → ∃ answer, search = .ok answer) ∧
      (search = .ok false → ¬below ∧ ¬above) := by
  intro search check check' below above
  have hbelow : below ↔ ¬l.AcyclicFrom .subsets sup := h.toClosed.complained_subsets_iff hnamed hsup w hw
  obtain ⟨habove, hreported⟩ := h.toClosed.complained_supersets hnamed hsub w' hw'
  obtain ⟨result, hrun, -, hrefuted, hfault⟩ := h.supersedes_run hsup hsub
  have hsearch : search = result := congrArg Prod.fst hrun
  -- a failed search has met a pair again, and one side of that pair lies on a cycle
  have hcyclic : ∀ fault, search = .error fault →
      ¬l.AcyclicFrom .subsets sup ∨ ¬l.AcyclicFrom .supersets sub := by
    intro fault hr
    obtain ⟨q, -, hreach, hcycle⟩ := hfault fault (hsearch.symm.trans hr)
    obtain ⟨hdown, hup⟩ := Lattice.pairReaches_iff.mp hreach
    rcases Lattice.onCycle_of_pair hcycle with hfirst | hsecond
    · exact .inl fun hacyclic => hacyclic _ hdown hfirst
    · exact .inr fun hacyclic => hacyclic _ hup hsecond
  refine ⟨?_, ?_, ?_⟩
  · rintro ⟨a, b, hr⟩
    rcases hcyclic _ hr with hdown | hup
    · exact .inl (hbelow.mpr hdown)
    · exact .inr (hreported hup)
  · intro hnone hnone' hends
    rcases hanswer : search with fault | answer
    · rcases hcyclic fault hanswer with hdown | hup
      · exact (hnone (hbelow.mpr hdown)).elim
      · exact ((hreported hup).elim hnone' hends).elim
    · exact ⟨answer, rfl⟩
  · intro hr
    obtain ⟨hdown, hup⟩ := Lattice.acyclicFrom_of_acc (hrefuted (hsearch.symm.trans hr)).1
    exact ⟨fun hcomplained => hbelow.mp hcomplained hdown, fun hcomplained => habove hcomplained hup⟩

theorem search_agrees_with_checks_ring :
    let w : Workbench := ⟨ringLattice, .new false (some 10), ⟨"", ""⟩, [], []⟩
    let check := Work.checkLattice (.type (.sample 0 "even")) w
    let check' := Work.checkLattice (.type (.sample 1 "odd")) w
    Settled ringLattice [.sample 0 "even", .sample 1 "odd", .sample 2 "small"] ∧
      (Build.supersedes (.type (.sample 0 "even")) (.type (.sample 1 "odd")) ringLattice).1 =
        .error (.cyclicLattice (.type (.sample 0 "even")) (.type (.sample 1 "odd"))) ∧
      check'.1 = .ok () ∧
      (w.report.Complained .subsets check.2.report ∨ w.report.Complained .supersets check'.2.report) ∧
      (Build.supersedes (.type (.sample 1 "odd")) (.type (.sample 0 "even")) ringLattice).1 = .ok false ∧
      ¬w.report.Complained .supersets check.2.report := by
  intro w check check'
  have hsearch : (Build.supersedes (.type (.sample 0 "even")) (.type (.sample 1 "odd")) ringLattice).1 =
      .error (.cyclicLattice (.type (.sample 0 "even")) (.type (.sample 1 "odd"))) := rfl
  have hrefuted : (Build.supersedes (.type (.sample 1 "odd")) (.type (.sample 0 "even")) ringLattice).1 =
      .ok false := rfl
  have hends : check'.1 = .ok () := rfl
  have hnamed : ∀ t ∈ [Ty.sample 0 "even", .sample 1 "odd", .sample 2 "small"],
      ∃ name, t.name = .ok name := by
    intro t ht
    simp only [List.mem_cons, List.not_mem_nil, or_false] at ht
    rcases ht with rfl | rfl | rfl <;> exact ⟨_, rfl⟩
  have hagree := ringLattice_settled.search_agrees_with_checks hnamed (.sample 0 "even") (.sample 1 "odd")
    (by simp) (by simp) w w rfl rfl
  have hagree' := ringLattice_settled.search_agrees_with_checks hnamed (.sample 1 "odd") (.sample 0 "even")
    (by simp) (by simp) w w rfl rfl
  refine ⟨ringLattice_settled, hsearch, hends, ?_, hrefuted, (hagree'.2.2 hrefuted).2⟩
  rcases hagree.1 ⟨_, _, hsearch⟩ with hbelow | habove | hcapped
  · exact .inl hbelow
  · exact .inr habove
  · rw [show (Work.checkLattice (.type (.sample 1 "odd")) w).1 = .ok () from hends] at hcapped
    cases hcapped

def crowdedName : Nat → String
  | 0 => "even"
  | 1 => "odd"
  | _ => "small"

def crowdedType (id : Nat) : Ty := .sample id (crowdedName id)

/-- One type contains ten others and lies within itself. Each of the ten contains itself. -/
def crowdedEdges : Direction → Nat → List Nat
  | .subsets, 0 => []
  | .subsets, 1 => List.range' 2 10
  | .subsets, id => [id]
  | .supersets, 1 => [1]
  | .supersets, _ => []

def crowdedTypes : List Ty := (List.range 12).map crowdedType

def crowdedLattice : Lattice :=
  let edges := fun d id => some (((crowdedEdges d id).map crowdedType).map Referent.type)
  ⟨((List.range 12).map fun id => ⟨edges .subsets id, edges .supersets id⟩).toArray, 12⟩

lemma crowdedLattice_settled : Settled crowdedLattice crowdedTypes where
  unique := by
    intro t ht u hu hid
    obtain ⟨i, -, rfl⟩ := List.mem_map.mp ht
    obtain ⟨j, -, rfl⟩ := List.mem_map.mp hu
    exact congrArg crowdedType hid
  proper := by
    intro t ht
    obtain ⟨i, -, rfl⟩ := List.mem_map.mp ht
    exact .predicate _ _
  stored := by
    intro t ht d
    obtain ⟨i, hi, rfl⟩ := List.mem_map.mp ht
    have hedges : ∀ i ∈ List.range 12, crowdedEdges d i ⊆ List.range 12 := by
      cases d <;> decide
    refine ⟨(crowdedEdges d i).map crowdedType, ?_, List.map_subset crowdedType (hedges i hi)⟩
    rw [show (crowdedType i).id = i from rfl]
    rw [List.mem_range] at hi
    cases d <;> simp [Lattice.stored?, crowdedLattice, hi, Edges.get?]

/-- Ten cycles among the subsets reach the cap, and the one among the supersets is never got to. -/
theorem crowded_check_cut_short :
    let w : Workbench := ⟨crowdedLattice, .new false (some 10), ⟨"", ""⟩, [], []⟩
    let check := Work.checkLattice (.type (crowdedType 0)) w
    let check' := Work.checkLattice (.type (crowdedType 1)) w
    Settled crowdedLattice crowdedTypes ∧ (∀ t ∈ crowdedTypes, ∃ name, t.name = .ok name) ∧
      (Build.supersedes (.type (crowdedType 0)) (.type (crowdedType 1)) crowdedLattice).1 =
        .error (.cyclicLattice (.type (crowdedType 0)) (.type (crowdedType 1))) ∧
      ¬w.report.Complained .subsets check.2.report ∧ check'.1 = .error .tooManyIssues ∧
      ¬w.report.Complained .supersets check'.2.report := by
  intro w check check'
  have hsilent : w.report.since check.2.report = [] := rfl
  have hbelow : ∀ k ∈ w.report.since check'.2.report, k.intro ≠
      "These types form a cycle through their supersets. The lattice must be acyclic." := by decide +kernel
  refine ⟨crowdedLattice_settled, ?_, rfl, ?_, rfl, ?_⟩
  · intro t ht
    obtain ⟨i, -, rfl⟩ := List.mem_map.mp ht
    exact ⟨_, rfl⟩
  · rintro ⟨k, hk, -⟩
    rw [hsilent] at hk
    cases hk
  · rintro ⟨k, hk, hconcerns⟩
    exact hbelow k hk hconcerns.intro_eq

end StructuralTypes
