import StructuralTypes.Proofs.Exploration
import StructuralTypes.Proofs.StronglyConnected

/-!
# The cycles that a check complains about

A check of a lattice adds one complaint for each strongly connected component that has a cycle, first
among what the subsets of a type lead to and then among what its supersets lead to, and no other.
-/

namespace StructuralTypes

open Relation

namespace Lattice

/-- A strongly connected component of what a type leads to. -/
structure IsComponent (l : Lattice) (d : Direction) (root : Ty) (c : List Ty) : Prop where
  nonempty : c ≠ []
  nodup : c.Nodup
  reached : ∀ t ∈ c, l.Reaches d root t
  mem_iff : ∀ t ∈ c, ∀ u, u ∈ c ↔ l.Reaches d t u ∧ l.Reaches d u t

/-- A component has a cycle if it has two members or more, or one that leads to itself. -/
def HasCycle (l : Lattice) (d : Direction) (c : List Ty) : Prop :=
  2 ≤ c.length ∨ ∃ t, c = [t] ∧ l.Edge d t t

/-- Lists all components that have a cycle, each one once. -/
structure ListsCycles (l : Lattice) (d : Direction) (root : Ty) (cycles : List (List Ty)) : Prop where
  sound : ∀ c ∈ cycles, l.IsComponent d root c ∧ l.HasCycle d c
  complete : ∀ c, l.IsComponent d root c → l.HasCycle d c → ∃ c' ∈ cycles, c'.Perm c
  once : cycles.Pairwise List.Disjoint

/-- The edges of one kind are stored for everything that a type leads to over them. -/
def WorkedOut (l : Lattice) (d : Direction) (root : Ty) : Prop :=
  ∀ t, l.Reaches d root t → ∃ rs, l.stored? d t.id = some rs

namespace WorkedOut

variable {l l' : Lattice} {d : Direction} {root t u : Ty} {c : List Ty}

lemma edge_iff (h : l.WorkedOut d root) (hgrows : l.Grows l') (ht : l.Reaches d root t) :
    l'.Edge d t u ↔ l.Edge d t u := by
  refine ⟨?_, Edge.mono hgrows⟩
  rintro ⟨rs, hrs, hu⟩
  obtain ⟨rs', hrs'⟩ := h t ht
  rw [hgrows d t.id rs' hrs'] at hrs
  obtain rfl := Option.some.inj hrs
  exact ⟨_, hrs', hu⟩

lemma reaches_iff (h : l.WorkedOut d root) (hgrows : l.Grows l') (ht : l.Reaches d root t) :
    l'.Reaches d t u ↔ l.Reaches d t u := by
  refine ⟨fun hu => ?_, Reaches.mono hgrows⟩
  induction hu with
  | refl => exact .refl
  | tail _ hedge ih => exact ih.tail ((h.edge_iff hgrows (ht.trans ih)).mp hedge)

lemma mono (h : l.WorkedOut d root) (hgrows : l.Grows l') : l'.WorkedOut d root := by
  intro t ht
  obtain ⟨rs, hrs⟩ := h t ((h.reaches_iff hgrows .refl).mp ht)
  exact ⟨rs, hgrows d t.id rs hrs⟩

lemma isComponent_iff (h : l.WorkedOut d root) (hgrows : l.Grows l') :
    l'.IsComponent d root c ↔ l.IsComponent d root c := by
  have hroot : ∀ t, l'.Reaches d root t ↔ l.Reaches d root t := fun t => h.reaches_iff hgrows .refl
  have hpair : ∀ t, l.Reaches d root t → ∀ u,
      l'.Reaches d t u ∧ l'.Reaches d u t ↔ l.Reaches d t u ∧ l.Reaches d u t := by
    intro t ht u
    rw [h.reaches_iff hgrows ht]
    exact and_congr_right fun hu => h.reaches_iff hgrows (ht.trans hu)
  constructor
  · intro hc
    have hreached : ∀ t ∈ c, l.Reaches d root t := fun t ht => (hroot t).mp (hc.reached t ht)
    exact ⟨hc.nonempty, hc.nodup, hreached, fun t ht u => (hc.mem_iff t ht u).trans (hpair t (hreached t ht) u)⟩
  · intro hc
    exact ⟨hc.nonempty, hc.nodup, fun t ht => (hroot t).mpr (hc.reached t ht), fun t ht u =>
      (hc.mem_iff t ht u).trans (hpair t (hc.reached t ht) u).symm⟩

lemma hasCycle_iff (h : l.WorkedOut d root) (hgrows : l.Grows l') (hc : l.IsComponent d root c) :
    l'.HasCycle d c ↔ l.HasCycle d c := by
  refine or_congr_right (exists_congr fun t => and_congr_right ?_)
  rintro rfl
  exact h.edge_iff hgrows (hc.reached t (List.mem_singleton_self t))

/-- What is added to a lattice later on does not change the cycles of what is worked out. -/
lemma listsCycles (h : l.WorkedOut d root) (hgrows : l.Grows l') {cycles : List (List Ty)}
    (hcycles : l.ListsCycles d root cycles) : l'.ListsCycles d root cycles := by
  refine ⟨fun c hc => ?_, fun c hc hcycle => ?_, hcycles.once⟩
  · obtain ⟨hcomponent, hcycle⟩ := hcycles.sound c hc
    exact ⟨(h.isComponent_iff hgrows).mpr hcomponent, (h.hasCycle_iff hgrows hcomponent).mpr hcycle⟩
  · have hcomponent := (h.isComponent_iff hgrows).mp hc
    exact hcycles.complete c hcomponent ((h.hasCycle_iff hgrows hcomponent).mp hcycle)

end WorkedOut

end Lattice

/-- The node with number `q` of a reach. -/
def Reach.At (g : Reach) (q : Nat) (t : Ty) : Prop := ∃ rs, g[q]? = some (.type t, rs)

section Numbers

variable {l : Lattice} {ns : List Ty} {d : Direction} {root : Ty} {g : Reach}

lemma ValidReach.getElem? (h : ValidReach l ns d g) {q : Nat} (hq : q < g.length) :
    ∃ t us, g[q]? = some (.type t, us.map .type) ∧ t ∈ ns ∧ us ⊆ ns ∧
      l.stored? d t.id = some (us.map .type) := by
  obtain ⟨t, us, he, ht, hus, hstored⟩ := h.entry g[q] (List.getElem_mem hq)
  exact ⟨t, us, by rw [List.getElem?_eq_getElem hq, he], ht, hus, hstored⟩

lemma Reach.At.identity {q : Nat} {t : Ty} (h : g.At q t) : g.identities[q]? = some (.type t.id) := by
  obtain ⟨rs, hrs⟩ := h
  rw [Reach.identities, List.getElem?_map, hrs]
  rfl

lemma Reach.At.lt {q : Nat} {t : Ty} (h : g.At q t) : q < g.length := by
  obtain ⟨rs, hrs⟩ := h
  exact (List.getElem?_eq_some_iff.mp hrs).1

lemma Reach.At.idxOf (h : ValidReach l ns d g) {q : Nat} {t : Ty} (hq : g.At q t) :
    g.identities.idxOf (.type t.id) = q := by
  obtain ⟨hlt, heq⟩ := List.getElem?_eq_some_iff.mp hq.identity
  rw [← heq]
  exact h.nodup.idxOf_getElem q hlt

lemma Reach.At.unique {q : Nat} {t u : Ty} (ht : g.At q t) (hu : g.At q u) : t = u := by
  obtain ⟨rs, hrs⟩ := ht
  obtain ⟨rs', hrs'⟩ := hu
  rw [hrs] at hrs'
  exact Referent.type.inj (Prod.mk.inj (Option.some.inj hrs')).1

variable (hunique : ∀ t ∈ ns, ∀ u ∈ ns, t.id = u.id → t = u)

include hunique

lemma ValidReach.exists_at (h : ValidReach l ns d g) {u : Ty} (hu : u ∈ ns) (hmem : .type u.id ∈ g.identities) :
    ∃ q, g.At q u := by
  obtain ⟨⟨r, rs⟩, he, hr⟩ := List.mem_map.mp hmem
  obtain ⟨t, us, heq, ht, -⟩ := h.entry _ he
  obtain ⟨hrt, -⟩ := Prod.mk.inj heq
  subst hrt
  obtain rfl := hunique t ht u hu (Identity.type.inj hr)
  obtain ⟨q, hq⟩ := List.mem_iff_getElem?.mp he
  exact ⟨q, rs, hq⟩

lemma CompleteReach.mem_successors (h : CompleteReach l ns d root g) {q r : Nat} {t : Ty} (hq : g.At q t) :
    r ∈ g.successors q ↔ ∃ u, g.At r u ∧ l.Edge d t u := by
  obtain ⟨t', us, hget, ht', hus, hstored⟩ := h.getElem? hq.lt
  obtain rfl := hq.unique ⟨_, hget⟩
  have hsucc : g.successors q = us.map fun u => g.identities.idxOf (.type u.id) := by
    rw [Reach.successors, List.getD_eq_getElem?_getD, hget]
    simp [Referent.identity]
  rw [hsucc, List.mem_map]
  constructor
  · rintro ⟨u, hu, rfl⟩
    have hmem : (Referent.type u).identity ∈ g.identities :=
      h.closed _ (List.mem_of_getElem? hget) _ (List.mem_map_of_mem hu)
    obtain ⟨p, hp⟩ := h.exists_at hunique (hus hu) hmem
    rw [hp.idxOf h.toValidReach]
    exact ⟨u, hp, (Lattice.edge_iff hstored).mpr hu⟩
  · rintro ⟨u, hr, hedge⟩
    exact ⟨u, (Lattice.edge_iff hstored).mp hedge, hr.idxOf h.toValidReach⟩

lemma CompleteReach.at_of_edge (h : CompleteReach l ns d root g)
    {q : Nat} {t u : Ty} (hq : g.At q t)
    (hedge : l.Edge d t u) : ∃ r, g.At r u ∧ r ∈ g.successors q := by
  obtain ⟨t', us, hget, -, hus, hstored⟩ := h.getElem? hq.lt
  obtain rfl := hq.unique ⟨_, hget⟩
  have hu : u ∈ us := (Lattice.edge_iff hstored).mp hedge
  obtain ⟨r, hr⟩ := h.exists_at hunique (hus hu)
    (h.closed _ (List.mem_of_getElem? hget) _ (List.mem_map_of_mem hu))
  exact ⟨r, hr, (h.mem_successors hunique hq).mpr ⟨u, hr, hedge⟩⟩

lemma CompleteReach.at_of_reaches (h : CompleteReach l ns d root g)
    {q : Nat} {t u : Ty} (hq : g.At q t)
    (hreach : l.Reaches d t u) : ∃ r, g.At r u ∧ Components.Reaches g.successors q r := by
  induction hreach with
  | refl => exact ⟨q, hq, .refl⟩
  | tail _ hedge ih =>
    obtain ⟨m, hm, hqm⟩ := ih
    obtain ⟨r, hr, hmr⟩ := h.at_of_edge hunique hm hedge
    exact ⟨r, hr, hqm.tail hmr⟩

lemma CompleteReach.reaches_of_numbers (h : CompleteReach l ns d root g)
    {q r : Nat} {t : Ty} (hq : g.At q t)
    (hreach : Components.Reaches g.successors q r) : ∃ u, g.At r u ∧ l.Reaches d t u := by
  induction hreach with
  | refl => exact ⟨t, hq, .refl⟩
  | tail _ hstep ih =>
    obtain ⟨m, hm, htm⟩ := ih
    obtain ⟨u, hu, hedge⟩ := (h.mem_successors hunique hm).mp hstep
    exact ⟨u, hu, htm.tail hedge⟩

/-- Nodes lead to each other exactly as their numbers do. -/
lemma CompleteReach.reaches_iff (h : CompleteReach l ns d root g)
    {q r : Nat} {t u : Ty} (hq : g.At q t)
    (hr : g.At r u) : Components.Reaches g.successors q r ↔ l.Reaches d t u := by
  constructor
  · intro hreach
    obtain ⟨v, hv, htv⟩ := h.reaches_of_numbers hunique hq hreach
    rw [hr.unique hv]
    exact htv
  · intro hreach
    obtain ⟨p, hp, hqp⟩ := h.at_of_reaches hunique hq hreach
    have hpr : p = r := by rw [← hp.idxOf h.toValidReach, hr.idxOf h.toValidReach]
    exact hpr ▸ hqp

lemma CompleteReach.successors_lt (h : CompleteReach l ns d root g) :
    ∀ q < g.length, ∀ r ∈ g.successors q, r < g.length := by
  intro q hq r hr
  obtain ⟨t, us, hget, -⟩ := h.getElem? hq
  obtain ⟨u, hu, -⟩ := (h.mem_successors hunique ⟨_, hget⟩).mp hr
  exact hu.lt

lemma CompleteReach.exists_at_of_reached (h : CompleteReach l ns d root g) (hroot : root ∈ ns) {t : Ty}
    (hreach : l.Reaches d root t) : ∃ q, g.At q t := by
  obtain ⟨q₀, hq₀⟩ := h.exists_at hunique hroot h.root_mem
  obtain ⟨q, hq, -⟩ := h.at_of_reaches hunique hq₀ hreach
  exact ⟨q, hq⟩

end Numbers

section Cycles

variable {l : Lattice} {ns : List Ty} {d : Direction} {root : Ty} {g : Reach}

/-- The node with a given number, as a type. -/
def Reach.node (g : Reach) (q : Nat) : Ty :=
  match (g.getD q default).1 with
  | .type t => t
  | .plain .. => default

/-- The components that have a cycle, as types. -/
def Reach.cyclicComponents (g : Reach) : List (List Ty) :=
  let cyclic := (Components.components g.length g.successors).filter fun c =>
    1 < c.length || c.any g.leadsToItself
  cyclic.map fun c => c.map g.node

lemma Reach.At.node_eq {q : Nat} {t : Ty} (h : g.At q t) : g.node q = t := by
  obtain ⟨rs, hrs⟩ := h
  rw [Reach.node, List.getD_eq_getElem?_getD, hrs]
  rfl

lemma ValidReach.at_node (h : ValidReach l ns d g) {q : Nat} (hq : q < g.length) : g.At q (g.node q) := by
  obtain ⟨t, us, hget, -⟩ := h.getElem? hq
  have ht : g.At q t := ⟨_, hget⟩
  rw [ht.node_eq]
  exact ht

lemma ValidReach.node_injOn (h : ValidReach l ns d g) {q r : Nat} (hq : q < g.length)
    (hr : r < g.length) (heq : g.node q = g.node r) : q = r := by
  rw [← (h.at_node hq).idxOf h, heq, (h.at_node hr).idxOf h]

lemma CompleteReach.node_reached (h : CompleteReach l ns d root g) {q : Nat} (hq : q < g.length) :
    l.Reaches d root (g.node q) := by
  obtain ⟨rs, hrs⟩ := h.at_node hq
  obtain ⟨u, hu, hreach⟩ := h.reached _ (List.mem_of_getElem? hrs)
  rw [Referent.type.inj hu]
  exact hreach

lemma Lattice.HasCycle.perm {c c' : List Ty} (h : l.HasCycle d c) (hperm : c.Perm c') :
    l.HasCycle d c' := by
  rcases h with hlen | ⟨t, rfl, hedge⟩
  · exact .inl (hperm.length_eq ▸ hlen)
  · exact .inr ⟨t, List.singleton_perm.mp hperm |>.symm, hedge⟩

lemma Lattice.IsComponent.perm {c c' : List Ty} (h : l.IsComponent d root c)
    (h' : l.IsComponent d root c') {t : Ty} (ht : t ∈ c) (ht' : t ∈ c') : c.Perm c' := by
  refine (List.perm_ext_iff_of_nodup h.nodup h'.nodup).mpr fun u => ?_
  rw [h.mem_iff t ht, h'.mem_iff t ht']

variable (hunique : ∀ t ∈ ns, ∀ u ∈ ns, t.id = u.id → t = u)

include hunique

lemma CompleteReach.component_lt (h : CompleteReach l ns d root g) {c : List Nat}
    (hc : c ∈ Components.components g.length g.successors) : ∀ q ∈ c, q < g.length := by
  obtain ⟨-, hmem, -⟩ := Components.components_partition (h.successors_lt hunique)
  intro q hq
  exact (hmem q).mp (List.mem_flatten.mpr ⟨c, hc, hq⟩)

/-- The components of the numbers are components of the nodes. -/
lemma CompleteReach.isComponent (h : CompleteReach l ns d root g) {c : List Nat}
    (hc : c ∈ Components.components g.length g.successors) :
    l.IsComponent d root (c.map g.node) := by
  obtain ⟨hnodup, -, hcomponent⟩ := Components.components_partition (h.successors_lt hunique)
  obtain ⟨hnonempty, hiff⟩ := hcomponent c hc
  have hlt := h.component_lt hunique hc
  refine ⟨by simpa using hnonempty, ?_, ?_, ?_⟩
  · refine List.Nodup.map_on ?_ ((List.nodup_flatten.mp hnodup).1 c hc)
    intro q hq r hr heq
    exact h.node_injOn (hlt q hq) (hlt r hr) heq
  · intro t ht
    obtain ⟨q, hq, rfl⟩ := List.mem_map.mp ht
    exact h.node_reached (hlt q hq)
  · intro t ht u
    obtain ⟨q, hq, rfl⟩ := List.mem_map.mp ht
    have hq' := h.at_node (hlt q hq)
    constructor
    · intro hu
      obtain ⟨r, hr, rfl⟩ := List.mem_map.mp hu
      have hr' := h.at_node (hlt r hr)
      obtain ⟨hqr, hrq⟩ := (hiff q hq r).mp hr
      exact ⟨(h.reaches_iff hunique hq' hr').mp hqr, (h.reaches_iff hunique hr' hq').mp hrq⟩
    · rintro ⟨htu, hut⟩
      obtain ⟨r, hr', hqr⟩ := h.at_of_reaches hunique hq' htu
      have hrq := (h.reaches_iff hunique hr' hq').mpr hut
      exact List.mem_map.mpr ⟨r, (hiff q hq r).mpr ⟨hqr, hrq⟩, hr'.node_eq⟩

lemma CompleteReach.leadsToItself_iff (h : CompleteReach l ns d root g) {q : Nat} (hq : q < g.length) :
    g.leadsToItself q = true ↔ l.Edge d (g.node q) (g.node q) := by
  rw [Reach.leadsToItself, List.contains_iff_mem, h.mem_successors hunique (h.at_node hq)]
  constructor
  · rintro ⟨u, hu, hedge⟩
    rw [hu.node_eq]
    rwa [hu.node_eq] at hedge
  · intro hedge
    exact ⟨_, h.at_node hq, hedge⟩

lemma CompleteReach.hasCycle_iff (h : CompleteReach l ns d root g) {c : List Nat} (hne : c ≠ [])
    (hlt : ∀ q ∈ c, q < g.length) :
    (1 < c.length || c.any g.leadsToItself) = true ↔ l.HasCycle d (c.map g.node) := by
  rw [Lattice.HasCycle, List.length_map, Bool.or_eq_true, decide_eq_true_iff]
  match c with
  | [] => exact (hne rfl).elim
  | [q] =>
    have hself := h.leadsToItself_iff hunique (hlt q List.mem_cons_self)
    simp [hself]
  | q :: r :: rest => simp

/-- The reach of a node yields each component with a cycle once. -/
lemma CompleteReach.listsCycles (h : CompleteReach l ns d root g) (hroot : root ∈ ns) :
    l.ListsCycles d root g.cyclicComponents := by
  obtain ⟨hnodup, hmem, hcomponent⟩ := Components.components_partition (h.successors_lt hunique)
  have hlt : ∀ c ∈ Components.components g.length g.successors, ∀ q ∈ c, q < g.length :=
    fun c hc => h.component_lt hunique hc
  refine ⟨?_, ?_, ?_⟩
  · intro c' hc'
    obtain ⟨c, hc, rfl⟩ := List.mem_map.mp hc'
    obtain ⟨hc, hcyclic⟩ := List.mem_filter.mp hc
    have hne := (hcomponent c hc).1
    exact ⟨h.isComponent hunique hc, (h.hasCycle_iff hunique hne (hlt c hc)).mp hcyclic⟩
  · intro c' hc' hcyclic
    -- components that share a member are the same up to order
    obtain ⟨t, ht⟩ := List.exists_mem_of_ne_nil c' hc'.nonempty
    obtain ⟨q, hq⟩ := h.exists_at_of_reached hunique hroot (hc'.reached t ht)
    obtain ⟨c, hc, hqc⟩ := List.mem_flatten.mp ((hmem q).mpr hq.lt)
    have htc : t ∈ c.map g.node := List.mem_map.mpr ⟨q, hqc, hq.node_eq⟩
    have hperm := (h.isComponent hunique hc).perm hc' htc ht
    have hcyclic' := (h.hasCycle_iff hunique (hcomponent c hc).1 (hlt c hc)).mpr
      (hcyclic.perm hperm.symm)
    exact ⟨_, List.mem_map.mpr ⟨c, List.mem_filter.mpr ⟨hc, hcyclic'⟩, rfl⟩, hperm⟩
  · refine List.pairwise_map.mpr (List.Pairwise.filter _ ?_)
    refine (List.nodup_flatten.mp hnodup).2.imp_of_mem fun {c c'} hc hc' hdisjoint => ?_
    rintro t ht ht'
    obtain ⟨q, hq, rfl⟩ := List.mem_map.mp ht
    obtain ⟨r, hr, heq⟩ := List.mem_map.mp ht'
    obtain rfl := h.node_injOn (hlt c' hc' r hr) (hlt c hc q hq) heq
    exact hdisjoint hq hr

lemma CompleteReach.cycles_eq (h : CompleteReach l ns d root g) :
    g.cycles = g.cyclicComponents.map fun c => c.map Referent.type := by
  rw [Reach.cycles, Reach.cyclicComponents, List.map_map]
  refine List.map_congr_left fun c hc => ?_
  rw [Function.comp_apply, List.map_map]
  refine List.map_congr_left fun q hq => ?_
  have hlt : q < g.length := h.component_lt hunique (List.mem_filter.mp hc).1 q hq
  obtain ⟨rs, hrs⟩ := h.at_node hlt
  rw [List.getD_eq_getElem?_getD, hrs]
  rfl

end Cycles

/-- As many complaints as given can be added without reaching the cap. -/
def Report.HasRoom (r : Report) (count : Nat) : Prop :=
  ∀ cap, r.cap? = some cap → cap ≤ r.issues.length ∨ (r.issues.length + count : Int) < cap

/-- The report with further complaints. -/
def Report.addAll (r : Report) (complaints : List Complaint) : Report :=
  { r with issues := r.issues ++ complaints }

/-- The complaints about cycles through edges of one kind, one for each cycle and in their order. -/
def Complaint.About (d : Direction) (cycles : List (List Ty)) (complaints : List Complaint) : Prop :=
  List.Forall₂ (fun c k => Complaint.cyclicLattice d.text (c.map .type) = .ok k) cycles complaints

lemma Report.addAll_addAll (r : Report) (ks ks' : List Complaint) :
    (r.addAll ks).addAll ks' = r.addAll (ks ++ ks') := by
  simp only [addAll, List.append_assoc]

lemma Report.HasRoom.isFull_add {r : Report} {n : Nat} (h : r.HasRoom (n + 1)) (k : Complaint) :
    (r.add k).isFull = false := by
  simp only [isFull, add, List.length_append, List.length_singleton, decide_eq_false_iff_not]
  intro hcap
  have := h _ hcap
  omega

lemma Report.HasRoom.add {r : Report} {n : Nat} (h : r.HasRoom (n + 1)) (k : Complaint) :
    (r.add k).HasRoom n := by
  intro cap hcap
  have := h cap hcap
  simp only [Report.add, List.length_append, List.length_singleton]
  omega

lemma Report.HasRoom.addAll {r : Report} {ks : List Complaint} {n : Nat}
    (h : r.HasRoom (ks.length + n)) : (r.addAll ks).HasRoom n := by
  intro cap hcap
  have := h cap hcap
  simp only [Report.addAll, List.length_append]
  omega

namespace Work

lemma complain_of_room {w : Workbench} {n : Nat} (h : w.report.HasRoom (n + 1)) (k : Complaint) :
    complain k w = (.ok (), { w with report := w.report.add k }) := by
  unfold complain
  rw [get_bind]
  simp only [h.isFull_add k]
  rfl

lemma forM_complain {d : Direction} {cycles : List (List Ty)} {ks : List Complaint}
    (hks : Complaint.About d cycles ks) {w : Workbench} (hroom : w.report.HasRoom ks.length) :
    ((cycles.map (·.map Referent.type)).forM fun cycle => do
      complain (← ofAttempt (Complaint.cyclicLattice d.text cycle)) : Work Unit) w =
      (.ok (), { w with report := w.report.addAll ks }) := by
  induction hks generalizing w with
  | nil => simp [Report.addAll, pure_apply]
  | @cons c k cycles ks hk _ ih =>
    have hstep : (do complain (← ofAttempt (Complaint.cyclicLattice d.text (c.map .type))) : Work Unit) w =
        (.ok (), { w with report := w.report.add k }) := by
      rw [hk]
      exact complain_of_room hroom k
    have hrest := ih (w := { w with report := w.report.add k }) (hroom.add k)
    rw [List.map_cons]
    unfold List.forM
    rw [bind_of_ok hstep, hrest]
    simp [Report.add, Report.addAll]

lemma inform_apply (line : String) (w : Workbench) :
    ∃ console, inform line w = (.ok (), { w with console }) := by
  unfold inform
  rw [get_bind]
  by_cases h : w.report.verbose
  · simp only [h, if_true]
    exact ⟨_, rfl⟩
  · simp only [h]
    exact ⟨w.console, rfl⟩

lemma checkDirection_of_reach {d : Direction} {root : Ty} {shown : String} {g : Reach} {l' : Lattice}
    {cycles : List (List Ty)} {ks : List Complaint} {w : Workbench}
    (hreach : Build.reachable d (.type root) w.lattice = (.ok g, l'))
    (hname : root.name = .ok shown) (hcycles : g.cycles = cycles.map (·.map .type))
    (hks : Complaint.About d cycles ks) (hroom : w.report.HasRoom ks.length) :
    ∃ console, checkDirection (.type root) d w =
      (.ok (), { w with lattice := l', report := w.report.addAll ks, console }) := by
  have hbuild : ofBuild (Build.reachable d (.type root)) w = (.ok g, { w with lattice := l' }) := by
    unfold ofBuild
    rw [hreach]
  have hshown : ofAttempt (Referent.type root).display { w with lattice := l' } =
      (.ok shown, { w with lattice := l' }) := by
    unfold ofAttempt
    rw [Referent.display, hname]
  unfold checkDirection
  rw [bind_of_ok hbuild, bind_of_ok hshown]
  obtain ⟨console, hinform⟩ := inform_apply ("Checking " ++ toString g.length ++
    " type(s) reachable through " ++ d.text ++ " from " ++ shown) { w with lattice := l' }
  rw [bind_of_ok hinform, hcycles]
  exact ⟨console, forM_complain hks hroom⟩

end Work

section Check

variable {l : Lattice} {nodes : List Ty} {root : Ty}

lemma exists_complaints (d : Direction) {cycles : List (List Ty)}
    (h : ∀ c ∈ cycles, ∀ t ∈ c, ∃ name, t.name = .ok name) :
    ∃ ks, Complaint.About d cycles ks := by
  induction cycles with
  | nil => exact ⟨[], .nil⟩
  | cons c cycles ih =>
    obtain ⟨ks, hks⟩ := ih fun c' hc' => h c' (List.mem_cons_of_mem c hc')
    have hdisplay : ∀ r ∈ c.map Referent.type, ∃ shown, r.display = .ok shown := by
      intro r hr
      obtain ⟨t, ht, rfl⟩ := List.mem_map.mp hr
      exact h c List.mem_cons_self t ht
    obtain ⟨shown, hshown⟩ := mapM_answers hdisplay
    have hk : ∃ k, Complaint.cyclicLattice d.text (c.map .type) = .ok k := by
      rw [Complaint.cyclicLattice, hshown]
      exact ⟨_, rfl⟩
    obtain ⟨k, hk⟩ := hk
    exact ⟨k :: ks, .cons hk hks⟩

end Check

end StructuralTypes
