import StructuralTypes.Proofs.UnlimitedDepth
import StructuralTypes.Proofs.Walks

/-!
# What an exploration comes to

Exploring from a node lists everything that it leads to, each node once and with the edges that are
stored for it. The nodes added last are those that the current one leads to, and all that their
edges lead to is listed by the time the exploration returns.
-/

namespace StructuralTypes

open Relation

/-- The reach lists nodes with their stored edges, each node once. -/
structure ValidReach (l : Lattice) (ns : List Ty) (d : Direction) (g : Reach) : Prop where
  nodup : g.identities.Nodup
  entry : ∀ e ∈ g, ∃ t us, e = (.type t, us.map .type) ∧ t ∈ ns ∧ us ⊆ ns ∧
    l.stored? d t.id = some (us.map .type)

/-- The outcome of exploring from the nodes `ts`, one after the other, with the reach `g` so far. -/
structure Explored (W : Lattice → List Ty → Prop) (d : Direction) (n : Nat) (ns : List Ty)
    (l : Lattice) (seen : List Identity) (g : Reach) (ts : List Ty) (ns' : List Ty)
    (result : Attempt Reach) (l' : Lattice) : Prop where
  inside : W l' ns'
  subset : ns ⊆ ns'
  grows : l.Grows l'
  validReach : ∀ g', result = .ok g' → ∃ new, g' = g ++ new ∧ ValidReach l' ns' d g' ∧
    (∀ t ∈ ts, .type t.id ∈ g'.identities) ∧
    ∀ e ∈ new, (∃ t ∈ ts, ∃ u, e.1 = .type u ∧ l'.Reaches d t u) ∧
      ∀ r ∈ e.2, r.identity ∈ g'.identities
  fault : ∀ f, result = .error f → EdgeFault d W f ∨ f = .tooDeep ∧ ∃ t ∈ ts,
    Descent (l'.Edge d) (· ∈ ns') (fun t => Identity.type t.id) seen n t

/-- Explorations to depth `n` come to what they should. -/
def Explores (W : Lattice → List Ty → Prop) (d : Direction) (n : Nat) : Prop :=
  ∀ ns l seen g t, W l ns → t ∈ ns → ValidReach l ns d g → seen ⊆ g.identities →
    ∃ ns', Explored W d n ns l seen g [t] ns' (Build.explore d n g (.type t) l).1
      (Build.explore d n g (.type t) l).2

lemma ValidReach.mono {l l' : Lattice} {ns ns' : List Ty} (hl : l.Grows l') (hns : ns ⊆ ns')
    {d : Direction} {g : Reach} (h : ValidReach l ns d g) : ValidReach l' ns' d g := by
  refine ⟨h.nodup, ?_⟩
  intro e he
  obtain ⟨t, us, rfl, ht, hus, hstored⟩ := h.entry e he
  exact ⟨t, us, rfl, hns ht, fun u hu => hns (hus hu), hl _ _ _ hstored⟩

lemma identities_append (g g' : Reach) :
    Reach.identities (g ++ g') = g.identities ++ g'.identities := List.map_append

lemma ValidReach.snoc {l : Lattice} {ns : List Ty} {d : Direction} {g : Reach} (h : ValidReach l ns d g)
    {t : Ty} {us : List Ty} (hnew : .type t.id ∉ g.identities) (ht : t ∈ ns) (hus : us ⊆ ns)
    (hstored : l.stored? d t.id = some (us.map .type)) :
    ValidReach l ns d (g ++ [(.type t, us.map .type)]) := by
  constructor
  · rw [identities_append]
    refine List.nodup_append.mpr ⟨h.nodup, List.nodup_singleton _, ?_⟩
    intro i hi j hj hij
    obtain rfl : j = .type t.id := List.mem_singleton.mp hj
    exact hnew (hij ▸ hi)
  · intro e he
    rcases List.mem_append.mp he with he | he
    · exact h.entry e he
    · rw [List.mem_singleton.mp he]
      exact ⟨t, us, rfl, ht, hus, hstored⟩

section Fold

variable {W : Lattice → List Ty → Prop} {d : Direction} {n : Nat} {ns ns₁ ns₂ : List Ty}
  {l l₁ l₂ : Lattice} {seen : List Identity} {g g₁ : Reach} {t : Ty} {ts : List Ty}
  {result : Attempt Reach}

lemma Explored.cons (h : Explored W d n ns l seen g [t] ns₁ (.ok g₁) l₁)
    (h' : Explored W d n ns₁ l₁ seen g₁ ts ns₂ result l₂) :
    Explored W d n ns l seen g (t :: ts) ns₂ result l₂ := by
  obtain ⟨new, rfl, -, ht, hnew⟩ := h.validReach g₁ rfl
  refine ⟨h'.inside, fun u hu => h'.subset (h.subset hu), h.grows.trans h'.grows, ?_, ?_⟩
  · intro g' hr
    obtain ⟨new', rfl, hvalid, hts, hnew'⟩ := h'.validReach g' hr
    have hkeep : ∀ i ∈ Reach.identities (g ++ new), i ∈ Reach.identities (g ++ new ++ new') := by
      intro i hi
      rw [identities_append (g ++ new)]
      exact List.mem_append_left _ hi
    refine ⟨new ++ new', List.append_assoc .., hvalid, ?_, ?_⟩
    · intro u hu
      rcases List.mem_cons.mp hu with rfl | hu
      · exact hkeep _ (ht u (List.mem_singleton_self u))
      · exact hts u hu
    · intro e he
      rcases List.mem_append.mp he with he | he
      · obtain ⟨⟨u, hu, v, hv, hreach⟩, hedges⟩ := hnew e he
        rw [List.mem_singleton.mp hu] at hreach
        refine ⟨⟨t, List.mem_cons_self, v, hv, ?_⟩, fun r hr => hkeep _ (hedges r hr)⟩
        exact Lattice.Reaches.mono h'.grows hreach
      · obtain ⟨⟨u, hu, hreach⟩, hedges⟩ := hnew' e he
        exact ⟨⟨u, List.mem_cons_of_mem _ hu, hreach⟩, hedges⟩
  · intro f hf
    rcases h'.fault f hf with hedge | ⟨rfl, u, hu, hdescent⟩
    · exact .inl hedge
    · exact .inr ⟨rfl, u, List.mem_cons_of_mem _ hu, hdescent⟩

lemma explored_foldlM (hn : Explores W d n) (ts : List Ty) (ns : List Ty) (l : Lattice) (g : Reach)
    (hW : W l ns) (hts : ts ⊆ ns) (hg : ValidReach l ns d g) (hseen : seen ⊆ g.identities) :
    ∃ ns', Explored W d n ns l seen g ts ns'
      ((ts.map Referent.type).foldlM (Build.explore d n) g l).1
      ((ts.map Referent.type).foldlM (Build.explore d n) g l).2 := by
  induction ts generalizing ns l g with
  | nil =>
    refine ⟨ns, hW, fun _ h => h, .refl _, ?_, (fun _ h => nomatch h)⟩
    intro g' hr
    obtain rfl : g = g' := Except.ok.inj hr
    exact ⟨[], by simp, hg, by simp, by simp⟩
  | cons t ts ih =>
    obtain ⟨ns₁, h₁⟩ := hn ns l seen g t hW (hts List.mem_cons_self) hg hseen
    rw [List.map_cons, List.foldlM_cons]
    rcases hrun : Build.explore d n g (.type t) l with ⟨fault | g₁, l₁⟩
    · rw [bind_of_error hrun]
      rw [hrun] at h₁
      refine ⟨ns₁, h₁.inside, h₁.subset, h₁.grows, (fun _ h => nomatch h), ?_⟩
      intro f hf
      rcases h₁.fault f hf with hedge | ⟨rfl, u, hu, hdescent⟩
      · exact .inl hedge
      · rw [List.mem_singleton.mp hu] at hdescent
        exact .inr ⟨rfl, t, List.mem_cons_self, hdescent⟩
    · rw [bind_of_ok hrun]
      rw [hrun] at h₁
      obtain ⟨new, hnew, hvalid, -, -⟩ := h₁.validReach g₁ rfl
      have hseen₁ : seen ⊆ g₁.identities := by
        intro i hi
        rw [hnew, identities_append]
        exact List.mem_append_left _ (hseen hi)
      obtain ⟨ns₂, h₂⟩ := ih ns₁ l₁ g₁ h₁.inside
        (fun u hu => h₁.subset (hts (List.mem_cons_of_mem _ hu))) hvalid hseen₁
      exact ⟨ns₂, h₁.cons h₂⟩

end Fold

lemma explore_succ (d : Direction) (n : Nat) (g : Reach) (t : Ty) (l : Lattice) :
    Build.explore d (n + 1) g (.type t) l =
      if g.identities.contains (.type t.id) then (.ok g, l)
      else match t.edges d l with
        | (.ok rs, l') => rs.reverse.foldlM (Build.explore d n) (g ++ [(.type t, rs)]) l'
        | (.error fault, l') => (.error fault, l') := by
  have hhash : Build.ofAttempt (Referent.type t).checkHashable l = (.ok (), l) := rfl
  rw [Build.explore, bind_of_ok hhash]
  have hid : (Referent.type t).identity = .type t.id := rfl
  rw [hid]
  by_cases hmem : g.identities.contains (.type t.id) = true
  · rw [if_pos hmem, if_pos hmem]
    rfl
  · rw [if_neg hmem, if_neg hmem, bind_apply]
    have hedges : Referent.edges d (.type t) l = t.edges d l := rfl
    rw [hedges]
    rcases t.edges d l with ⟨_ | _, _⟩ <;> rfl

theorem explore_explores {W : Lattice → List Ty → Prop} {d : Direction} (hWalk : Explorable d W) (n : Nat) :
    Explores W d n := by
  induction n with
  | zero =>
    rintro ns l seen g t hW - - -
    refine ⟨ns, hW, fun _ h => h, .refl _, (fun _ h => nomatch h), ?_⟩
    intro f hf
    obtain rfl : Fault.tooDeep = f := Except.error.inj hf
    exact .inr ⟨rfl, t, List.mem_singleton_self t, .stop _ _⟩
  | succ n ih =>
    intro ns l seen g t hW ht hg hseen
    rw [explore_succ]
    by_cases hmem : g.identities.contains (.type t.id) = true
    · rw [if_pos hmem]
      refine ⟨ns, hW, fun _ h => h, .refl _, ?_, (fun _ h => nomatch h)⟩
      intro g' hr
      obtain rfl : g = g' := Except.ok.inj hr
      refine ⟨[], by simp, hg, ?_, by simp⟩
      intro u hu
      rw [List.mem_singleton.mp hu]
      exact List.contains_iff_mem.mp hmem
    · have hnew : .type t.id ∉ g.identities := fun h => hmem (List.contains_iff_mem.mpr h)
      rw [if_neg hmem]
      obtain ⟨ns₁, hW₁, hsub₁, hgrows₁, hedges⟩ := hWalk.edges hW ht
      rcases hrun : t.edges d l with ⟨fault | rs, l₁⟩
      · rw [hrun] at hW₁ hgrows₁
        refine ⟨ns₁, hW₁, hsub₁, hgrows₁, (fun _ h => nomatch h), ?_⟩
        intro f hf
        obtain rfl : fault = f := Except.error.inj hf
        exact .inl ⟨l, ns, t, hW, ht, by rw [hrun]⟩
      · simp only [hrun] at hW₁ hgrows₁ hedges
        obtain ⟨hstored, us, rfl, hus⟩ := hedges rs rfl
        have hg₁ := (hg.mono hgrows₁ hsub₁).snoc hnew (hsub₁ ht) hus hstored
        -- `t` is listed before its edges are explored, so the walk from there never repeats it
        have hseen₁ : Identity.type t.id :: seen ⊆
            Reach.identities (g ++ [(.type t, us.map .type)]) := by
          intro i hi
          rw [identities_append]
          rcases List.mem_cons.mp hi with rfl | hi
          · exact List.mem_append_right _ (List.mem_singleton_self _)
          · exact List.mem_append_left _ (hseen hi)
        obtain ⟨ns', h⟩ := explored_foldlM ih us.reverse ns₁ l₁ _ hW₁
          (fun u hu => hus (List.mem_reverse.mp hu)) hg₁ hseen₁
        rw [List.map_reverse] at h
        refine ⟨ns', h.inside, fun u hu => h.subset (hsub₁ hu), hgrows₁.trans h.grows, ?_, ?_⟩
        · intro g' hr
          obtain ⟨new, rfl, hvalid, hall, hnew'⟩ := h.validReach g' hr
          refine ⟨(.type t, us.map .type) :: new, by simp, hvalid, ?_, ?_⟩
          · intro u hu
            rw [List.mem_singleton.mp hu, identities_append, identities_append]
            exact List.mem_append_left _ (List.mem_append_right _ (List.mem_singleton_self _))
          · intro e he
            rcases List.mem_cons.mp he with rfl | he
            · refine ⟨⟨t, List.mem_singleton_self t, t, rfl, .refl⟩, ?_⟩
              intro r hr
              obtain ⟨u, hu, rfl⟩ := List.mem_map.mp hr
              exact hall u (List.mem_reverse.mpr hu)
            · obtain ⟨⟨u, hu, v, hv, hreach⟩, hedges⟩ := hnew' e he
              have hedge : l₁.Edge d t u := (Lattice.edge_iff hstored).mpr (List.mem_reverse.mp hu)
              exact ⟨⟨t, List.mem_singleton_self t, v, hv, hreach.head (hedge.mono h.grows)⟩, hedges⟩
        · intro f hf
          rcases h.fault f hf with hedge | ⟨rfl, u, hu, hdescent⟩
          · exact .inl hedge
          · have hedge : l₁.Edge d t u := (Lattice.edge_iff hstored).mpr (List.mem_reverse.mp hu)
            refine .inr ⟨rfl, t, List.mem_singleton_self t, ?_⟩
            exact .step (fun hi => hnew (hseen hi)) (h.subset (hsub₁ ht)) (hedge.mono h.grows) hdescent

/-- The reach lists everything that a node leads to. -/
structure CompleteReach (l : Lattice) (ns : List Ty) (d : Direction) (root : Ty) (g : Reach) : Prop
    extends ValidReach l ns d g where
  root_mem : .type root.id ∈ g.identities
  reached : ∀ e ∈ g, ∃ u, e.1 = .type u ∧ l.Reaches d root u
  closed : ∀ e ∈ g, ∀ r ∈ e.2, r.identity ∈ g.identities

/-- What looking for everything that a node leads to comes to, in any family of lattices that can
be walked through. If it goes too deep, there are walks of any length without a repetition. -/
theorem reachable_outcome {W : Lattice → List Ty → Prop} {d : Direction} (hWalk : Explorable d W)
    {l : Lattice} {ns : List Ty} (hW : W l ns) {root : Ty} (hroot : root ∈ ns) :
    let run := Build.reachable d (.type root) l
    ∃ ns', W run.2 ns' ∧ ns ⊆ ns' ∧ l.Grows run.2 ∧
      (∀ g, run.1 = .ok g → CompleteReach run.2 ns' d root g) ∧
      ∀ f, run.1 = .error f → EdgeFault d W f ∨ f = .tooDeep ∧ ∀ n, ∃ l' ns', W l' ns' ∧
        Descent (l'.Edge d) (· ∈ ns') (fun t => Identity.type t.id) [] n root := by
  intro run
  have hexplore := fun n => explore_explores hWalk n ns l [] [] root hW hroot ⟨List.nodup_nil, by simp⟩
    (List.nil_subset _)
  rcases Build.unlimited_cases (fun depth => Build.explore d depth [] (.type root)) l with ⟨n, hrun, hn⟩ | hrun
  · have hrun : run = Build.explore d n [] (.type root) l := hrun
    obtain ⟨ns', h⟩ := hexplore n
    rw [hrun]
    refine ⟨ns', h.inside, h.subset, h.grows, ?_, ?_⟩
    · intro g hr
      obtain ⟨new, rfl, hvalid, hroot', hnew⟩ := h.validReach g hr
      refine ⟨hvalid, hroot' root (List.mem_singleton_self root), ?_, fun e he => (hnew e he).2⟩
      intro e he
      obtain ⟨⟨t, ht, u, hu, hreach⟩, -⟩ := hnew e he
      rw [List.mem_singleton.mp ht] at hreach
      exact ⟨u, hu, hreach⟩
    · intro f hf
      rcases h.fault f hf with hedge | ⟨rfl, -⟩
      · exact .inl hedge
      · exact absurd hf hn
  · have hrun : run = (.error .tooDeep, l) := hrun
    have hdeep := (Build.monotoneInDepth_explore d (.type root)).tooDeep (congrArg Prod.fst hrun)
    rw [hrun]
    refine ⟨ns, hW, List.Subset.refl ns, .refl l, (fun _ h => nomatch h), ?_⟩
    intro f hf
    obtain rfl : Fault.tooDeep = f := Except.error.inj hf
    by_cases hedge : EdgeFault d W .tooDeep
    · exact .inl hedge
    · refine .inr ⟨rfl, fun n => ?_⟩
      obtain ⟨ns', h⟩ := hexplore n
      rcases h.fault _ (hdeep n) with hfault | ⟨-, t, ht, hdescent⟩
      · exact absurd hfault hedge
      · rw [List.mem_singleton.mp ht] at hdescent
        exact ⟨_, ns', h.inside, hdescent⟩

/-- A family in which every exploration along edges of one kind has an end: nodes answer when they are asked
for their edges, and there are only finitely many identities among them. -/
structure FinitelyExplorable (d : Direction) (W : Lattice → List Ty → Prop) : Prop extends Explorable d W where
  answers : ∀ {l ns t}, W l ns → t ∈ ns → ∃ rs, (t.edges d l).1 = .ok rs
  finite : ∃ ids : List Nat, ∀ {l ns t}, W l ns → t ∈ ns → t.id ∈ ids

section Finite

variable {W : Lattice → List Ty → Prop} {d : Direction} {l : Lattice} {ns nodes : List Ty} {root : Ty}

/-- In such a family everything that a node leads to is found. -/
theorem FinitelyExplorable.reachable_run (h : FinitelyExplorable d W) (hW : W l ns) (hroot : root ∈ ns) :
    ∃ g l' ns', Build.reachable d (.type root) l = (.ok g, l') ∧ W l' ns' ∧ ns ⊆ ns' ∧ l.Grows l' ∧
      CompleteReach l' ns' d root g := by
  obtain ⟨ns', hW', hns, hgrows, hok, hfault⟩ := reachable_outcome h.toExplorable hW hroot
  rcases hrun : Build.reachable d (.type root) l with ⟨fault | g, l'⟩
  · rw [hrun] at hfault
    rcases hfault fault rfl with ⟨l₁, ns₁, t, hW₁, ht, hedges⟩ | ⟨-, hdescent⟩
    · obtain ⟨rs, hrs⟩ := h.answers hW₁ ht
      rw [hrs] at hedges
      cases hedges
    -- a walk that goes too deep would have met more nodes than there are identities
    · obtain ⟨ids, hids⟩ := h.finite
      obtain ⟨l₁, ns₁, hW₁, hwalk⟩ := hdescent (ids.length + 1)
      have hle := hwalk.add_length_le (ids.map Identity.type)
        (fun t ht => List.mem_map_of_mem (hids hW₁ ht)) List.nodup_nil (List.nil_subset _)
      rw [List.length_map] at hle
      omega
  · rw [hrun] at hW' hgrows hok
    exact ⟨g, l', ns', rfl, hW', hns, hgrows, hok g rfl⟩

lemma Closed.finitelyExplorable (h : Closed l nodes) (d : Direction) :
    FinitelyExplorable d (Closed.family l nodes) where
  toExplorable := h.explorable d
  answers := by
    rintro l' ns t ⟨rfl, rfl⟩ ht
    obtain ⟨us, hedges, -⟩ := h.edges_eq ht d
    exact ⟨_, congrArg Prod.fst hedges⟩
  finite := by
    refine ⟨List.range l.entries.size, ?_⟩
    rintro l' ns t ⟨rfl, rfl⟩ ht
    exact List.mem_range.mpr (h.id_lt ht)

lemma Closed.reachable_run (h : Closed l nodes) (d : Direction) (hroot : root ∈ nodes) :
    ∃ g, Build.reachable d (.type root) l = (.ok g, l) ∧ CompleteReach l nodes d root g := by
  obtain ⟨g, l', ns', hrun, ⟨rfl, rfl⟩, -, -, hreach⟩ := (h.finitelyExplorable d).reachable_run ⟨rfl, rfl⟩ hroot
  exact ⟨g, hrun, hreach⟩

end Finite

end StructuralTypes
