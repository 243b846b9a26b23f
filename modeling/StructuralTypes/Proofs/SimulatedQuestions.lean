import StructuralTypes.Acyclicity
import StructuralTypes.Proofs.EdgesOnDemand
import StructuralTypes.Proofs.SimulatedConstructors
import StructuralTypes.Subsumption

/-!
# Questions on embedded lattices

A lattice and one that it strictly embeds into answer every question alike: the same edges are worked out at
the same time, so searches and walks go through the same pairs of nodes in the same order and meet the same
cycles. They remember nodes by their identities, which the renumbering keeps distinct.
-/

namespace StructuralTypes

variable {c : Comparison} {untouched : Prop} {ρ : Renumbering} {ns : List Ty} {l l' : Lattice}

section Edges

lemma eq_map_of_renumbersTo {rs rs' : List Referent} (h : List.Forall₂ (Referent.RenumbersTo ρ ns) rs rs') :
    rs' = rs.map (Referent.renumber ρ) ∧ ∀ r ∈ rs, r.Known ns := by
  induction h with
  | nil => exact ⟨rfl, by simp⟩
  | cons hhead _ ih =>
    refine ⟨?_, fun r hr => ?_⟩
    · rw [List.map_cons, hhead.2, ih.1]
    · rcases List.mem_cons.mp hr with rfl | hr
      · exact hhead.1
      · exact ih.2 r hr

lemma renumbersTo_of_known {rs : List Referent} (h : ∀ r ∈ rs, r.Known ns) :
    List.Forall₂ (Referent.RenumbersTo ρ ns) rs (rs.map (Referent.renumber ρ)) := by
  rw [List.forall₂_map_right_iff]
  exact List.forall₂_same.mpr fun r hr => ⟨h r hr, rfl⟩

/-- Edges are kept on both sides or on none, and what is worked out is stored on both sides. -/
lemma buildSimulates_kept (h : LatticeEmbedding c True ρ ns l l') {t : Ty} (ht : t ∈ ns) {d : Direction}
    {work work' : Build (List Referent)}
    (hwork : BuildSimulates c True ρ ns l l' work work' fun ns => List.Forall₂ (Referent.RenumbersTo ρ ns))
    (hworked : ∀ rs l₁, l.stored? d t.id = none → work l = (.ok rs, l₁) → c.untouched →
      t.isContainer = true ∧ l₁.Matching d t rs) :
    BuildSimulates c True ρ ns l l' (Build.kept d t.id work) (Build.kept d (ρ.id t.id) work')
      fun ns => List.Forall₂ (Referent.RenumbersTo ρ ns) := by
  have hstored' := h.stored?_eq ht (fun _ => trivial) d
  unfold Build.kept
  apply Simulates.get
  rw [hstored']
  cases hstored : l.stored? d t.id with
  | some rs => exact .pure h (renumbersTo_of_known (h.enumeration.known t ht d rs hstored))
  | none =>
    apply hwork.bind
    intro rs rs' ns' l₁ l₁' hrun hns h' hrs
    obtain ⟨rfl, hknown⟩ := eq_map_of_renumbersTo hrs
    have hstore := h'.store (hns ht) hknown (hworked rs l₁ hstored hrun)
    have hmodify : BuildSimulates c True ρ ns' l₁ l₁' (modify (·.store d t.id rs) : Build Unit)
        (modify (·.store d (ρ.id t.id) (rs.map (Referent.renumber ρ)))) fun _ _ _ => True :=
      .modify hstore trivial
    apply hmodify.bind
    intro _ _ ns'' l₂ l₂' _ hns' h'' _
    exact .pure h'' (hrs.imp fun _ _ hr => hr.mono hns')

lemma buildSimulates_containers (h : LatticeEmbedding c True ρ ns l l') {o o' : Referent} (ho : o.RenumbersTo ρ ns o')
    (extractor : Fn) {is is' : List Referent} (his : List.Forall₂ (Referent.RenumbersTo ρ ns) is is') :
    BuildSimulates c True ρ ns l l' (is.mapM fun i => do return Referent.type (← Build.container o extractor i))
      (is'.mapM fun i => do return Referent.type (← Build.container o' extractor i))
      fun ns => List.Forall₂ (Referent.RenumbersTo ρ ns) := by
  refine Simulates.mapM (P := fun ns i i' => Referent.RenumbersTo ρ ns o o' ∧ Referent.RenumbersTo ρ ns i i') ?_ ?_ ?_ h
    (his.imp fun i i' hi => ⟨ho, hi⟩)
  · exact fun ns ns' i i' hns hi => ⟨hi.1.mono hns, hi.2.mono hns⟩
  · exact fun ns ns' t t' hns ht => ht.mono hns
  · rintro i i' ns l l' h ⟨ho, hi⟩
    apply (buildSimulates_container h extractor ho hi).bind
    intro t t' ns' l₁ l₁' _ _ h' ht
    exact .pure h' ht.type

lemma buildSimulates_containerSubsets (h : LatticeEmbedding c True ρ ns l l') {outer inner : Ty} (ho : outer ∈ ns)
    (hi : inner ∈ ns) (extractor : Fn) {os os' is is' : List Referent}
    (hos : List.Forall₂ (Referent.RenumbersTo ρ ns) os os')
    (his : List.Forall₂ (Referent.RenumbersTo ρ ns) is is') :
    BuildSimulates c True ρ ns l l' (Build.containerSubsets outer extractor inner os is)
      (Build.containerSubsets (outer.renumber ρ) extractor (inner.renumber ρ) os' is')
      fun ns => List.Forall₂ (Referent.RenumbersTo ρ ns) := by
  have hrows : BuildSimulates c True ρ ns l l'
      ((Referent.type outer :: os).mapM fun o => do
        let inners := if o.isSame (.type outer) then is else .type inner :: is
        inners.mapM fun i => return Referent.type (← Build.container o extractor i))
      ((Referent.type (outer.renumber ρ) :: os').mapM fun o => do
        let inners := if o.isSame (.type (outer.renumber ρ)) then is' else .type (inner.renumber ρ) :: is'
        inners.mapM fun i => return Referent.type (← Build.container o extractor i))
      fun ns => List.Forall₂ (List.Forall₂ (Referent.RenumbersTo ρ ns)) := by
    refine Simulates.mapM (P := fun ns o o' => Referent.RenumbersTo ρ ns o o' ∧
      List.Forall₂ (Referent.RenumbersTo ρ ns) (.type inner :: is) (.type (inner.renumber ρ) :: is')) ?_ ?_ ?_ h ?_
    · exact fun ns ns' o o' hns ho => ⟨ho.1.mono hns, ho.2.imp fun _ _ hr => hr.mono hns⟩
    · exact fun ns ns' rs rs' hns hrs => hrs.imp fun _ _ hr => hr.mono hns
    · rintro o o' ns l l' h ⟨ho, hinners⟩
      have hsame : o'.isSame (.type (outer.renumber ρ)) = o.isSame (.type outer) := by
        rw [ho.2, ← Referent.renumber_type, Referent.isSame_renumber]
      simp only [hsame]
      by_cases hself : o.isSame (.type outer) = true
      · rw [if_pos hself, if_pos hself]
        cases hinners with
        | cons _ his => exact buildSimulates_containers h ho extractor his
      · rw [if_neg hself, if_neg hself]
        exact buildSimulates_containers h ho extractor hinners
    · have hinners : List.Forall₂ (Referent.RenumbersTo ρ ns) (.type inner :: is) (.type (inner.renumber ρ) :: is') :=
        .cons ⟨hi, rfl⟩ his
      exact .cons ⟨⟨ho, rfl⟩, hinners⟩ (hos.imp fun o o' hoo' => ⟨hoo', hinners⟩)
  apply hrows.bind
  intro rows rows' ns' l₁ l₁' _ _ h' hall
  exact .pure h' (List.rel_flatten hall)

lemma buildSimulates_containerSupersets (h : LatticeEmbedding c True ρ ns l l') {outer : Ty} (ho : outer ∈ ns)
    (extractor : Fn) {is is' : List Referent} (his : List.Forall₂ (Referent.RenumbersTo ρ ns) is is') :
    BuildSimulates c True ρ ns l l' (Build.containerSupersets outer extractor is)
      (Build.containerSupersets (outer.renumber ρ) extractor is')
      fun ns => List.Forall₂ (Referent.RenumbersTo ρ ns) := by
  have houter : (Referent.type outer).RenumbersTo ρ ns (.type (outer.renumber ρ)) := ⟨ho, rfl⟩
  apply (buildSimulates_containers h houter extractor his).bind
  intro widened widened' ns' l₁ l₁' _ hns h' hwidened
  have hall : List.Forall₂ (Referent.RenumbersTo ρ ns') (.type outer :: widened)
      (.type (outer.renumber ρ) :: widened') := .cons (houter.mono hns) hwidened
  exact .pure h' hall

/-- What a container works out in an untouched lattice can be stored. -/
lemma NodeEnumeration.matching_of_work (h : NodeEnumeration c.untouched l ns) {t : Ty} (ht : t ∈ ns)
    (hcontainer : t.isContainer = true) {d : Direction} {work : Build (List Referent)} {rs : List Referent}
    {l₁ : Lattice} (hedges : t.edges d = Build.kept d t.id work) (hstored : l.stored? d t.id = none)
    (hrun : work l = (.ok rs, l₁)) (hun : c.untouched) : l₁.Matching d t rs := by
  have h : NodeEnumeration True l ns := by simpa [hun] using h
  have hrun' : t.edges d l = (.ok rs, l₁.store d t.id rs) := by rw [hedges, Build.kept_of_ok hstored hrun]
  obtain ⟨hmatching, hgrows⟩ := matching_of_edges h ht hrun'
  refine hmatching.transfer h.parts (fun u hu hleaf d' => ?_) (.node ht)
  obtain ⟨us, hus, _⟩ := (h.untouched trivial).settled u hu hleaf d'
  have hkept := hgrows d' u.id _ hus
  rw [Lattice.stored?_store, if_neg] at hkept
  · rw [hkept, hus]
  · rintro ⟨hid, -⟩
    rw [h.unique hu ht hid, hcontainer] at hleaf
    cases hleaf

theorem buildSimulates_edges (h : LatticeEmbedding c True ρ ns l l') {t : Ty} (ht : t ∈ ns) (d : Direction) :
    BuildSimulates c True ρ ns l l' (t.edges d) ((t.renumber ρ).edges d)
      fun ns => List.Forall₂ (Referent.RenumbersTo ρ ns) := by
  induction t generalizing d ns l l' with
  | unary label outer extractor inner iho ihi =>
    have ho : outer ∈ ns := h.enumeration.parts _ ht (by simp [Ty.parts])
    have hi : inner ∈ ns := h.enumeration.parts _ ht (by simp [Ty.parts])
    cases d with
    | subsets =>
      rw [Ty.edges, Ty.renumber, Ty.edges]
      apply buildSimulates_kept h ht
      · apply (iho h ho .subsets).bind
        intro os os' ns₁ l₁ l₁' _ hns₁ h₁ hos
        apply (ihi h₁ (hns₁ hi) .subsets).bind
        intro is is' ns₂ l₂ l₂' _ hns₂ h₂ his
        exact buildSimulates_containerSubsets h₂ (hns₂ (hns₁ ho)) (hns₂ (hns₁ hi)) extractor
          (hos.imp fun _ _ hr => hr.mono hns₂) his
      · exact fun rs l₁ hstored hrun hun => ⟨rfl, h.enumeration.matching_of_work ht rfl rfl hstored hrun hun⟩
    | supersets =>
      rw [Ty.edges, Ty.renumber, Ty.edges]
      apply buildSimulates_kept h ht
      · apply (ihi h hi .supersets).bind
        intro is is' ns₁ l₁ l₁' _ hns₁ h₁ his
        exact buildSimulates_containerSupersets h₁ (hns₁ ho) extractor his
      · exact fun rs l₁ hstored hrun hun => ⟨rfl, h.enumeration.matching_of_work ht rfl rfl hstored hrun hun⟩
  | _ =>
    cases d <;>
    · apply buildSimulates_kept h ht (.pure h .nil)
      intro rs l₁ hstored _ hun
      obtain ⟨us, hus, _⟩ := (h.enumeration.untouched hun).settled _ ht rfl _
      rw [hus] at hstored
      cases hstored

lemma buildSimulates_referent_edges (h : LatticeEmbedding c True ρ ns l l') {r r' : Referent}
    (hr : r.RenumbersTo ρ ns r') (d : Direction) :
    BuildSimulates c True ρ ns l l' (r.edges d) (r'.edges d) fun ns => List.Forall₂ (Referent.RenumbersTo ρ ns) := by
  apply Simulates.attempt_bind h (related_expect hr d.feature)
  rintro t _ _ ⟨ht, rfl⟩
  exact buildSimulates_edges h ht d

end Edges

section Searches

/-- A pair of identities under new numbers. -/
def renumberPair (ρ : Renumbering) : Identity × Identity → Identity × Identity :=
  Prod.map (Identity.renumber ρ) (Identity.renumber ρ)

lemma renumberPair_injective (ρ : Renumbering) : Function.Injective (renumberPair ρ) :=
  (Identity.renumber_injective ρ).prodMap (Identity.renumber_injective ρ)

lemma lookup_map_of_injective {α β γ : Type} [BEq α] [LawfulBEq α] [BEq β] [LawfulBEq β] {f : α → β}
    (hf : Function.Injective f) (k : α) (xs : List (α × γ)) :
    (xs.map (Prod.map f fun b => b)).lookup (f k) = xs.lookup k := by
  induction xs with
  | nil => rfl
  | cons x xs ih =>
    obtain ⟨a, b⟩ := x
    by_cases h : k = a
    · simp [List.lookup, h]
    · have h' : (f k == f a) = false := by simpa using fun he => h (hf he)
      have h'' : (k == a) = false := by simpa using h
      simpa [List.lookup, h', h''] using ih

/-- Searches over two lattices, the first of them embedded into the second, that remember the same pairs. -/
structure SearchEmbedding (untouched : Prop) (ρ : Renumbering) (ns : List Ty) (s s' : Search) : Prop where
  lattice : LatticeEmbedding (.byMessage untouched) True ρ ns s.lattice s'.lattice
  decided : s'.decided = s.decided.map (Prod.map (renumberPair ρ) fun b => b)
  pending : s'.pending = s.pending.map (renumberPair ρ)

variable {s s' : Search}

lemma simulates_ofBuild (h : SearchEmbedding untouched ρ ns s s') {α β : Type} {x : Build α} {y : Build β}
    {Q : List Ty → α → β → Prop} (hx : BuildSimulates (.byMessage untouched) True ρ ns s.lattice s'.lattice x y Q) :
    Simulates (.byMessage untouched) (SearchEmbedding untouched ρ) ns s s' (Searching.ofBuild x)
      (Searching.ofBuild y) Q := by
  obtain ⟨ns', hns, hlattice, hresults⟩ := hx
  exact ⟨ns', hns, ⟨hlattice, h.decided, h.pending⟩, hresults⟩

/-- Both sides come to the same wherever they search from. -/
def SearchSimulates (untouched : Prop) (ρ : Renumbering) (search search' : Referent → Referent → Searching Bool) :
    Prop :=
  ∀ ns s s' a a' b b', SearchEmbedding untouched ρ ns s s' → a.RenumbersTo ρ ns a' → b.RenumbersTo ρ ns b' →
    Simulates (.byMessage untouched) (SearchEmbedding untouched ρ) ns s s' (search a b) (search' a' b') fun _ => Eq

lemma simulates_settle {search search' : Referent → Referent → Searching Bool}
    (hsearch : SearchSimulates untouched ρ search search') (h : SearchEmbedding untouched ρ ns s s')
    {sup sup' sub sub' : Referent} (hsup : sup.RenumbersTo ρ ns sup') (hsub : sub.RenumbersTo ρ ns sub') :
    Simulates (.byMessage untouched) (SearchEmbedding untouched ρ) ns s s' (Searching.settle search sup sub)
      (Searching.settle search' sup' sub') fun _ => Eq := by
  have hequals : RelatedResults (.byMessage untouched) Eq (sup.equals sub) (sup'.equals sub') := by
    rw [hsup.2, hsub.2, Referent.equals_renumber]
    exact .of_eq
  apply Simulates.attempt_bind h hequals
  rintro same _ _ rfl
  cases same with
  | true => exact .pure h rfl
  | false =>
    apply (simulates_ofBuild h (buildSimulates_referent_edges h.lattice hsup .subsets)).bind
    intro below below' ns₁ s₁ s₁' _ hns₁ h₁ hbelow
    have hany : Simulates (.byMessage untouched) (SearchEmbedding untouched ρ) ns₁ s₁ s₁'
        (below.anyM fun r => search r sub) (below'.anyM fun r => search' r sub') fun _ => Eq := by
      refine Simulates.anyM (P := fun ns r r' => r.RenumbersTo ρ ns r' ∧ sub.RenumbersTo ρ ns sub') ?_ ?_ h₁ ?_
      · exact fun ns ns' r r' hns hr => ⟨hr.1.mono hns, hr.2.mono hns⟩
      · exact fun r r' ns s s' h hr => hsearch ns s s' r r' sub sub' h hr.1 hr.2
      · exact hbelow.imp fun r r' hr => ⟨hr, hsub.mono hns₁⟩
    apply hany.bind
    rintro found _ ns₂ s₂ s₂' _ hns₂ h₂ rfl
    cases found with
    | true => exact .pure h₂ rfl
    | false =>
      have hsub₂ := (hsub.mono hns₁).mono hns₂
      apply (simulates_ofBuild h₂ (buildSimulates_referent_edges h₂.lattice hsub₂ .supersets)).bind
      intro above above' ns₃ s₃ s₃' _ hns₃ h₃ habove
      refine Simulates.anyM (P := fun ns r r' => r.RenumbersTo ρ ns r' ∧ sup.RenumbersTo ρ ns sup') ?_ ?_ h₃ ?_
      · exact fun ns ns' r r' hns hr => ⟨hr.1.mono hns, hr.2.mono hns⟩
      · exact fun r r' ns s s' h hr => hsearch ns s s' sup sup' r r' h hr.2 hr.1
      · exact habove.imp fun r r' hr => ⟨hr, ((hsup.mono hns₁).mono hns₂).mono hns₃⟩

lemma related_checkHashable {r r' : Referent} (h : r.RenumbersTo ρ ns r') :
    RelatedResults c Eq r.checkHashable r'.checkHashable := by
  rw [h.2, Referent.checkHashable_renumber]
  exact .of_eq

theorem simulates_supersedes (depth : Nat) :
    SearchSimulates untouched ρ (Searching.supersedes depth) (Searching.supersedes depth) := by
  induction depth with
  | zero =>
    intro ns s s' a a' b b' h _ _
    exact .throw h (.refl _)
  | succ depth ih =>
    intro ns s s' a a' b b' h ha hb
    unfold Searching.supersedes
    apply Simulates.attempt_bind h (related_checkHashable ha)
    rintro _ _ _ rfl
    apply Simulates.attempt_bind h (related_checkHashable hb)
    rintro _ _ _ rfl
    apply Simulates.get
    have hpair : (a'.identity, b'.identity) = renumberPair ρ (a.identity, b.identity) := by
      rw [ha.2, hb.2, Referent.identity_renumber, Referent.identity_renumber]
      rfl
    have hlookup : s'.decided.lookup (a'.identity, b'.identity) = s.decided.lookup (a.identity, b.identity) := by
      rw [h.decided, hpair, lookup_map_of_injective (renumberPair_injective ρ)]
    simp only [hlookup]
    cases s.decided.lookup (a.identity, b.identity) with
    | some answer => exact .pure h rfl
    | none =>
      apply Simulates.get
      have hcontains : s'.pending.contains (a'.identity, b'.identity) =
          s.pending.contains (a.identity, b.identity) := by
        rw [h.pending, hpair]
        simp only [List.contains_eq_mem, List.mem_map_of_injective (renumberPair_injective ρ)]
      simp only [hcontains]
      by_cases hpending : s.pending.contains (a.identity, b.identity) = true
      · rw [if_pos hpending, if_pos hpending]
        have hshown : (Comparison.byMessage untouched).alike (.cyclicLattice a b) (.cyclicLattice a' b') := by
          rw [ha.2, hb.2]
          exact .cyclicLattice (Referent.display_renumber ρ a) (Referent.display_renumber ρ b)
        have hthrow : Simulates (.byMessage untouched) (SearchEmbedding untouched ρ) ns s s'
            (throw (.cyclicLattice a b) : Searching Unit) (throw (.cyclicLattice a' b') : Searching Unit)
            fun _ _ _ => True := .throw h hshown
        exact hthrow.bind fun _ _ _ _ _ hrun => by cases hrun
      · rw [if_neg hpending, if_neg hpending]
        have hstart : Simulates (.byMessage untouched) (SearchEmbedding untouched ρ) ns s s'
            (Searching.start (a.identity, b.identity)) (Searching.start (a'.identity, b'.identity))
            fun _ _ _ => True := by
          refine .modify ⟨h.lattice, h.decided, ?_⟩ trivial
          rw [hpair, h.pending, List.map_cons]
        apply hstart.bind
        intro _ _ ns₁ s₁ s₁' _ hns₁ h₁ _
        apply (simulates_settle ih h₁ (ha.mono hns₁) (hb.mono hns₁)).bind
        rintro answer _ ns₂ s₂ s₂' _ _ h₂ rfl
        have hfinish : Simulates (.byMessage untouched) (SearchEmbedding untouched ρ) ns₂ s₂ s₂'
            (Searching.finish (a.identity, b.identity) answer) (Searching.finish (a'.identity, b'.identity) answer)
            fun _ _ _ => True := by
          refine .modify ⟨h₂.lattice, ?_, ?_⟩ trivial
          · rw [hpair, h₂.decided, List.map_cons]
            rfl
          · rw [hpair, h₂.pending, List.map_erase (renumberPair_injective ρ)]
        apply hfinish.bind
        intro _ _ ns₃ s₃ s₃' _ _ h₃ _
        exact .pure h₃ rfl

theorem buildSimulates_supersedes (h : LatticeEmbedding (.byMessage untouched) True ρ ns l l')
    {sup sup' sub sub' : Referent} (hsup : sup.RenumbersTo ρ ns sup') (hsub : sub.RenumbersTo ρ ns sub') :
    BuildSimulates (.byMessage untouched) True ρ ns l l' (Build.supersedes sup sub) (Build.supersedes sup' sub')
      fun _ => Eq := by
  apply Simulates.unlimited (Build.monotoneInDepth_supersedesWithin sup sub)
    (Build.monotoneInDepth_supersedesWithin sup' sub') h
  intro depth
  have hstart : SearchEmbedding untouched ρ ns ⟨l, [], []⟩ ⟨l', [], []⟩ := ⟨h, rfl, rfl⟩
  obtain ⟨ns', hns, h', hresults⟩ := simulates_supersedes depth ns _ _ sup sup' sub sub' hstart hsup hsub
  exact ⟨ns', hns, h'.lattice, hresults⟩

end Searches

section Walks

/-- Nodes with their edges, under new numbers. -/
def Reach.renumber (ρ : Renumbering) (g : Reach) : Reach :=
  g.map (Prod.map (Referent.renumber ρ) (List.map (Referent.renumber ρ)))

lemma Reach.identities_renumber (g : Reach) :
    (g.renumber ρ).identities = g.identities.map (Identity.renumber ρ) := by
  unfold identities renumber
  rw [List.map_map, List.map_map]
  apply List.map_congr_left
  intro p _
  exact Referent.identity_renumber ρ p.1

lemma idxOf_map_of_injective {α β : Type} [BEq α] [LawfulBEq α] [BEq β] [LawfulBEq β] {f : α → β}
    (hf : Function.Injective f) (a : α) (xs : List α) : (xs.map f).idxOf (f a) = xs.idxOf a := by
  induction xs with
  | nil => rfl
  | cons x xs ih =>
    by_cases h : x = a
    · simp [h]
    · have h' : ¬f x = f a := fun he => h (hf he)
      simp [h, h', ih]

lemma Reach.getD_renumber (g : Reach) (q : Nat) :
    (g.renumber ρ).getD q default =
      Prod.map (Referent.renumber ρ) (List.map (Referent.renumber ρ)) (g.getD q default) :=
  List.getD_map g default _

lemma Reach.successors_renumber (g : Reach) : (g.renumber ρ).successors = g.successors := by
  funext q
  unfold successors
  rw [getD_renumber, identities_renumber]
  simp only [Prod.map_snd, List.map_map]
  apply List.map_congr_left
  intro r _
  simp only [Function.comp_apply, Referent.identity_renumber]
  exact idxOf_map_of_injective (Identity.renumber_injective ρ) r.identity g.identities

/-- The same nodes lie on cycles. -/
lemma Reach.cycles_renumber (g : Reach) :
    (g.renumber ρ).cycles = g.cycles.map (List.map (Referent.renumber ρ)) := by
  have hlength : (g.renumber ρ).length = g.length := List.length_map _
  have hself : (g.renumber ρ).leadsToItself = g.leadsToItself := by
    funext q
    unfold leadsToItself
    rw [successors_renumber]
  unfold cycles
  rw [hlength, successors_renumber, hself]
  simp only [List.map_map]
  apply List.map_congr_left
  intro q _
  simp only [Function.comp_apply, List.map_map]
  apply List.map_congr_left
  intro i _
  simp only [Function.comp_apply, getD_renumber, Prod.map_fst]

theorem buildSimulates_explore (h : LatticeEmbedding c True ρ ns l l') (d : Direction) (depth : Nat) (g : Reach)
    {r r' : Referent} (hr : r.RenumbersTo ρ ns r') :
    BuildSimulates c True ρ ns l l' (Build.explore d depth g r) (Build.explore d depth (g.renumber ρ) r')
      fun _ g g' => g' = g.renumber ρ := by
  induction depth generalizing g r r' ns l l' with
  | zero => exact .throw h (c.refl _)
  | succ depth ih =>
    unfold Build.explore
    apply Simulates.attempt_bind h (related_checkHashable hr)
    rintro _ _ _ rfl
    have hcontains : (g.renumber ρ).identities.contains r'.identity = g.identities.contains r.identity := by
      rw [Reach.identities_renumber, hr.2, Referent.identity_renumber]
      simp only [List.contains_eq_mem, List.mem_map_of_injective (Identity.renumber_injective ρ)]
    simp only [hcontains]
    by_cases hmet : g.identities.contains r.identity = true
    · rw [if_pos hmet, if_pos hmet]
      exact .pure h rfl
    · rw [if_neg hmet, if_neg hmet]
      apply (buildSimulates_referent_edges h hr d).bind
      intro nodes nodes' ns₁ l₁ l₁' _ hns₁ h₁ hnodes
      have hg : (g.renumber ρ) ++ [(r', nodes')] = Reach.renumber ρ (g ++ [(r, nodes)]) := by
        rw [(eq_map_of_renumbersTo hnodes).1, hr.2]
        unfold Reach.renumber
        rw [List.map_append]
        rfl
      rw [hg]
      refine Simulates.foldlM (P := Referent.RenumbersTo ρ) ?_ ?_ h₁ rfl (List.forall₂_reverse_iff.mpr hnodes)
      · exact fun ns ns' s s' hns hs => hs.mono hns
      · rintro g _ s s' ns l l' h rfl hs
        exact ih h g hs

theorem buildSimulates_reachable (h : LatticeEmbedding c True ρ ns l l') (d : Direction) {r r' : Referent}
    (hr : r.RenumbersTo ρ ns r') :
    BuildSimulates c True ρ ns l l' (Build.reachable d r) (Build.reachable d r') fun _ g g' => g' = g.renumber ρ :=
  .unlimited (Build.monotoneInDepth_explore d r) (Build.monotoneInDepth_explore d r') h fun depth =>
    buildSimulates_explore h d depth [] hr

end Walks

end StructuralTypes
