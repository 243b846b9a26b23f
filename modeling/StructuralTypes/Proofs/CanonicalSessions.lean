import StructuralTypes.Proofs.CanonicalNodes

/-!
# Canonical form in sessions

Constructors preserve canonical form: where all types at hand are nodes of the lattice and lead to types in
canonical form only, so does the type that is made of them. So a session that overwrites no edges never comes
across a union or an intersection that is kept in another way: not by its names, not through parts or edges,
and not later on.
-/

namespace StructuralTypes

/-- Nodes of a lattice, with all that they lead to in canonical form. -/
def AllCanonical (l : Lattice) (ts : List Ty) : Prop :=
  ∃ ns, NodeEnumeration True l ns ∧ ts ⊆ ns ∧ ∀ t ∈ ts, l.DeeplyCanonical t

/-- A computation that makes a deeply canonical node wherever all types at hand are deeply canonical nodes, and
that keeps these so. -/
def PreservesCanonical (ts : List Ty) (x : Build Ty) : Prop :=
  ∀ l l' t, AllCanonical l ts → x l = (.ok t, l') → AllCanonical l' (t :: ts)

section Rules

variable {l l' : Lattice} {ts ts' : List Ty} {x : Build Ty} {r left right outer inner parent : Referent}

lemma AllCanonical.subset (h : AllCanonical l ts) (hsub : ts' ⊆ ts) : AllCanonical l ts' := by
  obtain ⟨ns, henum, hts, hcanon⟩ := h
  exact ⟨ns, henum, fun t ht => hts (hsub ht), fun t ht => hcanon t (hsub ht)⟩

lemma AllCanonical.deeplyCanonical (h : AllCanonical l ts) {t : Ty} (ht : t ∈ ts) : l.DeeplyCanonical t := by
  obtain ⟨-, -, -, hcanon⟩ := h
  exact hcanon t ht

lemma AllCanonical.id_lt (h : AllCanonical l ts) {t : Ty} (ht : t ∈ ts) : t.id < l.entries.size := by
  obtain ⟨ns, henum, hts, -⟩ := h
  exact henum.id_lt (hts ht)

lemma AllCanonical.withSerial (h : AllCanonical l ts) : AllCanonical { l with nextSerial := l.nextSerial + 1 } ts := by
  obtain ⟨ns, henum, hts, hcanon⟩ := h
  have hgrows : l.Grows { l with nextSerial := l.nextSerial + 1 } := fun _ _ _ hrs => hrs
  exact ⟨ns, henum.withSerial (Nat.le_succ _), hts, fun t ht => (hcanon t ht).mono hgrows⟩

lemma AllCanonical.part (h : AllCanonical l ts) {t p : Ty} (ht : t ∈ ts) (hp : p ∈ t.parts) :
    AllCanonical l (p :: ts) := by
  obtain ⟨ns, henum, hts, hcanon⟩ := h
  exact ⟨ns, henum, List.cons_subset.mpr ⟨henum.parts t (hts ht) hp, hts⟩,
    List.forall_mem_cons.mpr ⟨(hcanon t ht).part hp, hcanon⟩⟩

lemma AllCanonical.deeplyCanonical_of_edges (h : AllCanonical l ts) {t u : Ty} {d : Direction} {rs : List Referent}
    (ht : t ∈ ts) (hrun : t.edges d l = (.ok rs, l')) (hu : .type u ∈ rs) : l'.DeeplyCanonical u := by
  obtain ⟨ns, henum, hts, hcanon⟩ := h
  obtain ⟨hmatching, hgrows⟩ := matching_of_edges henum (hts ht) hrun
  exact ((hcanon t ht).matching hmatching hu).mono hgrows

lemma AllCanonical.deeplyCanonical_of_operands (h : AllCanonical l ts) {operands : List Ty} {t : Ty} (hr : r.Known ts)
    (hoperands : r.operands = .ok operands) (ht : t ∈ operands) : l.DeeplyCanonical t := by
  cases r with
  | plain => cases hoperands
  | type u =>
    cases u with
    | compound label op us =>
      obtain rfl := Except.ok.inj hoperands
      exact (h.deeplyCanonical hr).part ht
    | _ => cases hoperands

lemma Referent.Known.renumbersTo {ns : List Ty} (h : r.Known ts) (hts : ts ⊆ ns) : r.RenumbersTo .refl ns r :=
  ⟨h.mono hts, r.renumber_refl.symm⟩

/-- A construction that simulates itself on the lattice makes a node. It is left to see that the node is deeply
canonical. -/
lemma PreservesCanonical.of_buildSimulates
    (hsimulates : ∀ l ns, NodeEnumeration True l ns → ts ⊆ ns →
      BuildSimulates .exact True .refl ns l l x x (Ty.RenumbersTo .refl))
    (hextending : Extending x) (hcanon : ∀ l l' t, AllCanonical l ts → x l = (.ok t, l') → l'.DeeplyCanonical t) :
    PreservesCanonical ts x := by
  intro l l' t hall hrun
  obtain ⟨ns, henum, hts, htidies⟩ := hall
  obtain ⟨ns', hns, hembed, hresults⟩ := hsimulates l ns henum hts
  rw [hrun] at hembed hresults
  cases hresults with
  | ok ht =>
    refine ⟨ns', hembed.enumeration, List.cons_subset.mpr ⟨ht.1, fun u hu => hns (hts hu)⟩, ?_⟩
    refine List.forall_mem_cons.mpr ⟨hcanon l l' t ⟨ns, henum, hts, htidies⟩ hrun, fun u hu => ?_⟩
    exact (htidies u hu).mono (hextending.grows_of_run hrun)

lemma PreservesCanonical.bind {f : Ty → Build Ty} (hx : PreservesCanonical ts x)
    (hf : ∀ t, PreservesCanonical (t :: ts) (f t)) : PreservesCanonical ts (x >>= f) := by
  intro l l' u hall hrun
  obtain ⟨t, l₁, hfirst, hrest⟩ := exists_of_bind hrun
  apply (hf t l₁ l' u (hx l l₁ t hall hfirst) hrest).subset
  exact List.cons_subset_cons u (List.subset_cons_self t ts)

/-- A node without parts and edges. -/
lemma deeplyCanonical_of_leaf (make : Label → Ty) {names? docs? : Option (List String)} {t : Ty}
    (hlabel : ∀ label, (make label).label = label) (hparts : ∀ label, (make label).parts = [])
    (hleaf : ∀ label, (make label).isContainer = false) (hcanonical : ∀ l label, Lattice.Canonical l (make label))
    (hrun : (do
      let serial ← Build.takeSerial
      let id ← Build.register .empty
      return make ⟨id, serial, names?, docs?⟩) l = (.ok t, l')) : l'.DeeplyCanonical t := by
  obtain ⟨serial, l₁, -, hrest⟩ := exists_of_bind hrun
  obtain ⟨rfl, hstored⟩ := stored?_of_register (fun id => by rw [Ty.id, hlabel]) hrest
  refine .node (fun _ => []) (hleaf _) (hcanonical l' _) ?_ (fun d => ?_) fun _ => List.forall_mem_nil _
  · rw [hparts]
    exact List.forall_mem_nil _
  · rw [hstored]
    cases d <;> rfl

lemma preservesCanonical_any : PreservesCanonical ts Build.any :=
  .of_buildSimulates (fun _ _ henum _ => buildSimulates_any henum.embedding_self) extending_any fun _ _ _ _ hrun =>
    deeplyCanonical_of_leaf .any (fun _ => rfl) (fun _ => rfl) (fun _ => rfl) (fun _ _ => trivial) hrun

lemma preservesCanonical_bare : PreservesCanonical ts Build.bare :=
  .of_buildSimulates (fun _ _ henum _ => buildSimulates_bare henum.embedding_self) extending_bare fun _ _ _ _ hrun =>
    deeplyCanonical_of_leaf .bare (fun _ => rfl) (fun _ => rfl) (fun _ => rfl) (fun _ _ => trivial) hrun

lemma preservesCanonical_predicate (pred : Fn) (name? : Option String) :
    PreservesCanonical ts (Build.predicate pred name?) :=
  .of_buildSimulates (fun _ _ henum _ => buildSimulates_predicate henum.embedding_self pred name?)
    (extending_predicate pred name?)
    fun _ _ _ _ hrun =>
      deeplyCanonical_of_leaf (.predicate · pred) (fun _ => rfl) (fun _ => rfl) (fun _ => rfl) (fun _ _ => trivial) hrun

lemma preservesCanonical_compound (op : Operator) (hl : left.Known ts) (hr : right.Known ts) :
    PreservesCanonical ts (Build.compound op left right) := by
  apply PreservesCanonical.of_buildSimulates
  · exact fun l ns henum hts => buildSimulates_compound henum.embedding_self op (hl.renumbersTo hts)
      (hr.renumbersTo hts)
  · exact extending_compound op left right
  · rintro l l' t ⟨ns, henum, hts, hcanon⟩ hrun
    obtain ⟨serial, l₁, -, hrest⟩ := exists_of_bind hrun
    obtain ⟨ranked, hranked, -⟩ := exists_of_attempt hrest
    obtain ⟨a, b, rfl, rfl⟩ := types_of_mergeOperands hranked
    exact deeplyCanonical_of_compound henum (hts hl) (hts hr) (hcanon a hl) (hcanon b hr) hrun

/-- What is taken away is deeply canonical as well, also if it is a new union. -/
lemma deeplyCanonical_of_excluded (h : AllCanonical l ts) (hr : right.Known ts) {taken : Ty}
    (hrun : Build.excluded right l = (.ok (.type taken), l')) : l'.DeeplyCanonical taken := by
  cases right with
  | plain => cases hrun
  | type t =>
    cases t with
    | without label a b =>
      obtain ⟨u, l₁, hunion, hrest⟩ := exists_of_bind hrun
      cases hrest
      have hparts : AllCanonical l (a :: b :: ts) :=
        (h.part hr (List.mem_cons_of_mem a List.mem_cons_self)).part (List.mem_cons_of_mem b hr) List.mem_cons_self
      have hpreserves : PreservesCanonical (a :: b :: ts) (Build.compound .union (.type a) (.type b)) :=
        preservesCanonical_compound .union List.mem_cons_self (List.mem_cons_of_mem a List.mem_cons_self)
      exact (hpreserves l l' taken hparts hunion).deeplyCanonical List.mem_cons_self
    | _ =>
      cases hrun
      exact h.deeplyCanonical hr

lemma preservesCanonical_without (hl : left.Known ts) (hr : right.Known ts) :
    PreservesCanonical ts (Build.without left right) := by
  apply PreservesCanonical.of_buildSimulates
  · exact fun l ns henum hts => buildSimulates_without henum.embedding_self (hl.renumbersTo hts) (hr.renumbersTo hts)
  · exact extending_without left right
  · intro l l' t hall hrun
    obtain ⟨serial, l₁, hserial, hrest⟩ := exists_of_bind hrun
    obtain ⟨-, rfl⟩ := Prod.mk.inj hserial
    obtain ⟨taken, l₂, hexcluded, hrest⟩ := exists_of_bind hrest
    obtain ⟨a, b, aName, bName, aDoc, bDoc, rfl, rfl, -, -, hrest⟩ := exists_of_parts hrest
    have ha : l₂.DeeplyCanonical a := (hall.withSerial.deeplyCanonical hl).mono
      ((extending_excluded right).grows_of_run hexcluded)
    have hb : l₂.DeeplyCanonical b := deeplyCanonical_of_excluded hall.withSerial hr hexcluded
    have hgrows : l₂.Grows l' := by
      obtain ⟨-, rfl⟩ := Prod.mk.inj hrest
      exact Lattice.grows_push l₂ _
    obtain ⟨rfl, hstored⟩ := stored?_of_register (fun _ => rfl) hrest
    refine deeplyCanonical_of_edges hgrows rfl trivial ?_ fun d => ?_
    · simpa [Ty.parts] using ⟨ha, hb⟩
    · cases d with
      | subsets => exact ⟨[], hstored .subsets, List.forall_mem_nil _⟩
      | supersets => exact ⟨[a], hstored .supersets, by simpa using ha⟩

lemma preservesCanonical_container (extractor : Fn) (ho : outer.Known ts) (hi : inner.Known ts) :
    PreservesCanonical ts (Build.container outer extractor inner) := by
  apply PreservesCanonical.of_buildSimulates
  · exact fun l ns henum hts => buildSimulates_container henum.embedding_self extractor (ho.renumbersTo hts)
      (hi.renumbersTo hts)
  · exact extending_container outer extractor inner
  · intro l l' t hall hrun
    have hgrows := (extending_container outer extractor inner).grows_of_run hrun
    obtain ⟨serial, l₁, -, hrest⟩ := exists_of_bind hrun
    obtain ⟨a, b, aName, bName, aDoc, bDoc, rfl, rfl, -, -, hrest⟩ := exists_of_parts hrest
    obtain ⟨rfl, -⟩ := stored?_of_register (fun _ => rfl) hrest
    exact .container _ extractor ((hall.deeplyCanonical ho).mono hgrows) ((hall.deeplyCanonical hi).mono hgrows)

lemma preservesCanonical_suchThat (pred : Fn) (hp : parent.Known ts) :
    PreservesCanonical ts (Build.suchThat pred parent) :=
  (preservesCanonical_predicate pred none).bind fun t =>
    preservesCanonical_compound .intersection List.mem_cons_self (hp.mono (List.subset_cons_self t ts))

lemma preservesCanonical_withAlias (name : String) (hp : parent.Known ts) :
    PreservesCanonical ts (Build.withAlias name parent) := by
  apply PreservesCanonical.of_buildSimulates
  · exact fun l ns henum hts => buildSimulates_withAlias henum.embedding_self name (hp.renumbersTo hts)
  · exact extending_withAlias name parent
  · intro l l' u hall hrun
    obtain ⟨t, ht, hrest⟩ := exists_of_attempt hrun
    obtain ⟨names, -, hcopy⟩ := exists_of_attempt hrest
    obtain rfl := eq_type_of_expect ht
    exact deeplyCanonical_of_relabel (hall.id_lt hp) (hall.deeplyCanonical hp) hcopy

lemma preservesCanonical_withoutAlias (hp : parent.Known ts) : PreservesCanonical ts (Build.withoutAlias parent) := by
  apply PreservesCanonical.of_buildSimulates
  · exact fun l ns henum hts => buildSimulates_withoutAlias henum.embedding_self (hp.renumbersTo hts)
  · exact extending_withoutAlias parent
  · intro l l' u hall hrun
    obtain ⟨t, ht, hrest⟩ := exists_of_attempt hrun
    obtain ⟨names, -, hcopy⟩ := exists_of_attempt hrest
    obtain rfl := eq_type_of_expect ht
    by_cases hone : names.length = 1
    · rw [if_pos hone, pure_apply] at hcopy
      cases hcopy
      exact hall.deeplyCanonical hp
    · rw [if_neg hone] at hcopy
      exact deeplyCanonical_of_relabel (hall.id_lt hp) (hall.deeplyCanonical hp) hcopy

lemma preservesCanonical_withMetadata (names? docs? : Option (List String)) (hp : parent.Known ts) :
    PreservesCanonical ts (Build.withMetadata names? docs? parent) := by
  apply PreservesCanonical.of_buildSimulates
  · exact fun l ns henum hts => buildSimulates_withMetadata henum.embedding_self names? docs? (hp.renumbersTo hts)
  · exact extending_withMetadata names? docs? parent
  · intro l l' u hall hrun
    obtain ⟨t, ht, hcopy⟩ := exists_of_attempt hrun
    obtain rfl := eq_type_of_expect ht
    exact deeplyCanonical_of_relabel (hall.id_lt hp) (hall.deeplyCanonical hp) hcopy

/-- A pipeline adds what each of its functions makes, one after the other. -/
lemma preservesCanonical_compose (name : String) {fs : List (Referent → Build Ty)}
    (hfs : ∀ f ∈ fs, ∀ ts', ts ⊆ ts' → ∀ r : Referent, r.Known ts' → PreservesCanonical ts' (f r)) (hr : r.Known ts) :
    PreservesCanonical ts (Build.compose name r fs) := by
  intro l l' u hall hrun
  induction fs generalizing l r ts with
  | nil => exact preservesCanonical_withAlias name hr l l' u hall hrun
  | cons f fs ih =>
    obtain ⟨refined, l₁, hfold, hrest⟩ := exists_of_bind hrun
    rw [List.foldlM_cons] at hfold
    obtain ⟨current, l₂, hfirst, hfold⟩ := exists_of_bind hfold
    obtain ⟨t, l₃, hmade, hpure⟩ := exists_of_bind hfirst
    cases hpure
    have hall' := hfs f List.mem_cons_self ts (List.Subset.refl ts) r hr l _ t hall hmade
    have hfs' : ∀ g ∈ fs, ∀ ts', t :: ts ⊆ ts' → ∀ r : Referent, r.Known ts' → PreservesCanonical ts' (g r) :=
      fun g hg ts' hts' =>
      hfs g (List.mem_cons_of_mem f hg) ts' (List.cons_subset.mp hts').2
    have hrest' : Build.compose name (.type t) fs l₂ = (.ok u, l') := by
      rw [Build.compose, bind_of_ok hfold]
      exact hrest
    apply (ih hfs' List.mem_cons_self l₂ hall' hrest').subset
    exact List.cons_subset_cons u (List.subset_cons_self t ts)

end Rules

section Sessions

variable {I : Interpretation} {s s' : Session} {t : Ty}

/-- A session whose names denote nodes that are in canonical form with all that they lead to. -/
structure Session.InCanonicalForm (s : Session) : Prop where
  known : ∃ ns, s.Known True ns
  deeplyCanonical : ∀ b ∈ s.scope, ∀ t, b.2 = .type t → s.lattice.DeeplyCanonical t

/-- The types that a session has names for. -/
def Session.named (s : Session) : List Ty := Referent.types (s.scope.map Prod.snd)

lemma Session.mem_scope_of_resolve {name : String} {r : Referent} (h : s.resolve name = .ok r) :
    (name, r) ∈ s.scope := by
  unfold Session.resolve at h
  split at h
  · rename_i found hlookup
    obtain rfl := Except.ok.inj h
    exact mem_of_lookup hlookup
  · cases h

lemma Session.known_of_resolve {name : String} {r : Referent} (h : s.resolve name = .ok r) : r.Known s.named := by
  cases r with
  | type t => exact Referent.mem_types.mpr (List.mem_map.mpr ⟨_, mem_scope_of_resolve h, rfl⟩)
  | plain => trivial

lemma exists_of_resolve {α : Type} {name : String} {f : Referent → Stepping α} {a : α}
    (h : (Stepping.resolve name >>= f) s = (.ok a, s')) : ∃ r : Referent, r.Known s.named ∧ f r s = (.ok a, s') := by
  obtain ⟨r, s₁, hr, hrun⟩ := exists_of_bind h
  obtain ⟨hok, rfl⟩ := Prod.mk.inj hr
  exact ⟨r, Session.known_of_resolve hok, hrun⟩

lemma Session.Known.scope_known {ns : List Ty} (h : s.Known True ns) : ∀ b ∈ s.scope, b.2.Known ns := by
  have hself : SessionEmbedding .exact True .refl ns s s := Session.Known.embedding_self h
  exact hself.scope_known

lemma Session.InCanonicalForm.allCanonical (h : s.InCanonicalForm) : AllCanonical s.lattice s.named := by
  obtain ⟨ns, hns⟩ := h.known
  refine ⟨ns, hns.enumeration, fun t ht => ?_, fun t ht => ?_⟩
  · obtain ⟨b, hb, heq⟩ := List.mem_map.mp (Referent.mem_types.mp ht)
    have hknown := hns.scope_known b hb
    rw [heq] at hknown
    exact hknown
  · obtain ⟨b, hb, heq⟩ := List.mem_map.mp (Referent.mem_types.mp ht)
    exact h.deeplyCanonical b hb t heq

lemma Session.InCanonicalForm.fresh (h : s.InCanonicalForm) : s.fresh.InCanonicalForm := by
  obtain ⟨⟨ns, hns⟩, hcanon⟩ := h
  exact ⟨⟨ns, hns.fresh⟩, hcanon⟩

lemma preservesCanonical_refinement {f : Refinement} {g : Referent → Build Ty} (hg : f.resolve s = .ok g) {ts : List Ty}
    (hts : s.named ⊆ ts) {r : Referent} (hr : r.Known ts) : PreservesCanonical ts (g r) := by
  have hshared : ∀ t, .type t ∈ s.sharedNames.map Prod.snd → (Referent.type t).Known ts := by
    intro t ht
    apply hts
    rw [Session.named, Referent.mem_types, Session.scope, List.map_append]
    exact List.mem_append_right _ ht
  cases f with
  | operator op left =>
    obtain ⟨a, ha, ⟨⟩⟩ := ok_of_attempt hg
    exact preservesCanonical_compound op ((Session.known_of_resolve ha).mono hts) hr
  | without left =>
    obtain ⟨a, ha, ⟨⟩⟩ := ok_of_attempt hg
    exact preservesCanonical_without ((Session.known_of_resolve ha).mono hts) hr
  | container outer extractor =>
    obtain ⟨a, ha, ⟨⟩⟩ := ok_of_attempt hg
    exact preservesCanonical_container extractor ((Session.known_of_resolve ha).mono hts) hr
  | suchThat pred =>
    cases hg
    exact preservesCanonical_suchThat pred hr
  | withAlias name =>
    cases hg
    exact preservesCanonical_withAlias name hr
  | withoutAlias =>
    cases hg
    exact preservesCanonical_withoutAlias hr
  | withMetadata names? docs? =>
    cases hg
    exact preservesCanonical_withMetadata names? docs? hr
  | arrayOf =>
    cases hg
    exact preservesCanonical_container .elements (hshared s.prelude.array
      (by simp [Session.sharedNames, Prelude.types])) hr
  | mappingOf =>
    cases hg
    exact preservesCanonical_container .values (hshared s.prelude.mapping
      (by simp [Session.sharedNames, Prelude.types])) hr
  | optional =>
    cases hg
    exact preservesCanonical_compound .union (hshared s.prelude.null (by simp [Session.sharedNames, Prelude.types])) hr

lemma Session.InCanonicalForm.deeplyCanonical_of_preserves (h : s.InCanonicalForm) {x : Build Ty}
    (hx : PreservesCanonical s.named x)
    (hrun : (do return Referent.type (← Stepping.ofBuild x)) s = (.ok (.type t), s')) :
    s'.lattice.DeeplyCanonical t := by
  obtain ⟨u, s₁, hbuild, hpure⟩ := exists_of_bind hrun
  cases hpure
  obtain ⟨hok, rfl⟩ := Prod.mk.inj hbuild
  exact (hx s.lattice _ t h.allCanonical (Prod.ext hok rfl)).deeplyCanonical List.mem_cons_self

/-- Whatever a construction results in is deeply canonical. -/
lemma Session.InCanonicalForm.deeplyCanonical_of_construct (h : s.InCanonicalForm) {k : Construction}
    (hrun : Stepping.construct k s = (.ok (.type t), s')) : s'.lattice.DeeplyCanonical t := by
  cases k with
  | predicate pred name? => exact h.deeplyCanonical_of_preserves (preservesCanonical_predicate pred name?) hrun
  | bare => exact h.deeplyCanonical_of_preserves preservesCanonical_bare hrun
  | refine refinement operand =>
    rw [Stepping.construct, get_bind] at hrun
    obtain ⟨g, hg, hrun⟩ := exists_of_attempt hrun
    obtain ⟨r, hr, hrun⟩ := exists_of_resolve hrun
    exact h.deeplyCanonical_of_preserves (preservesCanonical_refinement hg (List.Subset.refl _) hr) hrun
  | compose name base refinements =>
    obtain ⟨r, hr, hrun⟩ := exists_of_resolve hrun
    rw [get_bind] at hrun
    obtain ⟨fs, hfs, hrun⟩ := exists_of_attempt hrun
    refine h.deeplyCanonical_of_preserves (preservesCanonical_compose name (fun g hg ts' hts' r' hr' => ?_) hr) hrun
    obtain ⟨f, -, hf⟩ := exists_related_left (forall₂_of_mapM hfs) hg
    exact preservesCanonical_refinement hf hts' hr'
  | fetch of =>
    obtain ⟨hr, rfl⟩ := Prod.mk.inj hrun
    exact h.allCanonical.deeplyCanonical (Session.known_of_resolve hr)
  | plain written =>
    obtain ⟨v, -, hrun⟩ := exists_of_attempt hrun
    cases hrun
  | edge of d index =>
    obtain ⟨r, hr, hrun⟩ := exists_of_resolve hrun
    obtain ⟨nodes, s₁, hedges, hrun⟩ := exists_of_bind hrun
    obtain ⟨hnode, rfl⟩ := Prod.mk.inj hrun
    obtain ⟨hok, rfl⟩ := Prod.mk.inj hedges
    have hasked : r.edges d s.lattice = (.ok nodes, (r.edges d s.lattice).2) := Prod.ext hok rfl
    obtain ⟨u, hu, hnodes⟩ := exists_of_attempt hasked
    obtain rfl := eq_type_of_expect hu
    exact h.allCanonical.deeplyCanonical_of_edges hr hnodes (mem_of_elementAt hnode)
  | operand of index =>
    obtain ⟨r, hr, hrun⟩ := exists_of_resolve hrun
    obtain ⟨operands, hoperands, hrun⟩ := exists_of_attempt hrun
    obtain ⟨u, hu, hrun⟩ := exists_of_attempt hrun
    cases hrun
    exact h.allCanonical.deeplyCanonical_of_operands hr hoperands (mem_of_elementAt hu)

/-- Another session is in canonical form if its types are nodes of its lattice and its names denote what they
denoted before or deeply canonical types. -/
lemma Session.InCanonicalForm.next (h : s.InCanonicalForm) (hsession : ∃ ns, s'.Known True ns)
    (hgrows : s.lattice.Grows s'.lattice)
    (hscope : ∀ b ∈ s'.scope, b ∈ s.scope ∨ ∀ t, b.2 = .type t → s'.lattice.DeeplyCanonical t) :
    s'.InCanonicalForm := by
  refine ⟨hsession, fun b hb t ht => ?_⟩
  rcases hscope b hb with hold | hnew
  · exact (h.deeplyCanonical b hold t ht).mono hgrows
  · exact hnew t ht

/-- A construction may give a name to what it results in, and names nothing else. -/
lemma scope_of_construct (bind? : Option String) (k : Construction) (h : s.InCanonicalForm) :
    s.lattice.Grows (Stepping.perform I (.construct bind? k) s).2.lattice ∧
      ∀ b ∈ (Stepping.perform I (.construct bind? k) s).2.scope,
        b ∈ s.scope ∨ ∀ t, b.2 = .type t → (Stepping.perform I (.construct bind? k) s).2.lattice.DeeplyCanonical t := by
  obtain ⟨hscope, hgrows⟩ := persisting_construct k s
  rcases hrun : Stepping.construct k s with ⟨fault | r, s₁⟩
  · rw [hrun] at hscope hgrows
    have hfailed : Stepping.perform I (.construct bind? k) s = (.error fault, s₁) := bind_of_error hrun
    rw [hfailed]
    exact ⟨hgrows, fun b hb => .inl (hscope ▸ hb)⟩
  · rw [hrun] at hscope hgrows
    have hcanon : ∀ t, r = .type t → s₁.lattice.DeeplyCanonical t := by
      rintro t rfl
      exact h.deeplyCanonical_of_construct hrun
    cases bind? with
    | none =>
      have hafter : (Stepping.perform I (.construct none k) s).2 = s₁ := by
        rw [Stepping.perform, bind_of_ok hrun]
        cases r <;> rfl
      rw [hafter]
      exact ⟨hgrows, fun b hb => .inl (hscope ▸ hb)⟩
    | some name =>
      have hafter : (Stepping.perform I (.construct (some name) k) s).2 =
          { s₁ with bindings := putNamed name r s₁.bindings } := by
        rw [Stepping.perform, bind_of_ok hrun]
        cases r <;> rfl
      rw [hafter]
      refine ⟨hgrows, fun b hb => ?_⟩
      rcases List.mem_append.mp hb with hb | hb
      · rcases mem_putNamed hb with hb | hb
        · exact .inr fun t ht => hcanon t (hb.symm.trans ht)
        · exact .inl (hscope ▸ List.mem_append_left _ hb)
      · exact .inl (hscope ▸ List.mem_append_right s₁.bindings hb)

lemma Session.InCanonicalForm.step (h : s.InCanonicalForm) {st : Step} (hst : st.overwrites = false) :
    (s.step I st).2.InCanonicalForm ∧ s.lattice.Grows (s.step I st).2.lattice := by
  obtain ⟨ns, hns⟩ := h.known
  have hsession := hns.step (I := I) fun _ => hst
  by_cases hk : ∃ bind? k, st = .construct bind? k
  · obtain ⟨bind?, k, rfl⟩ := hk
    obtain ⟨hgrows, hscope⟩ := scope_of_construct (I := I) bind? k h.fresh
    exact ⟨h.fresh.next hsession hgrows hscope, hgrows⟩
  · have hpersists : s.fresh.Persists (s.step I st).2 :=
      persisting_perform hst (fun bind? k heq => hk ⟨bind?, k, heq⟩) s.fresh
    exact ⟨h.fresh.next hsession hpersists.2 fun b hb => .inl (hpersists.1 ▸ hb), hpersists.2⟩

/-- The session that steps lead to. -/
def Session.after (I : Interpretation) (s : Session) (steps : List Step) : Session :=
  steps.foldl (fun s st => (s.step I st).2) s

lemma Session.InCanonicalForm.run (h : s.InCanonicalForm) {steps : List Step}
    (hsteps : ∀ st ∈ steps, st.overwrites = false) :
    (s.after I steps).InCanonicalForm ∧ s.lattice.Grows (s.after I steps).lattice := by
  induction steps generalizing s with
  | nil => exact ⟨h, .refl _⟩
  | cons st steps ih =>
    obtain ⟨hst, hrest⟩ := List.forall_mem_cons.mp hsteps
    obtain ⟨h', hgrows⟩ := h.step (I := I) hst
    obtain ⟨h'', hgrows'⟩ := ih h' hrest
    exact ⟨h'', hgrows.trans hgrows'⟩

lemma allCanonical_of_prelude {p : Prelude} {l : Lattice} (hrun : Prelude.build .empty = (.ok p, l)) :
    AllCanonical l (p.any :: p.types.map Prod.snd) := by
  have h₀ : AllCanonical .empty [] := ⟨[], .empty True, List.Subset.refl [], List.forall_mem_nil _⟩
  obtain ⟨any, l₁, hany, hrun⟩ := exists_of_bind hrun
  have h₁ := preservesCanonical_any _ _ _ h₀ hany
  obtain ⟨null, l₂, hnull, hrun⟩ := exists_of_bind hrun
  have h₂ := preservesCanonical_predicate _ _ _ _ _ h₁ hnull
  obtain ⟨boolean, l₃, hboolean, hrun⟩ := exists_of_bind hrun
  have h₃ := preservesCanonical_predicate _ _ _ _ _ h₂ hboolean
  obtain ⟨number, l₄, hnumber, hrun⟩ := exists_of_bind hrun
  have h₄ := preservesCanonical_predicate _ _ _ _ _ h₃ hnumber
  obtain ⟨string, l₅, hstring, hrun⟩ := exists_of_bind hrun
  have h₅ := preservesCanonical_predicate _ _ _ _ _ h₄ hstring
  obtain ⟨array, l₆, harray, hrun⟩ := exists_of_bind hrun
  have h₆ := preservesCanonical_predicate _ _ _ _ _ h₅ harray
  obtain ⟨mapping, l₇, hmapping, hrun⟩ := exists_of_bind hrun
  have h₇ := preservesCanonical_predicate _ _ _ _ _ h₆ hmapping
  obtain ⟨whole, l₈, hwhole, hrun⟩ := exists_of_bind hrun
  have h₈ := preservesCanonical_suchThat _ (by simp [Referent.Known]) _ _ _ h₇ hwhole
  obtain ⟨integer, l₉, hinteger, hrun⟩ := exists_of_bind hrun
  have h₉ := preservesCanonical_withAlias _ (by simp [Referent.Known]) _ _ _ h₈ hinteger
  obtain ⟨small, m₁, hsmall, hrun⟩ := exists_of_bind hrun
  have k₁ := preservesCanonical_compound _ (by simp [Referent.Known]) (by simp [Referent.Known]) _ _ _ h₉ hsmall
  obtain ⟨large, m₂, hlarge, hrun⟩ := exists_of_bind hrun
  have k₂ := preservesCanonical_compound _ (by simp [Referent.Known]) (by simp [Referent.Known]) _ _ _ k₁ hlarge
  obtain ⟨all, m₃, hall, hrun⟩ := exists_of_bind hrun
  have k₃ := preservesCanonical_compound _ (by simp [Referent.Known]) (by simp [Referent.Known]) _ _ _ k₂ hall
  obtain ⟨scalar, m₄, hscalar, hrun⟩ := exists_of_bind hrun
  have k₄ := preservesCanonical_withAlias _ (by simp [Referent.Known]) _ _ _ k₃ hscalar
  cases hrun
  apply k₄.subset
  simp [Prelude.types]

lemma Session.initial_inCanonicalForm : Session.initial.InCanonicalForm := by
  obtain ⟨p, l, hbuilt, hinitial⟩ := Session.initial_eq
  refine ⟨Session.initial_known True, fun b hb t ht => ?_⟩
  rw [hinitial] at hb ⊢
  apply (allCanonical_of_prelude hbuilt).deeplyCanonical
  simp only [Session.scope, Session.sharedNames, List.nil_append, List.mem_cons, List.mem_map] at hb
  rcases hb with rfl | ⟨entry, hentry, rfl⟩
  · rw [Referent.type.inj ht]
    exact List.mem_cons_self
  · rw [← Referent.type.inj ht]
    exact List.mem_cons_of_mem _ (List.mem_map_of_mem hentry)

/-- What a session can get at: the types it has names for, their parts, and what the edges that are worked out
lead to. -/
inductive Session.Reaches (s : Session) : Ty → Prop
  | named {name : String} {t : Ty} : (name, .type t) ∈ s.scope → Reaches s t
  | part {t p : Ty} : Reaches s t → p ∈ t.parts → Reaches s p
  | edge {t u : Ty} {d : Direction} : Reaches s t → s.lattice.Edge d t u → Reaches s u

lemma Session.InCanonicalForm.reaches (h : s.InCanonicalForm) {ns : List Ty} (hns : s.Known True ns)
    (ht : s.Reaches t) : t ∈ ns ∧ s.lattice.DeeplyCanonical t := by
  induction ht with
  | named hmem => exact ⟨hns.scope_known _ hmem, h.deeplyCanonical _ hmem _ rfl⟩
  | part _ hp ih => exact ⟨hns.enumeration.parts _ ih.1 hp, ih.2.part hp⟩
  | @edge t u d _ hedge ih =>
    obtain ⟨rs, hrs, hu⟩ := hedge
    refine ⟨hns.enumeration.known t ih.1 d rs hrs _ hu, ?_⟩
    by_cases hcontainer : t.isContainer = true
    · exact ih.2.matching ((hns.enumeration.untouched trivial).worked t ih.1 hcontainer d rs hrs) hu
    · obtain ⟨us, hus, hcanon⟩ := ih.2.settled (by simpa using hcontainer) d
      obtain rfl := Option.some.inj (hus.symm.trans hrs)
      obtain ⟨v, hv, hsame⟩ := List.mem_map.mp hu
      rw [← Referent.type.inj hsame]
      exact hcanon v hv

end Sessions

/-- Every union and every intersection that a session ever gets at has its canonical form from then on, provided
that the session overwrites no edges. -/
theorem Session.canonical_of_reaches {I : Interpretation} {before after : List Step}
    (hsteps : ∀ st ∈ before ++ after, st.overwrites = false) {t : Ty}
    (ht : (Session.initial.after I before).Reaches t) :
    (Session.initial.after I (before ++ after)).lattice.Canonical t := by
  obtain ⟨hbefore, hafter⟩ := List.forall_mem_append.mp hsteps
  obtain ⟨hform, -⟩ := Session.initial_inCanonicalForm.run (I := I) hbefore
  obtain ⟨ns, hns⟩ := hform.known
  obtain ⟨-, hcanon⟩ := hform.reaches hns ht
  obtain ⟨-, hgrows⟩ := hform.run (I := I) hafter
  have hsplit : Session.initial.after I (before ++ after) = (Session.initial.after I before).after I after :=
    List.foldl_append
  rw [hsplit]
  exact hcanon.canonical.mono hgrows

/-- An intersection of an intersection with a copy of it, both of a repeated operand, and the union of it with a
union, seen again after questions have worked out the edges of a container. -/
theorem Session.canonical_of_reaches_nested :
    let I := constantInterpretation true
    let before : List Step := [.construct (some "A") (.predicate (.named "f") (some "A")),
      .construct (some "B") (.refine (.operator .intersection "A") "A"),
      .construct (some "C") (.refine (.withAlias "copy") "B"),
      .construct (some "D") (.refine (.operator .intersection "B") "C"),
      .construct (some "E") (.refine (.operator .union "Scalar") "D"),
      .construct (some "F") (.refine .arrayOf "E")]
    let after : List Step := [.ask (.edges "F" .subsets), .ask (.supersedes "F" "E")]
    ∃ d e, (Session.initial.after I before).resolve "D" = .ok (.type d) ∧ d.isMadeBy .intersection = true ∧
      (Session.initial.after I (before ++ after)).lattice.Canonical d ∧
      (Session.initial.after I before).resolve "E" = .ok (.type e) ∧ e.isMadeBy .union = true ∧
      (Session.initial.after I (before ++ after)).lattice.Canonical e := by
  intro I before after
  have hfound : ∀ name op,
      (Referent.types ((Session.initial.after I before).resolve name).toOption.toList).any (·.isMadeBy op) = true →
      ∃ t, (Session.initial.after I before).resolve name = .ok (.type t) ∧ t.isMadeBy op = true := by
    intro name op hcheck
    obtain ⟨t, ht, hmade⟩ := List.any_eq_true.mp hcheck
    exact ⟨t, ok_of_toOption (Option.mem_toList.mp (Referent.mem_types.mp ht)), hmade⟩
  obtain ⟨d, hd, hinter⟩ := hfound "D" .intersection (by decide +kernel)
  obtain ⟨e, he, hunion⟩ := hfound "E" .union (by decide +kernel)
  have hsteps : ∀ st ∈ before ++ after, st.overwrites = false := by decide
  exact ⟨d, e, hd, hinter, Session.canonical_of_reaches hsteps (.named (Session.mem_scope_of_resolve hd)), he, hunion,
    Session.canonical_of_reaches hsteps (.named (Session.mem_scope_of_resolve he))⟩

end StructuralTypes
