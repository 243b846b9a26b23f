import StructuralTypes.Proofs.DeclaredEdges

/-!
# Constructors on well-formed lattices

Each constructor, given nodes of a well-formed lattice, leads to a well-formed lattice that has its result
among its nodes. So does asking a node for its edges, although the edges of a container are new nodes.
-/

namespace StructuralTypes

section Constructors

variable {terms : Terms} {l : Lattice} {ns : List Ty}

/-- What constructors have in common: the result is a node of the well-formed lattice they lead to. -/
abbrev Makes (terms : Terms) (l : Lattice) (ns : List Ty) (x : Build Ty) : Prop :=
  Yields terms l ns x fun _ ns' t => t ∈ ns'

lemma makes_node (h : WellFormed terms l ns) {e : Edges} {t : Nat → Ty}
    (ht : Fits terms l ns e (t ns.length)) : Makes terms l ns (do return t (← Build.register e)) :=
  (Yields.node h ht).mono fun _ _ _ _ hu => hu.1

lemma UnusedSerial.sameOrigin {serial : Nat} (h : UnusedSerial l ns serial) (t : Ty) (u : Ty) (hu : u ∈ ns)
    (hserial : u.serial = serial) : u.SameOrigin t :=
  (h.unused u hu hserial).elim

lemma noEdges (t : Ty) (d : Direction) (rs : List Referent) (h : Edges.empty.get? d = some rs) :
    ∃ us : List Ty, rs = us.map .type ∧ us ⊆ ns ∧ ∀ u ∈ us, t.Leads d u := by
  refine ⟨[], ?_, List.nil_subset _, by simp⟩
  cases d <;> exact (Option.some.inj h).symm

lemma edges_settled (below above : List Referent) (d : Direction) :
    ∃ rs, Edges.get? ⟨some below, some above⟩ d = some rs := by
  cases d <;> exact ⟨_, rfl⟩

lemma makes_any (h : WellFormed terms l ns) : Makes terms l ns Build.any := by
  apply Yields.takeSerial h
  intro serial l' h' hserial _
  apply makes_node h'
  exact ⟨rfl, ⟨.any _, ⟨_, rfl, by simp⟩, ⟨_, rfl, by simp⟩, List.nil_subset _⟩, noEdges _,
    .of_settled rfl (edges_settled [] []) (by simp [Ty.evident]), hserial.lt, hserial.sameOrigin _⟩

lemma makes_predicate (h : WellFormed terms l ns) (pred : Fn) (name? : Option String) :
    Makes terms l ns (Build.predicate pred name?) := by
  apply Yields.takeSerial h
  intro serial l' h' hserial _
  apply makes_node h'
  exact ⟨rfl, ⟨.predicate _ _, ⟨_, rfl, by simp⟩, ⟨_, rfl, by simp⟩, List.nil_subset _⟩,
    noEdges _, .of_settled rfl (edges_settled [] []) (by simp [Ty.evident]), hserial.lt, hserial.sameOrigin _⟩

lemma contribution_mem (h : WellFormed terms l ns) {t u : Ty} (ht : t ∈ ns) {op : Operator}
    (hu : u ∈ t.contribution op) : u ∈ ns := by
  rcases Ty.contribution_parts hu with rfl | hu
  · exact ht
  · exact (h.sound t ht).parts hu

lemma contributions_mem (h : WellFormed terms l ns) {left right : Ty} (hl : left ∈ ns) (hr : right ∈ ns)
    (op : Operator) : left.contribution op ++ right.contribution op ⊆ ns :=
  List.append_subset.mpr ⟨fun _ => contribution_mem h hl, fun _ => contribution_mem h hr⟩

/-- The type is what an operator makes of two types: its operands are theirs, merged, and it is named
after them. -/
def Merges (op : Operator) (left right t : Ty) : Prop :=
  ∃ label ranked, mergeOperands op (.type left) (.type right) = .ok ranked ∧
    t = .compound label op (ranked.map (·.type)) ∧
    label.names? = some [operationalName op.glyph (ranked.map (·.canonicalName))]

lemma yields_compound (h : WellFormed terms l ns) {op : Operator} (hop : terms.operators op)
    {left right : Ty} (hl : left ∈ ns) (hr : right ∈ ns) :
    Yields terms l ns (Build.compound op (.type left) (.type right)) fun l' ns' t =>
      t ∈ ns' ∧ Merges op left right t ∧ ∀ serial, UnusedSerial l ns serial → UnusedSerial l' ns' serial := by
  apply Yields.takeSerial h
  intro serial l' h' hserial hothers
  have hmem := contributions_mem h hl hr op
  apply Yields.attempt h'
  · intro _
    exact mergeOperands_answers fun t ht => (h'.sound t (hmem ht)).canonicalName
  intro ranked hranked
  have hperm := mergeOperands_perm hranked
  have hoperands : ∀ t ∈ ranked.map (·.type), t ∈ ns := fun t ht => hmem (hperm.mem_iff.mp ht)
  apply Yields.attempt h'
  · intro hdoc
    exact mapM_answers fun t ht => (h'.sound t (hoperands t ht)).firstDoc hdoc
  intro docs _
  apply Yields.get
  obtain ⟨below, above, hedges, hbelow, habove, hsubsets, hsupersets, hdown, hup⟩ :=
    declaredEdges_types h' hl hr hperm
  apply Yields.attempt h' fun _ => ⟨_, hedges⟩
  rintro edges hedges'
  obtain rfl := Except.ok.inj (hedges.symm.trans hedges')
  refine (Yields.node h' ⟨rfl, ?_, ?_, ?_, ?_, ?_⟩).mono ?_
  · refine ⟨?_, ⟨_, rfl, by simp⟩, ⟨_, rfl, by simp⟩, hoperands⟩
    apply Ty.Regular.compound _ hop
    · intro hnil
      rw [hnil] at hperm
      have hempty := List.append_eq_nil_iff.mp hperm.nil_eq.symm
      exact (h.sound left hl).regular.contribution_ne_nil op hempty.1
    · exact fun t ht => (h'.sound t (hoperands t ht)).regular
  · rintro d rs hrs
    cases d with
    | subsets => exact ⟨below, (Option.some.inj hrs).symm, hbelow, hsubsets _⟩
    | supersets => exact ⟨above, (Option.some.inj hrs).symm, habove, hsupersets _⟩
  · refine .of_settled rfl (edges_settled _ _) fun d u hu => ?_
    cases d with
    | subsets => exact ⟨_, rfl, List.mem_map_of_mem (hdown _ hu)⟩
    | supersets => exact ⟨_, rfl, List.mem_map_of_mem (hup _ hu)⟩
  · exact hserial.lt
  · exact hserial.sameOrigin _
  · rintro l'' ns' t _ ⟨ht, rfl, hunused⟩
    refine ⟨ht, ⟨_, ranked, hranked, rfl, rfl⟩, fun other hother => ?_⟩
    obtain ⟨hother', hne⟩ := hothers other hother
    exact hunused other hother' hne

lemma makes_compound (h : WellFormed terms l ns) {op : Operator} (hop : terms.operators op)
    {left right : Ty} (hl : left ∈ ns) (hr : right ∈ ns) :
    Makes terms l ns (Build.compound op (.type left) (.type right)) :=
  (yields_compound h hop hl hr).mono fun _ _ _ _ ht => ht.1

/-- Exclusions and containers first ask both parts for a name and a doc. -/
lemma yields_of_parts (h : WellFormed terms l ns) {a b : Ty} (ha : a ∈ ns) (hb : b ∈ ns)
    {k : Ty → String → Ty → String → String → String → Build Ty} {Q : Lattice → List Ty → Ty → Prop}
    (hk : ∀ aName bName aDoc bDoc, Yields terms l ns (k a aName b bName aDoc bDoc) Q) :
    Yields terms l ns (do
      let aType ← Build.ofAttempt ((Referent.type a).expect .canonicalName)
      let aName ← Build.ofAttempt aType.canonicalName
      let bType ← Build.ofAttempt ((Referent.type b).expect .canonicalName)
      let bName ← Build.ofAttempt bType.canonicalName
      let aDoc ← Build.ofAttempt aType.firstDoc
      let bDoc ← Build.ofAttempt bType.firstDoc
      k aType aName bType bName aDoc bDoc) Q := by
  apply Yields.attempt h fun _ => ⟨a, rfl⟩
  rintro _ ⟨⟩
  apply Yields.attempt h fun _ => (h.sound a ha).canonicalName
  intro aName _
  apply Yields.attempt h fun _ => ⟨b, rfl⟩
  rintro _ ⟨⟩
  apply Yields.attempt h fun _ => (h.sound b hb).canonicalName
  intro bName _
  apply Yields.attempt h (h.sound a ha).firstDoc
  intro aDoc _
  apply Yields.attempt h (h.sound b hb).firstDoc
  intro bDoc _
  exact hk aName bName aDoc bDoc

lemma parts_pair {a b : Ty} (ha : a ∈ ns) (hb : b ∈ ns) : [a, b] ⊆ ns := by
  simp [ha, hb]

/-- The type that an exclusion takes away: the one it is given, or the union of both sides if that is
an exclusion itself. -/
def Excludes (right taken : Ty) : Prop :=
  match right with
  | .without _ a b => Merges .union a b taken
  | _ => taken = right

lemma yields_excluded (h : WellFormed terms l ns) {right : Ty} (hr : right ∈ ns) :
    Yields terms l ns (Build.excluded (.type right)) fun l' ns' r =>
      (∃ t, r = .type t ∧ t ∈ ns' ∧ Excludes right t) ∧
        ∀ serial, UnusedSerial l ns serial → UnusedSerial l' ns' serial := by
  cases right with
  | without label a b =>
    have hop : terms.operators .union := (fun h => nomatch h)
    obtain ⟨ha, hb⟩ := h.parts_mem hr rfl
    refine (yields_compound h hop ha hb).bind ?_
    rintro t l' ns' h' _ _ ⟨ht, hmerges, hunused⟩
    exact Yields.pure h' ⟨⟨t, rfl, ht, hmerges⟩, hunused⟩
  | _ => exact Yields.pure h ⟨⟨_, rfl, hr, rfl⟩, fun _ hserial => hserial⟩

lemma makes_without (h : WellFormed terms l ns) {left right : Ty} (hl : left ∈ ns) (hr : right ∈ ns) :
    Yields terms l ns (Build.without (.type left) (.type right)) fun _ ns' t =>
      t ∈ ns' ∧ ∃ label taken, t = .without label left taken ∧ Excludes right taken := by
  apply Yields.takeSerial h
  intro serial l' h' hserial _
  refine (yields_excluded h' hr).bind ?_
  rintro _ l'' ns' h'' hsub _ ⟨⟨taken, rfl, htaken, hexcludes⟩, hunused⟩
  apply yields_of_parts h'' (hsub hl) htaken
  intro leftName rightName leftDoc rightDoc
  refine (Yields.node h'' ⟨rfl, ?_, ?_, ?_, ?_, ?_⟩).mono ?_
  · refine ⟨?_, ⟨_, rfl, by simp⟩, ⟨_, rfl, by simp⟩, parts_pair (hsub hl) htaken⟩
    exact .without _ (h''.sound left (hsub hl)).regular (h''.sound taken htaken).regular
  · intro d rs hrs
    cases d with
    | subsets => exact ⟨[], (Option.some.inj hrs).symm, List.nil_subset _, by simp⟩
    | supersets =>
      refine ⟨[left], (Option.some.inj hrs).symm, by simpa using hsub hl, fun u hu => ?_⟩
      rw [List.mem_singleton.mp hu]
      exact .left
  · refine .of_settled rfl (edges_settled _ _) fun d u hu => ?_
    cases d with
    | subsets => cases hu
    | supersets =>
      rw [List.mem_singleton.mp hu]
      exact ⟨_, rfl, List.mem_singleton_self _⟩
  -- the serial number taken at first is still unused, although a union may have been made in between
  · exact (hunused serial hserial).lt
  · exact (hunused serial hserial).sameOrigin _
  · rintro _ _ t _ ⟨ht, rfl, -⟩
    exact ⟨ht, _, taken, rfl, hexcludes⟩

lemma makes_container (h : WellFormed terms l ns) {outer inner : Ty} (ho : outer ∈ ns) (hi : inner ∈ ns)
    (extractor : Fn) :
    Yields terms l ns (Build.container (.type outer) extractor (.type inner)) fun _ ns' t =>
      t ∈ ns' ∧ ∃ label, t = .unary label outer extractor inner := by
  apply Yields.takeSerial h
  intro serial l' h' hserial _
  apply yields_of_parts h' ho hi
  intro outerName innerName outerDoc innerDoc
  refine (Yields.node h' ⟨rfl, ?_, ?_, ?_, ?_, ?_⟩).mono ?_
  · refine ⟨?_, ⟨_, rfl, by simp⟩, ⟨_, rfl, by simp⟩, parts_pair ho hi⟩
    exact .unary _ _ (h'.sound outer ho).regular (h'.sound inner hi).regular
  · intro d rs hrs
    cases d <;> cases hrs
  · refine ⟨(fun h => nomatch h), fun _ d us hus => ?_, by simp [Ty.evident]⟩
    cases d <;> cases hus
  · exact hserial.lt
  · exact hserial.sameOrigin _
  · rintro _ ns' t _ ⟨ht, rfl, -⟩
    exact ⟨ht, _, rfl⟩

/-- A copy of a node has the edges that the node has at this moment. -/
lemma yields_relabel (h : WellFormed terms l ns) {t : Ty} (ht : t ∈ ns) {names? docs? : Option (List String)}
    (hnames : ∀ new, names? = some new → ∃ old, t.label.names? = some old ∧ new.getLast? = old.getLast?)
    (hdocs : terms.documented → docs? ≠ some []) :
    Yields terms l ns (Build.relabel t names? docs?) fun _ ns' u => u ∈ ns' ∧ t.SameOrigin u := by
  apply Yields.get
  have hsound := h.sound t ht
  have hlt : t.id < l.entries.size := h.length ▸ h.id_lt ht
  obtain ⟨names, holdNames, hne⟩ := hsound.named
  obtain ⟨docs, holdDocs, hdoc⟩ := hsound.documented
  -- the copy takes over what is stored by now, and works out the rest for itself
  have hstored : ∀ d, (l.entries[t.id]?.getD .empty).get? d = l.stored? d t.id := by
    intro d
    rw [Lattice.stored?, Array.getElem?_eq_getElem hlt]
    rfl
  have horigin : ∀ id, t.SameOrigin (t.setLabel
      ⟨id, t.label.serial, names?.or t.label.names?, docs?.or t.label.docs?⟩) := by
    intro id
    refine ⟨by rw [Ty.serial, Ty.serial, Ty.label_setLabel], by rw [Ty.label_setLabel], ?_⟩
    cases names? with
    | none => rw [Ty.canonicalName, Ty.canonicalName, Ty.names, Ty.names, Ty.label_setLabel]; rfl
    | some new =>
      obtain ⟨old, hold, hlast⟩ := hnames new rfl
      rw [Ty.canonicalName, Ty.canonicalName, Ty.names, Ty.names, Ty.label_setLabel, hold]
      simp only [Option.some_or, bind, Except.bind, hlast]
  refine (Yields.node h ⟨Ty.id_setLabel _ _, ⟨hsound.regular.setLabel _, ?_, ?_, ?_⟩, ?_, ?_, ?_, ?_⟩).mono ?_
  · rw [Ty.label_setLabel]
    cases names? with
    | none => exact ⟨names, holdNames, hne⟩
    | some new =>
      obtain ⟨old, hold, hlast⟩ := hnames new rfl
      rw [holdNames] at hold
      obtain rfl := Option.some.inj hold
      refine ⟨new, rfl, fun hnil => hne ?_⟩
      rw [hnil, List.getLast?_nil] at hlast
      exact List.getLast?_eq_none_iff.mp hlast.symm
  · rw [Ty.label_setLabel]
    cases docs? with
    | none => exact ⟨docs, holdDocs, hdoc⟩
    | some new => exact ⟨new, rfl, fun hterms hnil => hdocs hterms (by rw [hnil])⟩
  · rw [Ty.parts_setLabel]
    exact hsound.parts
  · intro d rs hrs
    rw [hstored] at hrs
    obtain ⟨us, rfl, hus⟩ := h.stored t ht d rs hrs
    exact ⟨us, rfl, hus.mem, fun u hu => (hus.leads u hu).setLabel _⟩
  · have hget : Edges.get? (l.entries[t.id]?.getD .empty) = fun d => l.stored? d t.id := funext hstored
    rw [hget]
    exact (h.storedAsOffered t ht).setLabel _
  · rw [← (horigin ns.length).serial]
    exact h.serial_lt t ht
  · intro u hu hserial
    rw [← (horigin ns.length).serial] at hserial
    exact (h.sameOrigin u hu t ht hserial).trans (horigin ns.length)
  · rintro _ ns' u _ ⟨hu, rfl, -⟩
    exact ⟨hu, horigin _⟩

lemma makes_suchThat (h : WellFormed terms l ns) (pred : Fn) {parent : Ty} (hp : parent ∈ ns) :
    Makes terms l ns (Build.suchThat pred (.type parent)) := by
  refine (makes_predicate h pred none).bind ?_
  intro guard l' ns' h' hsub _ hguard
  exact makes_compound h' (fun hop => by cases hop) hguard (hsub hp)

/-- A change of metadata makes a copy. -/
abbrev Copies (terms : Terms) (l : Lattice) (ns : List Ty) (t : Ty) (x : Build Ty) : Prop :=
  Yields terms l ns x fun _ ns' u => u ∈ ns' ∧ t.SameOrigin u

lemma Copies.makes {t : Ty} {x : Build Ty} (h : Copies terms l ns t x) : Makes terms l ns x :=
  h.mono fun _ _ _ _ hu => hu.1

/-- A type at hand has names to start from. -/
lemma Yields.names {α : Type} {Q : Lattice → List Ty → α → Prop} (h : WellFormed terms l ns) {parent : Ty}
    (hp : parent ∈ ns) {f : List String → Build α}
    (hf : ∀ names, parent.label.names? = some names → names ≠ [] → Yields terms l ns (f names) Q) :
    Yields terms l ns (Build.ofAttempt parent.names >>= f) Q := by
  obtain ⟨names, hnames, hne⟩ := (h.sound parent hp).named
  have hnames' : parent.names = .ok names := by rw [Ty.names, hnames]
  apply Yields.attempt h fun _ => ⟨names, hnames'⟩
  intro names' hsame
  obtain rfl := Except.ok.inj (hnames'.symm.trans hsame)
  exact hf names hnames hne

lemma copies_withAlias (h : WellFormed terms l ns) (name : String) {parent : Ty} (hp : parent ∈ ns) :
    Copies terms l ns parent (Build.withAlias name (.type parent)) := by
  apply Yields.attempt h fun _ => ⟨parent, rfl⟩
  rintro _ ⟨⟩
  apply Yields.names h hp
  intro names hnames hne
  apply yields_relabel h hp _ (by simp)
  rintro new ⟨⟩
  refine ⟨names, hnames, ?_⟩
  rw [List.getLast?_cons, List.getLast?_eq_some_getLast hne]
  rfl

lemma copies_withoutAlias (h : WellFormed terms l ns) {parent : Ty} (hp : parent ∈ ns) :
    Copies terms l ns parent (Build.withoutAlias (.type parent)) := by
  apply Yields.attempt h fun _ => ⟨parent, rfl⟩
  rintro _ ⟨⟩
  apply Yields.names h hp
  intro names hnames hne
  by_cases hone : names.length = 1
  · rw [if_pos hone]
    exact Yields.pure h ⟨hp, .refl parent⟩
  · rw [if_neg hone]
    apply yields_relabel h hp _ (by simp)
    rintro new ⟨⟩
    refine ⟨names, hnames, ?_⟩
    rcases names with _ | ⟨first, _ | ⟨second, rest⟩⟩
    · exact absurd rfl hne
    · exact absurd rfl hone
    · rw [List.tail_cons, List.getLast?_cons_cons]

lemma copies_withMetadata (h : WellFormed terms l ns) {docs : List String}
    (hdocs : terms.documented → docs ≠ []) {parent : Ty} (hp : parent ∈ ns) :
    Copies terms l ns parent (Build.withMetadata none (some docs) (.type parent)) := by
  apply Yields.attempt h fun _ => ⟨parent, rfl⟩
  rintro _ ⟨⟩
  exact yields_relabel h hp (by simp) (by simpa using hdocs)

end Constructors

section Asking

variable {terms : Terms} {l : Lattice} {ns : List Ty}

/-- What a type answers when it is asked for its edges: edges that constructors declare, and all that it
offers. -/
structure Answers (l : Lattice) (ns : List Ty) (d : Direction) (t : Ty) (us : List Ty) : Prop
    extends Declared ns d t us where
  exact : l.Exact d t us

lemma Answers.mono {l' : Lattice} {ns' : List Ty} {d : Direction} {t : Ty} {us : List Ty}
    (ha : Answers l ns d t us) (h : WellFormed terms l ns) (ht : t ∈ ns) (hns : ns ⊆ ns')
    (hl : l.Grows l') : Answers l' ns' d t us :=
  ⟨ha.toDeclared.mono hns, ha.exact.transfer (h.offers_iff hl (.node ht))⟩

lemma WellFormed.answers (h : WellFormed terms l ns) {d : Direction} {t : Ty} (ht : t ∈ ns)
    {rs : List Referent} (hs : l.stored? d t.id = some rs) :
    ∃ us, rs = us.map .type ∧ Answers l ns d t us := by
  obtain ⟨us, rfl, hus⟩ := h.stored t ht d rs hs
  exact ⟨us, rfl, hus, h.exact ht hs⟩

lemma yields_kept (h : WellFormed terms l ns) {d : Direction} {t : Ty} (ht : t ∈ ns)
    {work : Build (List Referent)} (hwork : t.isContainer = true →
      Yields terms l ns work fun l' ns' rs => ∃ us, rs = us.map .type ∧ Answers l' ns' d t us) :
    Yields terms l ns (Build.kept d t.id work) fun l' ns' rs =>
      (∃ us, rs = us.map .type ∧ Answers l' ns' d t us) ∧ l'.stored? d t.id = some rs := by
  rcases hs : l.stored? d t.id with _ | rs
  · have hcontainer : t.isContainer = true := by
      by_contra hleaf
      obtain ⟨rs, hrs⟩ := (h.storedAsOffered t ht).settled (by simpa using hleaf) d
      rw [hs] at hrs
      cases hrs
    obtain ⟨ns', hpop, hsub, hgrows, htotal, hQ⟩ := hwork hcontainer
    rcases hrun : work l with ⟨fault | rs, l'⟩
    · rw [hrun] at hpop hgrows htotal
      apply Yields.of_eq (Build.kept_of_error hs hrun) hpop hsub hgrows
      · intro hdoc
        obtain ⟨a, ha⟩ := htotal hdoc
        cases ha
      · rintro _ ⟨⟩
    · rw [hrun] at hpop hgrows hQ
      obtain ⟨us, rfl, hus⟩ := hQ rs rfl
      have hlt : t.id < l'.entries.size := hpop.length ▸ hpop.id_lt (hsub ht)
      have hpop' := hpop.store (hsub ht) hcontainer hus.toDeclared hus.exact
      have hstored : (l'.store d t.id (us.map .type)).stored? d t.id = some (us.map .type) := by
        rw [Lattice.stored?_store, if_pos ⟨rfl, rfl, hlt⟩]
      apply Yields.of_eq (Build.kept_of_ok hs hrun) hpop' hsub
      -- what is stored was missing before, so nothing is overwritten
      · intro d' id rs' hrs'
        rw [Lattice.stored?_store]
        split
        · rename_i hsame
          rw [hsame.1, hsame.2.1, hs] at hrs'
          cases hrs'
        · exact hgrows d' id rs' hrs'
      · exact fun _ => ⟨_, rfl⟩
      · rintro _ ⟨⟩
        exact ⟨hpop'.answers (hsub ht) hstored, hstored⟩
  · apply Yields.of_eq (Build.kept_of_stored hs work) h (List.Subset.refl ns) (.refl l)
    · exact fun _ => ⟨_, rfl⟩
    · rintro _ ⟨⟩
      exact ⟨h.answers ht hs, hs⟩

lemma exists_types {rs : List Referent} {P : Ty → Prop} (h : ∀ r ∈ rs, ∃ u, r = .type u ∧ P u) :
    ∃ us : List Ty, rs = us.map .type ∧ ∀ u ∈ us, P u := by
  induction rs with
  | nil => exact ⟨[], rfl, by simp⟩
  | cons r rs ih =>
    obtain ⟨u, rfl, hu⟩ := h r List.mem_cons_self
    obtain ⟨us, rfl, hus⟩ := ih fun r' hr' => h r' (List.mem_cons_of_mem _ hr')
    refine ⟨u :: us, rfl, fun v hv => ?_⟩
    rcases List.mem_cons.mp hv with rfl | hv
    · exact hu
    · exact hus v hv

/-- Nodes that a container offers are its answer if they leave nothing out. -/
lemma answers_of_offers (h : WellFormed terms l ns) {d : Direction} {t : Ty} (ht : t.Spanned ns)
    (hcontainer : t.isContainer = true) {rs : List Referent}
    (hrs : ∀ r ∈ rs, ∃ u, r = .type u ∧ u ∈ ns ∧ l.Offers d t u)
    (hall : ∀ u, l.Offers d t u → ∃ u', .type u' ∈ rs ∧ u.Alike u') :
    ∃ us, rs = us.map .type ∧ Answers l ns d t us := by
  obtain ⟨us, rfl, hus⟩ := exists_types hrs
  refine ⟨us, rfl, ⟨fun u hu => (hus u hu).1, fun u hu => (h.offered ht (hus u hu).2).2, ?_⟩,
    fun u hu => (hus u hu).2, fun u hu => ?_⟩
  · rintro label op ts rfl
    cases hcontainer
  · obtain ⟨u', hu', halike⟩ := hall u hu
    obtain ⟨v, hv, hvu⟩ := List.mem_map.mp hu'
    exact ⟨u', Referent.type.inj hvu ▸ hv, halike⟩

/-- A reference to a new container with the given parts. -/
def NewContainer (ns : List Ty) (extractor : Fn) (parts : Ty × Ty) (r : Referent) : Prop :=
  ∃ label, r = .type (.unary label parts.1 extractor parts.2) ∧ .unary label parts.1 extractor parts.2 ∈ ns

lemma yields_containers (h : WellFormed terms l ns) {outer : Ty} (ho : outer ∈ ns) (extractor : Fn)
    {inners : List Ty} (hi : inners ⊆ ns) :
    Yields terms l ns ((inners.map Referent.type).mapM fun i => do
      return Referent.type (← Build.container (.type outer) extractor i)) fun _ ns' rs =>
        List.Forall₂ (NewContainer ns' extractor) (inners.map (outer, ·)) rs := by
  refine (Yields.mapM (P := fun r ns' b => ∀ i, r = .type i → NewContainer ns' extractor (outer, i) b)
    ?_ h ?_).mono ?_
  · rintro r ns ns' b hsub hb i rfl
    obtain ⟨label, rfl, hmem⟩ := hb i rfl
    exact ⟨label, rfl, hsub hmem⟩
  · intro r hr l' ns' h' hsub
    obtain ⟨i, hi', rfl⟩ := List.mem_map.mp hr
    refine (makes_container h' (hsub ho) (hsub (hi hi')) extractor).bind ?_
    rintro t l'' ns'' h'' _ _ ⟨ht, label, rfl⟩
    apply Yields.pure h''
    rintro _ ⟨⟩
    exact ⟨label, rfl, ht⟩
  · intro _ ns' rs _ hrs
    rw [List.forall₂_map_left_iff] at hrs ⊢
    exact hrs.imp fun i r hir => hir i rfl

lemma yields_containerSupersets (h : WellFormed terms l ns) {outer inner : Ty} (ho : outer ∈ ns)
    (hi : inner ∈ ns) (extractor : Fn) {is : List Ty} (his : Answers l ns .supersets inner is)
    (label : Label) :
    Yields terms l ns (Build.containerSupersets outer extractor (is.map .type)) fun l' ns' rs =>
      ∃ us, rs = us.map .type ∧ Answers l' ns' .supersets (.unary label outer extractor inner) us := by
  refine (yields_containers h ho extractor his.mem).bind ?_
  intro rs l' ns' h' hsub hgrows hrs
  apply Yields.pure h'
  have hexact := (his.mono h hi hsub hgrows).exact
  apply answers_of_offers h' (.unary label extractor (.node (hsub ho)) (.node (hsub hi))) rfl
  · intro r hr
    rcases List.mem_cons.mp hr with rfl | hr
    · exact ⟨outer, rfl, hsub ho, .outer⟩
    · obtain ⟨p, hp, label', rfl, hmem⟩ := exists_related_left hrs hr
      obtain ⟨i, hi', rfl⟩ := List.mem_map.mp hp
      exact ⟨_, rfl, hmem, .widenInner (hexact.offered i hi')⟩
  · intro u hu
    cases hu with
    | stored hleaf => cases hleaf
    | outer => exact ⟨outer, List.mem_cons_self, .refl outer⟩
    | widenInner hinner =>
      obtain ⟨i, hi', halike⟩ := hexact.complete _ hinner
      obtain ⟨r, hr, label', rfl, -⟩ := exists_related_right hrs (List.mem_map_of_mem hi')
      exact ⟨_, List.mem_cons_of_mem _ hr, .unary extractor (.refl outer) halike⟩

/-- The inner parts that go with an outer part among the subsets of a container. -/
def narrowedInners (outer inner : Ty) (is : List Ty) (o : Ty) : List Ty :=
  if o.id = outer.id then is else inner :: is

lemma yields_narrowed (h : WellFormed terms l ns) {outer inner : Ty} (ho : outer ∈ ns) (hi : inner ∈ ns)
    (extractor : Fn) {os is : List Ty} (hos : os ⊆ ns) (his : is ⊆ ns) :
    Yields terms l ns
      (Build.containerSubsets outer extractor inner (os.map .type) (is.map .type)) fun _ ns' rs =>
        List.Forall₂ (NewContainer ns' extractor)
          ((outer :: os).flatMap fun o => (narrowedInners outer inner is o).map (o, ·)) rs := by
  let row : Referent → Build (List Referent) := fun o =>
    (if o.isSame (.type outer) then is.map Referent.type else .type inner :: is.map .type).mapM
      fun i => do return .type (← Build.container o extractor i)
  have hrows : Yields terms l ns (((outer :: os).map Referent.type).mapM row) fun _ ns' rows =>
      List.Forall₂ (fun r rs => ∀ o, r = Referent.type o → List.Forall₂ (NewContainer ns' extractor)
        ((narrowedInners outer inner is o).map (o, ·)) rs) ((outer :: os).map Referent.type) rows := by
    apply Yields.mapM (P := fun r ns' rs => ∀ o, r = Referent.type o →
      List.Forall₂ (NewContainer ns' extractor) ((narrowedInners outer inner is o).map (o, ·)) rs) _ h
    · intro r hr l' ns' h' hsub
      obtain ⟨o, ho', rfl⟩ := List.mem_map.mp hr
      have hmem : o ∈ ns := List.cons_subset.mpr ⟨ho, hos⟩ ho'
      have hinners : narrowedInners outer inner is o ⊆ ns' := by
        intro i hi'
        unfold narrowedInners at hi'
        split at hi'
        · exact hsub (his hi')
        · exact hsub (List.cons_subset.mpr ⟨hi, his⟩ hi')
      have hif : (if (Referent.type o).isSame (.type outer) then is.map Referent.type
          else .type inner :: is.map .type) = (narrowedInners outer inner is o).map .type := by
        by_cases hid : o.id = outer.id <;> simp [narrowedInners, Referent.isSame, hid]
      dsimp only [row]
      rw [hif]
      refine (yields_containers h' (hsub hmem) extractor hinners).mono ?_
      rintro _ _ _ _ hrs _ ⟨⟩
      exact hrs
    · intro r ns ns' rs hsub hrs o hr
      refine (hrs o hr).imp ?_
      rintro p _ ⟨label, rfl, hmem⟩
      exact ⟨label, rfl, hsub hmem⟩
  refine hrows.bind ?_
  intro rows l' ns' h' _ _ hrows
  apply Yields.pure h'
  rw [List.forall₂_map_left_iff] at hrows
  rw [List.flatMap_def]
  apply List.rel_flatten
  rw [List.forall₂_map_left_iff]
  exact hrows.imp fun o rs ho => ho o rfl

lemma yields_containerSubsets (h : WellFormed terms l ns) {outer inner : Ty} (ho : outer ∈ ns)
    (hi : inner ∈ ns) (extractor : Fn) {os is : List Ty} (hos : Answers l ns .subsets outer os)
    (his : Answers l ns .subsets inner is) (label : Label) :
    Yields terms l ns
      (Build.containerSubsets outer extractor inner (os.map .type) (is.map .type)) fun l' ns' rs =>
        ∃ us, rs = us.map .type ∧ Answers l' ns' .subsets (.unary label outer extractor inner) us := by
  obtain ⟨ns', h', hsub, hgrows, htotal, hQ⟩ := yields_narrowed h ho hi extractor hos.mem his.mem
  refine ⟨ns', h', hsub, hgrows, htotal, fun rs hrun => ?_⟩
  have hrs := hQ rs hrun
  have houters := (hos.mono h ho hsub hgrows).exact
  have hinners := (his.mono h hi hsub hgrows).exact
  -- a subset of the outer part is another node, so the inner part may stay with it
  have hother : ∀ o ∈ os, narrowedInners outer inner is o = inner :: is := by
    intro o ho'
    refine if_neg fun hid => ?_
    have hlt := (hos.leads o ho').size_lt
    rw [h.unique (hos.mem ho') ho hid] at hlt
    omega
  have hfound : ∀ {o i}, o ∈ outer :: os → i ∈ narrowedInners outer inner is o →
      ∃ label', .type (.unary label' o extractor i) ∈ rs := by
    intro o i ho' hi'
    have hp : (o, i) ∈ (outer :: os).flatMap fun o => (narrowedInners outer inner is o).map (o, ·) :=
      List.mem_flatMap.mpr ⟨o, ho', List.mem_map_of_mem hi'⟩
    obtain ⟨r, hr, label', rfl, -⟩ := exists_related_right hrs hp
    exact ⟨label', hr⟩
  apply answers_of_offers h' (.unary label extractor (.node (hsub ho)) (.node (hsub hi))) rfl
  · intro r hr
    obtain ⟨p, hp, label', rfl, hmem⟩ := exists_related_left hrs hr
    obtain ⟨o, ho', hp⟩ := List.mem_flatMap.mp hp
    obtain ⟨i, hi', rfl⟩ := List.mem_map.mp hp
    refine ⟨_, rfl, hmem, ?_⟩
    rcases List.mem_cons.mp ho' with rfl | ho'
    · rw [narrowedInners, if_pos rfl] at hi'
      exact .narrowInner (hinners.offered i hi')
    · rw [hother o ho'] at hi'
      rcases List.mem_cons.mp hi' with rfl | hi'
      · exact .narrowOuter (houters.offered o ho')
      · exact .narrowBoth (houters.offered o ho') (hinners.offered i hi')
  · intro u hu
    cases hu with
    | stored hleaf => cases hleaf
    | narrowInner hinner =>
      obtain ⟨i, hi', halike⟩ := hinners.complete _ hinner
      obtain ⟨label', hr⟩ := hfound List.mem_cons_self (i := i)
        (by rw [narrowedInners, if_pos rfl]; exact hi')
      exact ⟨_, hr, .unary extractor (.refl outer) halike⟩
    | narrowOuter houter =>
      obtain ⟨o, ho', halike⟩ := houters.complete _ houter
      obtain ⟨label', hr⟩ := hfound (List.mem_cons_of_mem _ ho') (i := inner)
        (by rw [hother o ho']; exact List.mem_cons_self)
      exact ⟨_, hr, .unary extractor halike (.refl inner)⟩
    | narrowBoth houter hinner =>
      obtain ⟨o, ho', halike⟩ := houters.complete _ houter
      obtain ⟨i, hi', halike'⟩ := hinners.complete _ hinner
      obtain ⟨label', hr⟩ := hfound (List.mem_cons_of_mem _ ho') (i := i)
        (by rw [hother o ho']; exact List.mem_cons_of_mem _ hi')
      exact ⟨_, hr, .unary extractor halike halike'⟩

/-- Asking a node for its edges leads to a well-formed lattice in which they are stored. -/
theorem yields_edges (h : WellFormed terms l ns) {t : Ty} (ht : t ∈ ns) (d : Direction) :
    Yields terms l ns (t.edges d) fun l' ns' rs =>
      (∃ us, rs = us.map .type ∧ Answers l' ns' d t us) ∧ l'.stored? d t.id = some rs := by
  -- Only the parts of a container are asked in turn, and they are smaller.
  induction hn : t.size using Nat.strong_induction_on generalizing t l ns d with
  | _ n ih =>
    cases t with
    | unary label outer extractor inner =>
      obtain ⟨ho, hi⟩ := h.parts_mem ht rfl
      simp only [Ty.size] at hn
      cases d with
      | subsets =>
        refine yields_kept h ht fun _ => ?_
        refine (ih outer.size (by omega) h ho .subsets rfl).bind ?_
        rintro _ l' ns' h' hsub _ ⟨⟨os, rfl, hos⟩, -⟩
        refine (ih inner.size (by omega) h' (hsub hi) .subsets rfl).bind ?_
        rintro _ l'' ns'' h'' hsub' hgrows ⟨⟨is, rfl, his⟩, -⟩
        exact yields_containerSubsets h'' (hsub' (hsub ho)) (hsub' (hsub hi)) extractor
          (hos.mono h' (hsub ho) hsub' hgrows) his label
      | supersets =>
        refine yields_kept h ht fun _ => ?_
        refine (ih inner.size (by omega) h hi .supersets rfl).bind ?_
        rintro _ l' ns' h' hsub _ ⟨⟨is, rfl, his⟩, -⟩
        exact yields_containerSupersets h' (hsub ho) (hsub hi) extractor his label
    | _ =>
      cases d <;>
        refine yields_kept h ht fun hcontainer => ?_ <;>
        cases hcontainer

end Asking

end StructuralTypes
