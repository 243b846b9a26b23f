import StructuralTypes.Proofs.Interchange

/-!
# Copies with other metadata

A type and the copies of it under other names and docs are interchangeable, however many copies lie
between them and whatever happened to the lattice since they were made. They have the same canonical
name, test values alike, compare alike, are found to contain the same and to be contained in the same,
and so do the types that an operator makes of the one and of the other.
-/

namespace StructuralTypes

open Relation

/-- The operators on two types. -/
inductive Combining where
  | operator (op : Operator)
  | without
  | container (extractor : Fn)

def Combining.refiner : Combining → Ty → Refiner
  | .operator op, left => .operator op left
  | .without, left => .without left
  | .container extractor, outer => .container outer extractor

/-- At some point of how the lattice came about, `f` was applied to `operand` and gave `result`. -/
inductive Resulted (terms : Terms) (f : Refiner) (operand result : Ty) : Lattice → List Ty → Prop
  | now {l : Lattice} {ts : List Ty} : Made terms l ts → f.Allowed terms ts → operand ∈ ts →
      (f.apply (.type operand) l).1 = .ok result →
      Resulted terms f operand result (f.apply (.type operand) l).2 (result :: ts)
  | later {l : Lattice} {ts : List Ty} (a : Act) : Resulted terms f operand result l ts →
      a.Allowed terms ts →
      Resulted terms f operand result (a.run l).2 (Act.gained (a.run l).1 ++ ts)

section History

variable {terms : Terms} {l : Lattice} {ns ts : List Ty} {f : Refiner} {operand result : Ty}

/-- An allowed act overwrites nothing. -/
lemma grows_act (h : WellFormed terms l ns) {a : Act} (ha : a.Allowed terms ns) : l.Grows (a.run l).2 := by
  have hone : ∀ {x : Build Ty} {Q : Lattice → List Ty → Ty → Prop}, Yields terms l ns x Q →
      l.Grows ((do return [← x] : Build (List Ty)) l).2 := by
    intro x Q hx
    obtain ⟨-, -, -, hgrows, -⟩ := hx
    rw [bind_apply]
    rcases hrun : x l with ⟨fault | t, l'⟩ <;> rw [hrun] at hgrows <;> exact hgrows
  have hnone : ∀ {α : Type} {x : Build α} {g : α → List Ty}, l.Grows (x l).2 →
      l.Grows ((do return g (← x) : Build (List Ty)) l).2 := by
    intro α x g hgrows
    rw [bind_apply]
    rcases hrun : x l with ⟨fault | r, l'⟩ <;> rw [hrun] at hgrows <;> exact hgrows
  cases a with
  | any => exact hone (makes_any h)
  | predicate pred name? => exact hone (makes_predicate h pred name?)
  | refine f t => exact hone (makes_apply h ha.1 ha.2)
  | compose name base fs => exact hone (makes_compose h name ha.1 ha.2)
  | parts t => exact .refl l
  | edges d t =>
    obtain ⟨-, -, -, hgrows, -⟩ := yields_edges h ha d
    exact hnone hgrows
  | search sup sub =>
    obtain ⟨-, -, -, hgrows, -⟩ := supersedes_outcome (WellFormed.walkable terms) h ha.1 ha.2
    exact hnone hgrows
  | explore d root =>
    obtain ⟨-, -, -, hgrows, -⟩ := reachable_outcome (WellFormed.explorable terms d) h ha
    exact hnone hgrows

namespace Resulted

lemma made (h : Resulted terms f operand result l ts) : Made terms l ts := by
  induction h with
  | @now l ts h hf ht hrun =>
    have hmade := h.act (.refine f operand) ⟨hf, ht⟩
    have hact : (Act.refine f operand).run l = (.ok [result], (f.apply (.type operand) l).2) := by
      rw [Act.run]
      exact bind_of_ok (Prod.ext hrun rfl)
    rw [hact] at hmade
    exact hmade
  | later a _ ha ih => exact ih.act a ha

lemma mem (h : Resulted terms f operand result l ts) :
    f.Allowed terms ts ∧ operand ∈ ts ∧ result ∈ ts := by
  induction h with
  | now h hf ht hrun =>
    exact ⟨hf.mono (List.subset_cons_self _ _), List.mem_cons_of_mem _ ht, List.mem_cons_self⟩
  | later a _ ha ih =>
    exact ⟨ih.1.mono (List.subset_append_right _ _), List.mem_append_right _ ih.2.1,
      List.mem_append_right _ ih.2.2⟩

/-- What holds right after the application and goes on to hold as the lattice grows. -/
lemma holds (h : Resulted terms f operand result l ts) {P : Lattice → Prop}
    (hnow : ∀ l₀ ns₀ l₁ ns₁, WellFormed terms l₀ ns₀ → f.Allowed terms ns₀ → operand ∈ ns₀ →
      f.apply (.type operand) l₀ = (.ok result, l₁) → WellFormed terms l₁ ns₁ → ns₀ ⊆ ns₁ → result ∈ ns₁ →
      l₀.Grows l₁ → P l₁)
    (hlater : ∀ l₀ ns₀ l₁, WellFormed terms l₀ ns₀ → f.Allowed terms ns₀ → operand ∈ ns₀ → result ∈ ns₀ →
      l₀.Grows l₁ → P l₀ → P l₁) : P l := by
  induction h with
  | @now l ts h hf ht hrun =>
    obtain ⟨ns, hpop, hns⟩ := h.wellFormed
    obtain ⟨ns', hpop', hns', hgrows, -, hmem⟩ := makes_apply hpop (hf.mono hns) (hns ht)
    exact hnow l ns _ ns' hpop (hf.mono hns) (hns ht) (Prod.ext hrun rfl) hpop' hns' (hmem result hrun) hgrows
  | @later l ts a h ha ih =>
    obtain ⟨ns, hpop, hns⟩ := h.made.wellFormed
    obtain ⟨hf, ht, hr⟩ := h.mem
    exact hlater l ns _ hpop (hf.mono hns) (hns ht) (hns hr) (grows_act hpop (ha.mono hns)) ih

end Resulted

end History

section Copying

variable {terms : Terms} {l l' : Lattice} {ns : List Ty} {t u : Ty}

/-- A copy takes over the edges that are stored. -/
lemma stored?_of_relabel (hlt : t.id < l.entries.size) {names? docs? : Option (List String)}
    (hrun : Build.relabel t names? docs? l = (.ok u, l')) (d : Direction) :
    l'.stored? d t.id = l'.stored? d u.id := by
  obtain ⟨hu, rfl⟩ := Prod.mk.inj hrun
  obtain rfl := Except.ok.inj hu
  rw [Ty.id_setLabel]
  change Lattice.stored? { l with entries := l.entries.push _ } d t.id =
    Lattice.stored? { l with entries := l.entries.push _ } d l.entries.size
  rw [Lattice.stored?_push, Lattice.stored?_push, if_neg (Nat.ne_of_lt hlt), if_pos rfl,
    Array.getElem?_eq_getElem hlt, Lattice.stored?, Array.getElem?_eq_getElem hlt]
  rfl

lemma stored?_of_copying (h : WellFormed terms l ns) (ht : t ∈ ns) {copying : Copying}
    (hrun : copying.refiner.apply (.type t) l = (.ok u, l')) (d : Direction) :
    l'.stored? d t.id = l'.stored? d u.id := by
  have hlt : t.id < l.entries.size := h.length ▸ h.id_lt ht
  cases copying with
  | withAlias name =>
    obtain ⟨_, ⟨⟩, hnaming⟩ := exists_of_attempt hrun
    obtain ⟨names, -, hcopy⟩ := exists_of_attempt hnaming
    exact stored?_of_relabel hlt hcopy d
  | withoutAlias =>
    obtain ⟨_, ⟨⟩, hnaming⟩ := exists_of_attempt hrun
    obtain ⟨names, -, hcopy⟩ := exists_of_attempt hnaming
    by_cases hone : names.length = 1
    · rw [if_pos hone, pure_apply] at hcopy
      cases hcopy
      rfl
    · rw [if_neg hone] at hcopy
      exact stored?_of_relabel hlt hcopy d
  | withDocs doc more =>
    obtain ⟨_, ⟨⟩, hcopy⟩ := exists_of_attempt hrun
    exact stored?_of_relabel hlt hcopy d

lemma Resulted.copied {ts : List Ty} {copying : Copying} (h : Resulted terms copying.refiner t u l ts) :
    l.Copied t u := by
  apply h.holds
  · intro l₀ ns₀ l₁ ns₁ hpop _ ht hrun _ _ _ _
    obtain ⟨_, _, _, _, _, hQ⟩ := copies_apply hpop copying ht
    rw [hrun] at hQ
    exact ⟨(hQ u rfl).2, fun _ d => stored?_of_copying hpop ht hrun d⟩
  · intro l₀ ns₀ l₁ hpop _ ht _ hgrows hcopied
    exact hpop.copied_of_grows hgrows ht hcopied

end Copying

section Combining

variable {terms : Terms} {l l' : Lattice} {ns : List Ty} {a a' b b' p q : Ty}

/-- What an operator makes of two types in the given lattice: how it is made of them, what it is called
and where it leads. -/
def Lattice.Combines (l : Lattice) (a b p : Ty) : Combining → Prop
  | .operator op => Merges op a b p ∧ ∀ d u, l.Offers d p u ↔ l.Declares a b op d u
  | .without => ∃ label taken aName takenName, p = .without label a taken ∧ Excludes b taken ∧
      a.canonicalName = .ok aName ∧ taken.canonicalName = .ok takenName ∧
      p.canonicalName = .ok ("(" ++ aName ++ " \\ " ++ takenName ++ ")") ∧
      ∀ d u, l.Offers d p u ↔ d = .supersets ∧ u = a
  | .container extractor => ∃ label aName bName, p = .unary label a extractor b ∧
      a.canonicalName = .ok aName ∧ b.canonicalName = .ok bName ∧
      p.canonicalName = .ok ("(" ++ aName ++ " " ++ bName ++ ")")

/-- The last step of a constructor: what is stored for the new node are the edges it is given. -/
lemma stored?_of_register {e : Edges} {t : Nat → Ty} (ht : ∀ id, (t id).id = id)
    (h : (do return t (← Build.register e) : Build Ty) l = (.ok p, l')) :
    p = t l.entries.size ∧ ∀ d, l'.stored? d p.id = e.get? d := by
  obtain ⟨hp, rfl⟩ := Prod.mk.inj h
  obtain rfl := Except.ok.inj hp
  refine ⟨rfl, fun d => ?_⟩
  rw [ht]
  exact (Lattice.stored?_push l e d l.entries.size).trans (if_pos rfl)

/-- What an operator that succeeds has merged and declared. -/
lemma merged_of_compound {op : Operator} (hrun : Build.compound op (.type a) (.type b) l = (.ok p, l')) :
    ∃ edges, Merges op a b p ∧
      Build.declaredEdges { l with nextSerial := l.nextSerial + 1 } (.type a) (.type b) op = .ok edges ∧
      ∀ d, l'.stored? d p.id = edges.get? d := by
  obtain ⟨serial, l₁, hserial, hrest⟩ := exists_of_bind hrun
  obtain ⟨-, rfl⟩ := Prod.mk.inj hserial
  obtain ⟨ranked, hranked, hrest⟩ := exists_of_attempt hrest
  obtain ⟨docs, -, hrest⟩ := exists_of_attempt hrest
  rw [get_bind] at hrest
  obtain ⟨edges, hedges, hrest⟩ := exists_of_attempt hrest
  obtain ⟨rfl, hstored⟩ := stored?_of_register (fun _ => rfl) hrest
  exact ⟨edges, ⟨_, ranked, hranked, rfl, rfl⟩, hedges, hstored⟩

lemma combines_operator (h : WellFormed terms l ns) (ha : a ∈ ns) (hb : b ∈ ns) {op : Operator}
    (hrun : Build.compound op (.type a) (.type b) l = (.ok p, l')) (hgrows : l.Grows l') :
    l'.Combines a b p (.operator op) := by
  have h₁ := h.withSerial (Nat.le_succ l.nextSerial)
  obtain ⟨edges, hmerges, hedges, hstored⟩ := merged_of_compound hrun
  have hleaf : p.isContainer = false := by
    obtain ⟨label, ranked, -, rfl, -⟩ := hmerges
    rfl
  refine ⟨hmerges, fun d u => ?_⟩
  obtain ⟨us, hus, hiff⟩ := mem_declaredEdges_iff h₁ ha hb hedges d
  have hgrows₁ : Lattice.Grows { l with nextSerial := l.nextSerial + 1 } l' := hgrows
  rw [h₁.declares_iff hgrows₁ ha hb, ← hiff u, ← Lattice.edge_iff ((hstored d).trans hus)]
  exact ⟨fun hoffers => hoffers.edge hleaf, .stored hleaf⟩

/-- Exclusions and containers get past asking both parts for a name and a doc. -/
lemma exists_of_parts {aRef bRef : Referent} {k : Ty → String → Ty → String → String → String → Build Ty}
    (h : (do
      let aType ← Build.ofAttempt (aRef.expect .canonicalName)
      let aName ← Build.ofAttempt aType.canonicalName
      let bType ← Build.ofAttempt (bRef.expect .canonicalName)
      let bName ← Build.ofAttempt bType.canonicalName
      let aDoc ← Build.ofAttempt aType.firstDoc
      let bDoc ← Build.ofAttempt bType.firstDoc
      k aType aName bType bName aDoc bDoc) l = (.ok p, l')) :
    ∃ a b aName bName aDoc bDoc, aRef = .type a ∧ bRef = .type b ∧ a.canonicalName = .ok aName ∧
      b.canonicalName = .ok bName ∧ k a aName b bName aDoc bDoc l = (.ok p, l') := by
  have htype : ∀ {r : Referent} {t : Ty}, r.expect .canonicalName = .ok t → r = .type t := by
    intro r t hr
    cases r with
    | type u => rw [Except.ok.inj hr]
    | plain => cases hr
  obtain ⟨a, ha, h⟩ := exists_of_attempt h
  obtain ⟨aName, haName, h⟩ := exists_of_attempt h
  obtain ⟨b, hb, h⟩ := exists_of_attempt h
  obtain ⟨bName, hbName, h⟩ := exists_of_attempt h
  obtain ⟨aDoc, -, h⟩ := exists_of_attempt h
  obtain ⟨bDoc, -, h⟩ := exists_of_attempt h
  exact ⟨a, b, aName, bName, aDoc, bDoc, htype ha, htype hb, haName, hbName, h⟩

lemma canonicalName_of_names {t : Ty} {name : String} (h : t.label.names? = some [name]) :
    t.canonicalName = .ok name := by
  rw [Ty.canonicalName, Ty.names, h]
  rfl

lemma combines_without (h : WellFormed terms l ns) (hb : b ∈ ns)
    (hrun : Build.without (.type a) (.type b) l = (.ok p, l')) : l'.Combines a b p .without := by
  obtain ⟨serial, l₁, hserial, hrest⟩ := exists_of_bind hrun
  obtain ⟨-, rfl⟩ := Prod.mk.inj hserial
  obtain ⟨r, l₂, hexcluded, hrest⟩ := exists_of_bind hrest
  obtain ⟨_, _, _, _, _, hQ⟩ := yields_excluded (h.withSerial (Nat.le_succ l.nextSerial)) hb
  rw [hexcluded] at hQ
  obtain ⟨⟨taken, rfl, -, hexcludes⟩, -⟩ := hQ r rfl
  obtain ⟨_, _, aName, takenName, aDoc, takenDoc, ⟨⟩, ⟨⟩, haName, htakenName, hnode⟩ := exists_of_parts hrest
  obtain ⟨rfl, hstored⟩ := stored?_of_register (fun _ => rfl) hnode
  refine ⟨_, taken, aName, takenName, rfl, hexcludes, haName, htakenName, canonicalName_of_names rfl, ?_⟩
  intro d u
  have hedge : ∀ us : List Ty, Edges.get? ⟨some [], some [.type a]⟩ d = some (us.map .type) →
      (l'.Offers d _ u ↔ u ∈ us) := fun us hus =>
    Iff.trans ⟨fun hoffers => hoffers.edge rfl, .stored rfl⟩ (Lattice.edge_iff ((hstored d).trans hus))
  cases d with
  | subsets => rw [hedge [] rfl]; simp
  | supersets => rw [hedge [a] rfl]; simp

lemma combines_container {extractor : Fn}
    (hrun : Build.container (.type a) extractor (.type b) l = (.ok p, l')) :
    l'.Combines a b p (.container extractor) := by
  obtain ⟨serial, l₁, hserial, hrest⟩ := exists_of_bind hrun
  obtain ⟨_, _, aName, bName, aDoc, bDoc, ⟨⟩, ⟨⟩, haName, hbName, hnode⟩ := exists_of_parts hrest
  obtain ⟨rfl, -⟩ := stored?_of_register (fun _ => rfl) hnode
  exact ⟨_, aName, bName, rfl, haName, hbName, canonicalName_of_names rfl⟩

lemma WellFormed.combines_of_grows (h : WellFormed terms l ns) (hgrows : l.Grows l') (ha : a ∈ ns)
    (hb : b ∈ ns) (hp : p ∈ ns) {k : Combining} (hk : l.Combines a b p k) : l'.Combines a b p k := by
  cases k with
  | operator op =>
    refine ⟨hk.1, fun d u => ?_⟩
    rw [h.offers_iff hgrows (.node hp), h.declares_iff hgrows ha hb]
    exact hk.2 d u
  | without =>
    obtain ⟨label, taken, aName, takenName, hshape, hexcludes, haName, htakenName, hname, hoffers⟩ := hk
    refine ⟨label, taken, aName, takenName, hshape, hexcludes, haName, htakenName, hname, fun d u => ?_⟩
    rw [h.offers_iff hgrows (.node hp)]
    exact hoffers d u
  | container extractor => exact hk

lemma Resulted.combines {ts : List Ty} {k : Combining} (h : Resulted terms (k.refiner a) b p l ts) :
    l.Combines a b p k := by
  have hleft : ∀ {ns}, (k.refiner a).Allowed terms ns → a ∈ ns := by
    intro ns hf
    cases k with
    | operator op => exact hf.2
    | _ => exact hf
  apply h.holds
  · intro l₀ ns₀ l₁ ns₁ hpop hf hb hrun _ _ _ hgrows
    cases k with
    | operator op => exact combines_operator hpop hf.2 hb hrun hgrows
    | without => exact combines_without hpop hb hrun
    | container extractor => exact combines_container hrun
  · intro l₀ ns₀ l₁ hpop hf hb hp hgrows hk
    exact hpop.combines_of_grows hgrows (hleft hf) hb hp hk

end Combining

section Comparing

variable {terms : Terms} {l : Lattice} {ns : List Ty} {a a' b b' p q s t : Ty}

lemma Ty.SameOrigin.sortKeys (h : a.SameOrigin a') (op : Operator) :
    (a.contribution op).map Ty.sortKey = (a'.contribution op).map Ty.sortKey := by
  unfold Ty.contribution
  rw [← h.absorbed?_eq]
  cases a.absorbed? op with
  | none => simp [h.sortKey]
  | some ts => rfl

/-- What an operator makes of copies is equal and called the same, since they are sorted alike. -/
lemma Merges.of_sameOrigin (h : WellFormed terms l ns) (ha : a ∈ ns) (hb : b ∈ ns) (ha' : a' ∈ ns) (hb' : b' ∈ ns)
    (horigin : a.SameOrigin a') (horigin' : b.SameOrigin b') {op : Operator} (hp : Merges op a b p)
    (hq : Merges op a' b' q) : p.Same q ∧ p.canonicalName = q.canonicalName := by
  obtain ⟨label, ranked, hranked, rfl, hlabel⟩ := hp
  obtain ⟨label', ranked', hranked', rfl, hlabel'⟩ := hq
  obtain ⟨hkeys, hsorted⟩ := mergeOperands_sorted hranked
  obtain ⟨hkeys', hsorted'⟩ := mergeOperands_sorted hranked'
  have hperm := mergeOperands_perm hranked
  have hperm' := mergeOperands_perm hranked'
  have hsame : (ranked.map (·.type)).map Ty.sortKey = (ranked'.map (·.type)).map Ty.sortKey := by
    have hcontributed : (a.contribution op ++ b.contribution op).map Ty.sortKey =
        (a'.contribution op ++ b'.contribution op).map Ty.sortKey := by
      rw [List.map_append, List.map_append, horigin.sortKeys, horigin'.sortKeys]
    apply List.Perm.eq_of_pairwise (fun _ _ _ _ => le_antisymm) hsorted hsorted'
    apply (hperm.map Ty.sortKey).trans
    rw [hcontributed]
    exact (hperm'.map Ty.sortKey).symm
  have hmem := List.Subset.trans hperm.subset (contributions_mem h ha hb op)
  have hmem' := List.Subset.trans hperm'.subset (contributions_mem h ha' hb' op)
  constructor
  · have hoperands := forall₂_sameOrigin hsame fun x hx y hy hserial =>
      h.sameOrigin x (hmem hx) y (hmem' hy) hserial
    have hproper : ∀ x ∈ ranked.map (·.type), x.Proper := fun x hx => (h.sound x (hmem hx)).regular.proper
    rw [Ty.same_compound_iff]
    exact ⟨rfl, ((List.forall₂_and_left _ _).mpr ⟨hproper, hoperands⟩).imp fun _ _ hx => hx.2.same hx.1⟩
  · have hnames : ranked.map (·.canonicalName) = ranked'.map (·.canonicalName) := by
      have hfirst := congrArg (List.map fun key => (ofLex key).1) (hkeys.trans (hsame.trans hkeys'.symm))
      rw [List.map_map, List.map_map] at hfirst
      exact hfirst
    have hname : (Ty.compound label op (ranked.map (·.type))).canonicalName = _ := canonicalName_of_names hlabel
    have hname' : (Ty.compound label' op (ranked'.map (·.type))).canonicalName = _ :=
      canonicalName_of_names hlabel'
    rw [hname, hname', hnames]

/-- What an exclusion takes away is equal for copies and called the same. -/
lemma Excludes.of_sameOrigin (h : WellFormed terms l ns) (hb : b ∈ ns) (horigin : b.SameOrigin b')
    (hs : Excludes b s) (ht : Excludes b' t) : s.Same t ∧ s.canonicalName = t.canonicalName := by
  have hproper := (h.sound b hb).regular.proper
  have hlabel := horigin.relabelled
  cases b with
  | without label left right =>
    obtain ⟨hleft, hright⟩ := h.parts_mem hb rfl
    rw [← hlabel] at ht
    exact Merges.of_sameOrigin h hleft hright hleft hright (.refl left) (.refl right) hs ht
  | _ =>
    rw [← hlabel] at ht
    obtain rfl := hs
    obtain rfl := ht
    rw [hlabel]
    exact ⟨horigin.same hproper, horigin.canonicalName⟩

/-- Copies, and what an operator makes of them, taken in either order. -/
def Lattice.CopiesOrResults (l : Lattice) (p q s t : Ty) : Prop :=
  l.Copied s t ∧ s.Proper ∧ t.Proper ∨ s = p ∧ t = q ∨ s = q ∧ t = p

lemma Lattice.RelatedUpToParts.mono {R R' : Ty → Ty → Prop} (hR : ∀ s t, R s t → R' s t) (h : RelatedUpToParts R s t) :
    RelatedUpToParts R' s t := by
  induction h with
  | refl t => exact .refl t
  | related hst => exact .related (hR _ _ hst)
  | unary extractor _ _ iho ihi => exact .unary extractor iho ihi

lemma Lattice.offerSimulation_copied (l : Lattice) :
    l.OfferSimulation fun s t => l.Copied s t ∧ s.Proper ∧ t.Proper := by
  intro s t hst
  exact ⟨hst.1.sameOrigin.same hst.2.1, fun d u hu => ⟨u, hst.1.offers hu, .refl u⟩⟩

/-- What an operator makes of copies is equal, is called the same and leads to copies. -/
lemma WellFormed.combines_of_copied (h : WellFormed terms l ns) (ha : a ∈ ns) (hb : b ∈ ns) (hp : p ∈ ns)
    (ha' : a' ∈ ns) (hb' : b' ∈ ns) (hq : q ∈ ns) (hcopied : l.Copied a a') (hcopied' : l.Copied b b')
    {k : Combining} (hk : l.Combines a b p k) (hk' : l.Combines a' b' q k) :
    p.Same q ∧ p.canonicalName = q.canonicalName ∧ ∀ d u, l.Offers d p u → ∃ v, l.Offers d q v ∧
      Lattice.RelatedUpToParts (fun s t => l.Copied s t ∧ s.Proper ∧ t.Proper) u v := by
  have hproper : ∀ {d u t}, t ∈ ns → l.Offers d t u → u.Proper := fun ht hu =>
    h.proper (h.offered (.node ht) hu).1
  have hnode : ∀ {t : Ty}, t ∈ ns → t.Proper := fun ht => (h.sound _ ht).regular.proper
  cases k with
  | operator op =>
    obtain ⟨hsame, hname⟩ := Merges.of_sameOrigin h ha hb ha' hb' hcopied.sameOrigin hcopied'.sameOrigin hk.1 hk'.1
    refine ⟨hsame, hname, fun d u hu => ?_⟩
    obtain ⟨v, hv, huv⟩ := hcopied.declares hcopied' ((hk.2 d u).mp hu)
    have hoffers := (hk'.2 d v).mpr hv
    exact ⟨v, hoffers, .related ⟨huv, hproper hp hu, hproper hq hoffers⟩⟩
  | without =>
    obtain ⟨label, taken, aName, takenName, rfl, hexcludes, haName, htakenName, hname, hoffers⟩ := hk
    obtain ⟨label', taken', aName', takenName', rfl, hexcludes', haName', htakenName', hname', hoffers'⟩ := hk'
    obtain ⟨hsame, htaken⟩ := Excludes.of_sameOrigin h hb hcopied'.sameOrigin hexcludes hexcludes'
    refine ⟨.without _ _ (hcopied.sameOrigin.same (hnode ha)) hsame, ?_, fun d u hu => ?_⟩
    · obtain rfl : aName = aName' := Except.ok.inj (haName.symm.trans (hcopied.sameOrigin.canonicalName.trans haName'))
      obtain rfl : takenName = takenName' := Except.ok.inj (htakenName.symm.trans (htaken.trans htakenName'))
      rw [hname, hname']
    · obtain ⟨rfl, rfl⟩ := (hoffers d u).mp hu
      exact ⟨a', (hoffers' _ _).mpr ⟨rfl, rfl⟩, .related ⟨hcopied, hnode ha, hnode ha'⟩⟩
  | container extractor =>
    obtain ⟨label, aName, bName, rfl, haName, hbName, hname⟩ := hk
    obtain ⟨label', aName', bName', rfl, haName', hbName', hname'⟩ := hk'
    refine ⟨.unary _ _ _ (hcopied.sameOrigin.same (hnode ha)) (hcopied'.sameOrigin.same (hnode hb)), ?_,
      fun d u hu => ?_⟩
    · obtain rfl : aName = aName' := Except.ok.inj (haName.symm.trans (hcopied.sameOrigin.canonicalName.trans haName'))
      obtain rfl : bName = bName' := Except.ok.inj (hbName.symm.trans (hcopied'.sameOrigin.canonicalName.trans hbName'))
      rw [hname, hname']
    · refine Lattice.RelatedUpToParts.offers l.offerSimulation_copied (.unary extractor ?_ ?_) hu
      · exact .related ⟨hcopied, hnode ha, hnode ha'⟩
      · exact .related ⟨hcopied', hnode hb, hnode hb'⟩

lemma WellFormed.offerSimulation_combined (h : WellFormed terms l ns) (ha : a ∈ ns) (hb : b ∈ ns) (hp : p ∈ ns)
    (ha' : a' ∈ ns) (hb' : b' ∈ ns) (hq : q ∈ ns) (hcopied : l.Copied a a') (hcopied' : l.Copied b b') {k : Combining}
    (hk : l.Combines a b p k) (hk' : l.Combines a' b' q k) : l.OfferSimulation (l.CopiesOrResults p q) := by
  intro s t hst
  rcases hst with hst | ⟨rfl, rfl⟩ | ⟨rfl, rfl⟩
  · obtain ⟨hsame, hoffers⟩ := l.offerSimulation_copied s t hst
    refine ⟨hsame, fun d u hu => ?_⟩
    obtain ⟨v, hv, hlike⟩ := hoffers d u hu
    exact ⟨v, hv, hlike.mono fun _ _ => .inl⟩
  · obtain ⟨hsame, -, hoffers⟩ := h.combines_of_copied ha hb hp ha' hb' hq hcopied hcopied' hk hk'
    refine ⟨hsame, fun d u hu => ?_⟩
    obtain ⟨v, hv, hlike⟩ := hoffers d u hu
    exact ⟨v, hv, hlike.mono fun _ _ => .inl⟩
  · obtain ⟨hsame, -, hoffers⟩ :=
      h.combines_of_copied ha' hb' hq ha hb hp hcopied.symm hcopied'.symm hk' hk
    refine ⟨hsame, fun d u hu => ?_⟩
    obtain ⟨v, hv, hlike⟩ := hoffers d u hu
    exact ⟨v, hv, hlike.mono fun _ _ => .inl⟩

end Comparing

/-- Searches between `u` and either of two types have answers, and the same ones. -/
def Lattice.SearchedAlike (l : Lattice) (s t u : Ty) : Prop :=
  ∃ below above, (Build.supersedes (.type s) (.type u) l).1 = .ok below ∧
    (Build.supersedes (.type t) (.type u) l).1 = .ok below ∧
    (Build.supersedes (.type u) (.type s) l).1 = .ok above ∧
    (Build.supersedes (.type u) (.type t) l).1 = .ok above

lemma WellFormed.searchedAlike {terms : Terms} {l : Lattice} {ns : List Ty} {s t u : Ty}
    (h : WellFormed terms l ns) (hdoc : terms.documented) {R : Ty → Ty → Prop} (hR : l.OfferSimulation R)
    (hsymm : ∀ s t, R s t → R t s) (hs : s ∈ ns) (ht : t ∈ ns) (hst : R s t) (hu : u ∈ ns) :
    l.SearchedAlike s t u := by
  obtain ⟨hbelow, habove⟩ := h.supersedes_relatedUpToParts hdoc hR hsymm hs ht hst hu
  obtain ⟨below, hanswer⟩ := h.supersedes_answers hdoc hs hu
  obtain ⟨above, hanswer'⟩ := h.supersedes_answers hdoc hu hs
  exact ⟨below, above, hanswer, hbelow ▸ hanswer, hanswer', habove ▸ hanswer'⟩

section Interchangeable

variable {l : Lattice} {ts : List Ty} {t c : Ty}

/-- `c` is `t` or was made from it by changes of metadata, one after the other. -/
def CopiedFrom (terms : Terms) (l : Lattice) (ts : List Ty) : Ty → Ty → Prop :=
  ReflTransGen fun u v => ∃ copying : Copying, Resulted terms copying.refiner u v l ts

lemma CopiedFrom.copied {terms : Terms} (h : CopiedFrom terms l ts t c) (ht : t ∈ ts) :
    c ∈ ts ∧ l.Copied t c := by
  induction h with
  | refl => exact ⟨ht, .refl l t⟩
  | tail _ hcopy ih =>
    obtain ⟨copying, hresult⟩ := hcopy
    exact ⟨hresult.mem.2.2, ih.2.trans hresult.copied⟩

lemma Combining.allowed {terms : Terms} (hdiff : terms.differences) {a : Ty} (ha : a ∈ ts) (k : Combining) :
    (k.refiner a).Allowed terms ts := by
  cases k with
  | operator op => exact ⟨fun _ => hdiff, ha⟩
  | _ => exact ha

/-- What an operator makes of copies is equal, is called the same and is searched alike. -/
lemma Resulted.interchangeable {terms : Terms} (hdoc : terms.documented) {k : Combining} {a a' b b' p q : Ty}
    (hp : Resulted terms (k.refiner a) b p l ts) (hleft : l.Copied a a') (hright : l.Copied b b')
    (ha : a ∈ ts) (ha' : a' ∈ ts) (hq : Resulted terms (k.refiner a') b' q l ts) :
    p.equals q = .ok true ∧ q.equals p = .ok true ∧
      (∃ name, p.canonicalName = .ok name ∧ q.canonicalName = .ok name) ∧
      ∀ y ∈ ts, l.SearchedAlike p q y := by
  obtain ⟨ns, hpop, hns⟩ := hp.made.wellFormed
  obtain ⟨-, hb, hpmem⟩ := hp.mem
  obtain ⟨-, hb', hqmem⟩ := hq.mem
  obtain ⟨hpq, hname, -⟩ := hpop.combines_of_copied (hns ha) (hns hb) (hns hpmem) (hns ha') (hns hb')
    (hns hqmem) hleft hright hp.combines hq.combines
  obtain ⟨name, hpname⟩ := (hpop.sound p (hns hpmem)).canonicalName
  have hsimulation := hpop.offerSimulation_combined (hns ha) (hns hb) (hns hpmem) (hns ha') (hns hb') (hns hqmem)
    hleft hright hp.combines hq.combines
  have hsymm : ∀ s u, l.CopiesOrResults p q s u → l.CopiesOrResults p q u s := by
    rintro s u (hsu | ⟨rfl, rfl⟩ | ⟨rfl, rfl⟩)
    · exact .inl ⟨hsu.1.symm, hsu.2.2, hsu.2.1⟩
    · exact .inr (.inr ⟨rfl, rfl⟩)
    · exact .inr (.inl ⟨rfl, rfl⟩)
  refine ⟨Ty.equals_iff_same.mpr hpq, Ty.equals_iff_same.mpr hpq.symm,
    ⟨name, hpname, hname ▸ hpname⟩, fun y hy => ?_⟩
  exact hpop.searchedAlike hdoc hsimulation hsymm (hns hpmem) (hns hqmem) (.inr (.inl ⟨rfl, rfl⟩)) (hns hy)

/-- Copies of a type with other metadata can take its place. They have its canonical name, test values as
it does, compare as it does and are searched alike. An operator can be applied to a copy as it can to the
type, as either operand, and what it makes of the one and of the other, at whatever point, is equal, is
called the same and is searched alike. -/
theorem Made.copies_interchangeable (h : Made { documented := True, differences := True } l ts) (ht : t ∈ ts)
    (hcopy : CopiedFrom ⟨True, True⟩ l ts t c) :
    (∃ name, c.canonicalName = .ok name ∧ t.canonicalName = .ok name) ∧
    (∀ I v, c.has I v = t.has I v) ∧
    ∀ x ∈ ts, c.equals x = t.equals x ∧ x.equals c = x.equals t ∧ l.SearchedAlike c t x ∧
      ∀ k : Combining,
        (∀ a ∈ [c, t], (∃ p, ((k.refiner a).apply (.type x) l).1 = .ok p) ∧
          ∃ p, ((k.refiner x).apply (.type a) l).1 = .ok p) ∧
        ∀ p q, (Resulted ⟨True, True⟩ (k.refiner c) x p l ts ∧ Resulted ⟨True, True⟩ (k.refiner t) x q l ts) ∨
            (Resulted ⟨True, True⟩ (k.refiner x) c p l ts ∧ Resulted ⟨True, True⟩ (k.refiner x) t q l ts) →
          p.equals q = .ok true ∧ q.equals p = .ok true ∧
            (∃ name, p.canonicalName = .ok name ∧ q.canonicalName = .ok name) ∧
            ∀ y ∈ ts, l.SearchedAlike p q y := by
  obtain ⟨ns, hpop, hns⟩ := h.wellFormed
  obtain ⟨hc, hcopied⟩ := hcopy.copied ht
  have hproper : ∀ {u : Ty}, u ∈ ts → u.Proper := fun hu => (hpop.sound _ (hns hu)).regular.proper
  have hsame : t.Same c := hcopied.sameOrigin.same (hproper ht)
  refine ⟨?_, ?_, ?_⟩
  · obtain ⟨name, hname⟩ := (hpop.sound t (hns ht)).canonicalName
    exact ⟨name, hcopied.sameOrigin.canonicalName.symm.trans hname, hname⟩
  · intro I v
    exact Ty.has_eq_of_agrees (Ty.equals_iff_same.mpr hsame.symm) v
  intro x hx
  have hright : x.equals c = x.equals t := by
    unfold Ty.equals
    rw [← hcopied.sameOrigin.relabelled, Ty.agrees_setLabel]
  have hleft : c.equals x = t.equals x := by
    rw [Ty.equals_comm (hproper hc) (hproper hx), Ty.equals_comm (hproper ht) (hproper hx), hright]
  refine ⟨hleft, hright, ?_, fun k => ⟨?_, ?_⟩⟩
  · have hsymm : ∀ s u, l.Copied s u ∧ s.Proper ∧ u.Proper → l.Copied u s ∧ u.Proper ∧ s.Proper :=
      fun s u hsu => ⟨hsu.1.symm, hsu.2.2, hsu.2.1⟩
    exact hpop.searchedAlike trivial l.offerSimulation_copied hsymm (hns hc) (hns ht)
      ⟨hcopied.symm, hproper hc, hproper ht⟩ (hns hx)
  · intro a ha
    have hmem : a ∈ ts := by
      rcases List.mem_pair.mp ha with rfl | rfl
      · exact hc
      · exact ht
    obtain ⟨p, _, _, hrun, _⟩ :=
      (makes_apply hpop (k.allowed trivial (hns hmem)) (hns hx)).succeeds trivial
    obtain ⟨p', _, _, hrun', _⟩ :=
      (makes_apply hpop (k.allowed trivial (hns hx)) (hns hmem)).succeeds trivial
    exact ⟨⟨p, by rw [hrun]⟩, p', by rw [hrun']⟩
  · rintro p q (⟨hp, hq⟩ | ⟨hp, hq⟩)
    · exact hp.interchangeable trivial hcopied.symm (.refl l x) hc ht hq
    -- in the other position the first operand is a copy of itself
    · exact hp.interchangeable trivial (.refl l x) hcopied.symm hx hx hq

lemma Resulted.next {terms : Terms} {f g : Refiner} {operand result u p : Ty} {l' : Lattice}
    (h : Resulted terms f operand result l ts) (hg : g.Allowed terms ts) (hu : u ∈ ts)
    (hrun : g.apply (.type u) l = (.ok p, l')) :
    Resulted terms f operand result l' (p :: ts) ∧ Resulted terms g u p l' (p :: ts) := by
  constructor
  · have hlater := h.later (.refine g u) ⟨hg, hu⟩
    rw [Act.run, bind_of_ok hrun] at hlater
    exact hlater
  · have hnow := Resulted.now h.made hg hu (by rw [hrun])
    rw [hrun] at hnow
    exact hnow

lemma Made.exists_combined {terms : Terms} (h : Made terms l ts) (hdoc : terms.documented) {f : Refiner}
    (hf : f.Allowed terms ts) {u : Ty} (hu : u ∈ ts) : ∃ p l', f.apply (.type u) l = (.ok p, l') := by
  obtain ⟨ns, hpop, hns⟩ := h.wellFormed
  obtain ⟨p, l', _, hrun, _⟩ := (makes_apply hpop (hf.mono hns) (hns hu)).succeeds hdoc
  exact ⟨p, l', hrun⟩

/-- Boxes under a second name, taken after somebody has asked for the edges of the boxes. -/
theorem Made.copies_interchangeable_boxes : ∃ l ts c p q,
    Made { documented := True, differences := True } l ts ∧ c.name = .ok "crate" ∧
      CopiedFrom ⟨True, True⟩ l ts (boxType 1) c ∧
      Resulted ⟨True, True⟩ (.operator .intersection c) (boxType 0) p l ts ∧
      Resulted ⟨True, True⟩ (.operator .intersection (boxType 1)) (boxType 0) q l ts ∧
      p.equals q = .ok true ∧ l.SearchedAlike c (boxType 1) (boxType 0) ∧ l.SearchedAlike p q (boxType 0) := by
  have hop : ∀ op, Terms.operators ⟨True, True⟩ op := fun _ _ => trivial
  have hmade := boxLattice_made { documented := True, differences := True }
  have hasked := hmade.act (.edges .subsets (boxType 1)) (by simp [Act.Allowed, boxTypes, boxType])
  generalize ((Act.edges .subsets (boxType 1)).run boxLattice).2 = l at hasked
  generalize hts : Act.gained ((Act.edges .subsets (boxType 1)).run boxLattice).1 ++ boxTypes = ts at hasked
  have hbox : boxType 0 ∈ ts ∧ boxType 1 ∈ ts := by
    rw [← hts]
    exact ⟨List.mem_append_right _ (by simp [boxTypes, boxType]),
      List.mem_append_right _ (by simp [boxTypes, boxType])⟩
  obtain ⟨c, hname, hrun⟩ : ∃ c : Ty, c.name = .ok "crate" ∧
      ((Copying.withAlias "crate").refiner.apply (.type (boxType 1)) l).1 = .ok c := ⟨_, rfl, rfl⟩
  have hcopy : Resulted ⟨True, True⟩ (Copying.withAlias "crate").refiner (boxType 1) c _ (c :: ts) :=
    .now hasked trivial hbox.2 hrun
  generalize ((Copying.withAlias "crate").refiner.apply (.type (boxType 1)) l).2 = l₁ at hcopy
  have hleft : (Combining.operator .intersection).refiner c |>.Allowed ⟨True, True⟩ (c :: ts) :=
    ⟨hop _, List.mem_cons_self⟩
  obtain ⟨p, l₂, hrun₂⟩ := hcopy.made.exists_combined trivial hleft (List.mem_cons_of_mem c hbox.1)
  obtain ⟨hcopy, hp⟩ := hcopy.next hleft (List.mem_cons_of_mem c hbox.1) hrun₂
  have hbox₂ : boxType 0 ∈ p :: c :: ts ∧ boxType 1 ∈ p :: c :: ts := by simp [hbox]
  have hright : (Combining.operator .intersection).refiner (boxType 1) |>.Allowed ⟨True, True⟩ (p :: c :: ts) :=
    ⟨hop _, hbox₂.2⟩
  obtain ⟨q, l₃, hrun₃⟩ := hp.made.exists_combined trivial hright hbox₂.1
  obtain ⟨hcopy, -⟩ := hcopy.next hright hbox₂.1 hrun₃
  obtain ⟨hp, hq⟩ := hp.next hright hbox₂.1 hrun₃
  have hfrom : CopiedFrom ⟨True, True⟩ l₃ (q :: p :: c :: ts) (boxType 1) c := .single ⟨_, hcopy⟩
  obtain ⟨-, -, hothers⟩ := hq.made.copies_interchangeable (List.mem_cons_of_mem q hbox₂.2) hfrom
  obtain ⟨-, -, hsearched, hcombined⟩ := hothers (boxType 0) (List.mem_cons_of_mem q hbox₂.1)
  obtain ⟨hequal, -, -, hsearched'⟩ := (hcombined (.operator .intersection)).2 p q (.inl ⟨hp, hq⟩)
  exact ⟨l₃, q :: p :: c :: ts, c, p, q, hq.made, hname, hfrom, hp, hq, hequal, hsearched,
    hsearched' (boxType 0) (List.mem_cons_of_mem q hbox₂.1)⟩

end Interchangeable

end StructuralTypes
