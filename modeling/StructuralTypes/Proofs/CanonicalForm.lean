import StructuralTypes.Proofs.Construction
import StructuralTypes.Proofs.StructuralEquality

/-!
# Canonical forms

However types are joined by one operator, in whatever order and grouping and with whatever copies taken
on the way, the result depends on the joined types only. Its operands are copies of them, sorted by
canonical name and serial number. Types that have the same serial number are copies of each other, so
types that the order does not tell apart are interchangeable.
-/

namespace StructuralTypes

/-- A change of metadata that leaves at least one doc. -/
inductive Copying where
  | withAlias (name : String)
  | withoutAlias
  | withDocs (doc : String) (more : List String)

def Copying.refiner : Copying → Refiner
  | .withAlias name => .withAlias name
  | .withoutAlias => .withoutAlias
  | .withDocs doc more => .withDocs (doc :: more)

/-- A way to join types, two at a time. Copies may take the place of leaves and of what is joined. -/
inductive Joining where
  | leaf (t : Ty)
  | copy (copying : Copying) (of : Joining)
  | join (left right : Joining)

namespace Joining

def leaves : Joining → List Ty
  | .leaf t => [t]
  | .copy _ of => of.leaves
  | .join left right => left.leaves ++ right.leaves

def build (op : Operator) : Joining → Build Ty
  | .leaf t => return t
  | .copy copying of => do copying.refiner.apply (.type (← of.build op))
  | .join left right => do
    let leftType ← left.build op
    let rightType ← right.build op
    Build.compound op (.type leftType) (.type rightType)

end Joining

section Order

/-- What operands are sorted by. -/
def Ty.sortKey (t : Ty) : Lex (String × Nat) := toLex (t.canonicalName.toOption.getD "", t.serial)

lemma Ty.SameOrigin.sortKey {t u : Ty} (h : t.SameOrigin u) : t.sortKey = u.sortKey := by
  rw [Ty.sortKey, Ty.sortKey, h.canonicalName, h.serial]

namespace Ranked

def key (a : Ranked) : Lex (String × Nat) := toLex (a.canonicalName, a.serial)

lemma precedes_iff {a b : Ranked} : a.precedes b = true ↔ a.key ≤ b.key := by
  rw [key, key, Prod.Lex.toLex_le_toLex]
  simp [precedes]

lemma key_eq {t : Ty} {a : Ranked} (h : Ranked.ofReferent (.type t) = .ok a) : a.key = t.sortKey := by
  rw [ofReferent_eq] at h
  rcases hname : t.canonicalName with fault | name
  · rw [hname] at h
    cases h
  · rw [hname] at h
    obtain rfl := Except.ok.inj h
    rw [key, Ty.sortKey, hname]
    rfl

lemma pairwise_sort (rs : List Ranked) : ((sort rs).map key).Pairwise (· ≤ ·) := by
  have : Std.Total fun a b : Ranked => a.precedes b = true := by
    constructor
    intro a b
    simp only [precedes_iff]
    exact le_total a.key b.key
  have : IsTrans Ranked fun a b => a.precedes b = true := by
    constructor
    intro a b c
    simp only [precedes_iff]
    exact le_trans
  rw [sort_eq, List.pairwise_map]
  exact (List.pairwise_insertionSort _ rs).imp precedes_iff.mp

end Ranked

/-- Merged operands are sorted by their keys, and each of them is ranked by its own. -/
lemma mergeOperands_sorted {op : Operator} {left right : Ty} {ranked : List Ranked}
    (h : mergeOperands op (.type left) (.type right) = .ok ranked) :
    ranked.map Ranked.key = (ranked.map (·.type)).map Ty.sortKey ∧
      ((ranked.map (·.type)).map Ty.sortKey).Pairwise (· ≤ ·) := by
  obtain ⟨ts, as, -, has, rfl⟩ := mergeOperands_sorts h
  have hkeys : (Ranked.sort as).map Ranked.key = ((Ranked.sort as).map (·.type)).map Ty.sortKey := by
    rw [List.map_map]
    apply List.map_congr_left
    intro a ha
    obtain ⟨r, hr, hranked⟩ := exists_related_left has ((sort_perm as).mem_iff.mp ha)
    obtain ⟨t, -, rfl⟩ := List.mem_map.mp hr
    rw [Function.comp_apply, ofReferent_type hranked]
    exact Ranked.key_eq hranked
  refine ⟨hkeys, ?_⟩
  rw [← hkeys]
  exact Ranked.pairwise_sort as

end Order

section Forms

variable {op : Operator}

lemma Operator.absorbs_self (op : Operator) : op.absorbs op = true := by cases op <;> rfl

lemma contribution_compound (label : Label) (op : Operator) (ts : List Ty) :
    (Ty.compound label op ts).contribution op = ts := by
  simp [Ty.contribution, Ty.absorbed?, op.absorbs_self]

/-- The operands of a result are what both sides contribute, in another order. -/
lemma Merges.operands {left right t : Ty} (h : Merges op left right t) : ∃ label ts, t = .compound label op ts ∧
    ∀ P : Ty → Prop, (∀ u ∈ ts, P u) ↔ (∀ u ∈ left.contribution op, P u) ∧ ∀ u ∈ right.contribution op, P u := by
  obtain ⟨label, ranked, hranked, rfl, -⟩ := h
  refine ⟨label, _, rfl, fun P => ?_⟩
  have hperm := mergeOperands_perm hranked
  rw [← List.forall_mem_append]
  exact forall_congr' fun u => imp_congr_left hperm.mem_iff

lemma Ty.SameOrigin.absorbed?_eq {t u : Ty} (h : t.SameOrigin u) : t.absorbed? op = u.absorbed? op := by
  rw [← h.relabelled]
  cases t <;> rfl

/-- The type has copies of the leaves as operands. If there are several it is their canonical form,
named after its operands. -/
structure Formed (op : Operator) (leaves : List Ty) (t : Ty) : Prop where
  operands : ∃ ks : List Ty, ks.Perm leaves ∧ List.Forall₂ Ty.SameOrigin ks (t.contribution op)
  single : leaves.length = 1 → t.absorbed? op = none
  merged : leaves.length ≠ 1 → ∃ label as, t = .compound label op as ∧
    (as.map Ty.sortKey).Pairwise (· ≤ ·) ∧
    t.canonicalName = .ok (operationalName op.glyph (as.map fun a => (ofLex a.sortKey).1))

namespace Formed

variable {leaves leaves' : List Ty} {t u w : Ty}

lemma leaf (hnone : t.absorbed? op = none) : Formed op [t] t := by
  refine ⟨⟨[t], List.Perm.refl _, ?_⟩, fun _ => hnone, fun hlen => (hlen rfl).elim⟩
  rw [Ty.contribution_eq_singleton hnone]
  exact .cons (.refl t) .nil

lemma copy (h : Formed op leaves t) (horigin : t.SameOrigin u) : Formed op leaves u := by
  by_cases hlen : leaves.length = 1
  · have hnone := h.single hlen
    have hnone' : u.absorbed? op = none := horigin.absorbed?_eq.symm.trans hnone
    obtain ⟨ks, hperm, hks⟩ := h.operands
    refine ⟨⟨ks, hperm, ?_⟩, fun _ => hnone', fun hne => (hne hlen).elim⟩
    rw [Ty.contribution_eq_singleton hnone] at hks
    rw [Ty.contribution_eq_singleton hnone']
    cases hks with
    | cons hhead htail =>
      cases htail
      exact .cons (hhead.trans horigin) .nil
  · obtain ⟨label, as, rfl, hsorted, hname⟩ := h.merged hlen
    have hu : u = .compound u.label op as := horigin.relabelled.symm
    obtain ⟨ks, hperm, hks⟩ := h.operands
    rw [contribution_compound] at hks
    refine ⟨⟨ks, hperm, ?_⟩, fun hone => (hlen hone).elim, fun _ => ⟨u.label, as, hu, hsorted, ?_⟩⟩
    · rw [hu, contribution_compound]
      exact hks
    · rw [← horigin.canonicalName]
      exact hname

/-- Joining two forms takes their operands together and sorts them again. -/
lemma join (h : Formed op leaves t) (h' : Formed op leaves' u) (hlen : leaves ≠ []) (hlen' : leaves' ≠ [])
    (hw : Merges op t u w) : Formed op (leaves ++ leaves') w := by
  obtain ⟨label, ranked, hranked, rfl, hlabel⟩ := hw
  obtain ⟨hkeys, hsorted⟩ := mergeOperands_sorted hranked
  obtain ⟨ks, hperm, hks⟩ := h.operands
  obtain ⟨ks', hperm', hks'⟩ := h'.operands
  refine ⟨?_, fun hone => ?_, fun _ => ⟨label, _, rfl, hsorted, ?_⟩⟩
  · rw [contribution_compound]
    obtain ⟨ms, hms, hmerged⟩ :=
      exists_perm_related (List.rel_append hks hks') (mergeOperands_perm hranked).symm
    exact ⟨ms, hms.trans (hperm.append hperm'), hmerged⟩
  · have hpos := List.length_pos_of_ne_nil hlen
    have hpos' := List.length_pos_of_ne_nil hlen'
    rw [List.length_append] at hone
    omega
  · have hnames : ranked.map (·.canonicalName) =
        (ranked.map (·.type)).map fun a => (ofLex a.sortKey).1 := by
      have hfirst := congrArg (List.map fun k => (ofLex k).1) hkeys
      rw [List.map_map, List.map_map] at hfirst
      exact hfirst
    rw [← hnames, Ty.canonicalName, Ty.names, Ty.label, hlabel]
    rfl

end Formed

lemma Joining.leaves_ne_nil (a : Joining) : a.leaves ≠ [] := by
  induction a with
  | leaf t => simp [leaves]
  | copy copying of ih => exact ih
  | join left right ihl _ => simp [leaves, ihl]

variable {terms : Terms} {l : Lattice} {ns : List Ty}

lemma copies_apply (h : WellFormed terms l ns) (copying : Copying) {t : Ty} (ht : t ∈ ns) :
    Copies terms l ns t (copying.refiner.apply (.type t)) := by
  cases copying with
  | withAlias name => exact copies_withAlias h name ht
  | withoutAlias => exact copies_withoutAlias h ht
  | withDocs doc more => exact copies_withMetadata h (fun _ => List.cons_ne_nil doc more) ht

/-- Joining succeeds and leads to a canonical form. -/
theorem yields_build (h : WellFormed terms l ns) (hop : terms.operators op) {a : Joining}
    (hleaves : ∀ t ∈ a.leaves, t ∈ ns ∧ t.absorbed? op = none) :
    Yields terms l ns (a.build op) fun _ ns' x => x ∈ ns' ∧ Formed op a.leaves x := by
  induction a generalizing l ns with
  | leaf t =>
    obtain ⟨ht, hnone⟩ := hleaves t (List.mem_singleton_self t)
    exact Yields.pure h ⟨ht, .leaf hnone⟩
  | copy copying of ih =>
    refine (ih h hleaves).bind ?_
    rintro x l' ns' h' - - ⟨hx, hform⟩
    exact (copies_apply h' copying hx).mono fun _ _ _ _ hu => ⟨hu.1, hform.copy hu.2⟩
  | join left right ihl ihr =>
    refine (ihl h fun t ht => hleaves t (List.mem_append_left _ ht)).bind ?_
    rintro x l' ns' h' hns - ⟨hx, hform⟩
    have hright : ∀ t ∈ right.leaves, t ∈ ns' ∧ t.absorbed? op = none := by
      intro t ht
      obtain ⟨hmem, hnone⟩ := hleaves t (List.mem_append_right _ ht)
      exact ⟨hns hmem, hnone⟩
    refine (ihr h' hright).bind ?_
    rintro y l'' ns'' h'' hns' - ⟨hy, hform'⟩
    refine (yields_compound h'' hop (hns' hx) hy).mono ?_
    rintro _ _ w - ⟨hw, hmerges, -⟩
    exact ⟨hw, hform.join hform' left.leaves_ne_nil right.leaves_ne_nil hmerges⟩

end Forms

section Agreement

lemma Ty.SameOrigin.agrees {s t : Ty} (h : s.SameOrigin t) (hs : s.Proper) (asksRight : Bool) :
    Ty.agrees asksRight s t = .ok true := by
  rw [← h.relabelled, agrees_setLabel]
  exact agrees_refl hs asksRight

/-- Where the keys agree place by place, so do the types, if a common serial number makes them copies. -/
lemma forall₂_sameOrigin {as bs : List Ty} (hkeys : as.map Ty.sortKey = bs.map Ty.sortKey)
    (horigin : ∀ a ∈ as, ∀ b ∈ bs, a.serial = b.serial → a.SameOrigin b) : List.Forall₂ Ty.SameOrigin as bs := by
  rw [← List.forall₂_eq_eq_eq, List.forall₂_map_left_iff, List.forall₂_map_right_iff,
    List.forall₂_iff_zip] at hkeys
  obtain ⟨hlength, hzip⟩ := hkeys
  refine List.forall₂_iff_zip.mpr ⟨hlength, fun {a b} hab => ?_⟩
  obtain ⟨ha, hb⟩ := List.of_mem_zip hab
  exact horigin a ha b hb (congrArg (fun key => (ofLex key).2) (hzip hab))

variable {terms : Terms} {l : Lattice} {ns : List Ty} {op : Operator} {leaves leaves' : List Ty}

/-- The operands of a form have the keys of the leaves, and each is a copy of one of them. -/
lemma Formed.leaf_of_operand {label : Label} {as : List Ty}
    (h : Formed op leaves (.compound label op as)) :
    (as.map Ty.sortKey).Perm (leaves.map Ty.sortKey) ∧ ∀ a ∈ as, ∃ k ∈ leaves, k.SameOrigin a := by
  obtain ⟨ks, hperm, hks⟩ := h.operands
  rw [contribution_compound] at hks
  constructor
  · have hkeys : ks.map Ty.sortKey = as.map Ty.sortKey := by
      rw [← List.forall₂_eq_eq_eq, List.forall₂_map_left_iff, List.forall₂_map_right_iff]
      exact hks.imp fun _ _ horigin => horigin.sortKey
    rw [← hkeys]
    exact hperm.map _
  · intro a ha
    obtain ⟨k, hk, horigin⟩ := exists_related_left hks ha
    exact ⟨k, hperm.mem_iff.mp hk, horigin⟩

/-- Two forms of the same leaves have the same operands up to copies, and the same name. -/
theorem Formed.agree (h : WellFormed terms l ns) (hleaves : ∀ k ∈ leaves, k ∈ ns) {x y : Ty}
    (hx : Formed op leaves x) (hy : Formed op leaves' y) (hperm : leaves.Perm leaves')
    (hlen : 2 ≤ leaves.length) : ∃ label label' as bs name, x = .compound label op as ∧
      y = .compound label' op bs ∧ List.Forall₂ Ty.SameOrigin as bs ∧ x.canonicalName = .ok name ∧
      y.canonicalName = .ok name := by
  have hlen' := hperm.length_eq
  obtain ⟨label, as, rfl, hsorted, hname⟩ := hx.merged (by omega)
  obtain ⟨label', bs, rfl, hsorted', hname'⟩ := hy.merged (by omega)
  obtain ⟨hkeys, hfrom⟩ := hx.leaf_of_operand
  obtain ⟨hkeys', hfrom'⟩ := hy.leaf_of_operand
  have hsame : as.map Ty.sortKey = bs.map Ty.sortKey :=
    List.Perm.eq_of_pairwise (fun _ _ _ _ => le_antisymm) hsorted hsorted'
      (hkeys.trans ((hperm.map _).trans hkeys'.symm))
  -- in one place the keys agree, so the leaves that the operands are copies of share a serial number
  have horigin : List.Forall₂ Ty.SameOrigin as bs := by
    refine forall₂_sameOrigin hsame fun a ha b hb hserial => ?_
    obtain ⟨k, hk, hka⟩ := hfrom a ha
    obtain ⟨k', hk', hkb⟩ := hfrom' b hb
    have hleaf : k.SameOrigin k' := h.sameOrigin k (hleaves k hk) k' (hleaves k' (hperm.mem_iff.mpr hk'))
      (hka.serial.trans (hserial.trans hkb.serial.symm))
    exact hka.symm.trans (hleaf.trans hkb)
  refine ⟨label, label', as, bs, _, rfl, rfl, horigin, hname, ?_⟩
  have hnames := congrArg (List.map fun key => (ofLex key).1) hsame
  rw [List.map_map, List.map_map] at hnames
  rw [hname']
  exact congrArg (fun names => Except.ok (operationalName op.glyph names)) hnames.symm

/-- Two ways to join the same types, each carried out in a lattice where these are at hand, succeed and
come to equal types. Their operands are copies of each other place by place, they have the same name,
and they test every value alike, down to the calls. -/
theorem Made.canonical_form {l l' : Lattice} {ts ts' : List Ty}
    (h : Made { documented := True, differences := True } l ts)
    (h' : Made { documented := True, differences := True } l' ts') (op : Operator) {a b : Joining}
    (ha : ∀ t ∈ a.leaves, t ∈ ts ∧ t.absorbed? op = none) (hb : ∀ t ∈ b.leaves, t ∈ ts')
    (hperm : a.leaves.Perm b.leaves) (hlen : 2 ≤ a.leaves.length) :
    ∃ x y label label' as bs name, (a.build op l).1 = .ok x ∧ (b.build op l').1 = .ok y ∧
      x.equals y = .ok true ∧ y.equals x = .ok true ∧
      x = .compound label op as ∧ y = .compound label' op bs ∧ List.Forall₂ Ty.SameOrigin as bs ∧
      x.canonicalName = .ok name ∧ y.canonicalName = .ok name ∧ ∀ I v, x.has I v = y.has I v := by
  obtain ⟨ns, hpop, hns⟩ := h.wellFormed
  obtain ⟨ns', hpop', hns'⟩ := h'.wellFormed
  have hleaves : ∀ t ∈ a.leaves, t ∈ ns ∧ t.absorbed? op = none :=
    fun t ht => ⟨hns (ha t ht).1, (ha t ht).2⟩
  have hleaves' : ∀ t ∈ b.leaves, t ∈ ns' ∧ t.absorbed? op = none :=
    fun t ht => ⟨hns' (hb t ht), (ha t (hperm.mem_iff.mpr ht)).2⟩
  obtain ⟨x, l₁, ns₁, hrun, hpop₁, -, -, hx, hform⟩ :=
    (yields_build hpop (fun _ => trivial) hleaves).succeeds trivial
  obtain ⟨y, l₂, ns₂, hrun', hpop₂, -, -, hy, hform'⟩ :=
    (yields_build hpop' (fun _ => trivial) hleaves').succeeds trivial
  obtain ⟨label, label', as, bs, name, rfl, rfl, horigin, hname, hname'⟩ :=
    hform.agree hpop (fun k hk => (hleaves k hk).1) hform' hperm hlen
  have hproper := (hpop₁.sound _ hx).regular.proper
  have hproper' := (hpop₂.sound _ hy).regular.proper
  have hequal : (Ty.compound label op as).equals (.compound label' op bs) = .ok true := by
    cases hproper with
    | compound _ _ hoperands =>
      have hall := (List.forall₂_and_left as bs).mpr ⟨hoperands, horigin⟩
      exact Ty.agrees_compound (hall.imp fun _ _ horigin₁ => horigin₁.2.agrees horigin₁.1 false)
  refine ⟨_, _, label, label', as, bs, name, by rw [hrun], by rw [hrun'], hequal, ?_, rfl, rfl, horigin,
    hname, hname', fun I v => Ty.has_eq_of_agrees hequal v⟩
  rw [Ty.equals_comm hproper' hproper]
  exact hequal

end Agreement

section Building

variable {terms : Terms} {l : Lattice} {ts : List Ty}

/-- A computation that leads from a lattice made by allowed acts to another such lattice, whether it fails or
not, with its result among the types at hand. -/
def PreservesMade (terms : Terms) (l : Lattice) (ts : List Ty) (x : Build Ty) : Prop :=
  ∃ ts', Made terms (x l).2 ts' ∧ ts ⊆ ts' ∧ ∀ t, (x l).1 = .ok t → t ∈ ts'

lemma Made.preservesMade_apply (h : Made terms l ts) {f : Refiner} (hf : f.Allowed terms ts) {t : Ty}
    (ht : t ∈ ts) : PreservesMade terms l ts (f.apply (.type t)) := by
  have hmade := h.act (.refine f t) ⟨hf, ht⟩
  rw [Act.run] at hmade
  rcases hrun : f.apply (.type t) l with ⟨fault | u, l'⟩
  · rw [bind_of_error hrun] at hmade
    refine ⟨ts, ?_⟩
    rw [hrun]
    exact ⟨hmade, List.Subset.refl ts, fun _ hu => nomatch hu⟩
  · rw [bind_of_ok hrun] at hmade
    refine ⟨u :: ts, ?_⟩
    rw [hrun]
    refine ⟨hmade, List.subset_cons_self u ts, fun v hv => ?_⟩
    obtain rfl := Except.ok.inj hv
    exact List.mem_cons_self

lemma PreservesMade.bind {x : Build Ty} {f : Ty → Build Ty} (hx : PreservesMade terms l ts x)
    (hf : ∀ t l' ts', Made terms l' ts' → ts ⊆ ts' → t ∈ ts' → PreservesMade terms l' ts' (f t)) :
    PreservesMade terms l ts (x >>= f) := by
  obtain ⟨ts', hmade, hts, hmem⟩ := hx
  rcases hrun : x l with ⟨fault | t, l'⟩
  · rw [hrun] at hmade
    refine ⟨ts', ?_⟩
    rw [bind_of_error hrun]
    exact ⟨hmade, hts, fun _ ht => nomatch ht⟩
  · rw [hrun] at hmade hmem
    obtain ⟨ts'', hmade', hts', hmem'⟩ := hf t l' ts' hmade hts (hmem t rfl)
    refine ⟨ts'', ?_⟩
    rw [bind_of_ok hrun]
    exact ⟨hmade', fun _ ht => hts' (hts ht), hmem'⟩

/-- Joining types is a sequence of acts, so another joining can come after it. -/
lemma Made.preservesMade_build (h : Made terms l ts) {op : Operator} (hop : terms.operators op) {a : Joining}
    (hleaves : a.leaves ⊆ ts) : PreservesMade terms l ts (a.build op) := by
  induction a generalizing l ts with
  | leaf t =>
    refine ⟨ts, h, List.Subset.refl ts, fun u hu => ?_⟩
    obtain rfl : t = u := Except.ok.inj hu
    exact hleaves (List.mem_singleton_self t)
  | copy copying of ih =>
    refine (ih h hleaves).bind ?_
    intro t l' ts' h' _ ht
    refine h'.preservesMade_apply ?_ ht
    cases copying with
    | withDocs doc more => exact fun _ => List.cons_ne_nil doc more
    | _ => trivial
  | join left right ihl ihr =>
    refine (ihl h (List.append_subset.mp hleaves).1).bind ?_
    intro t l' ts' h' hts ht
    refine (ihr h' fun u hu => hts ((List.append_subset.mp hleaves).2 hu)).bind ?_
    intro u l'' ts'' h'' hts' hu
    have hleft : (Refiner.operator op t).Allowed terms ts'' := ⟨hop, hts' ht⟩
    exact h''.preservesMade_apply hleft hu

end Building

theorem Made.canonical_form_boxes :
    let a : Joining := .join (.join (.leaf (boxType 5)) (.leaf (boxType 4)))
      (.copy (.withAlias "crate") (.leaf (boxType 3)))
    let b : Joining := .join (.leaf (boxType 3))
      (.copy (.withDocs "a number" []) (.join (.leaf (boxType 4)) (.leaf (boxType 5))))
    let after := (a.build .union boxLattice).2
    Made { documented := True, differences := True } boxLattice boxTypes ∧ a.leaves.Perm b.leaves ∧
      ∃ x y, (a.build .union boxLattice).1 = .ok x ∧ (b.build .union after).1 = .ok y ∧
        x.equals y = .ok true ∧ y.equals x = .ok true ∧ ∀ I v, x.has I v = y.has I v := by
  intro a b after
  have hmade := boxLattice_made { documented := True, differences := True }
  have hleaves : a.leaves ⊆ boxTypes := by simp [a, Joining.leaves, boxType, boxTypes]
  have hperm : a.leaves.Perm b.leaves := (List.reverse_perm a.leaves).symm
  obtain ⟨ts, hmade', hts, -⟩ := hmade.preservesMade_build (fun _ => trivial) hleaves
  have hnone : ∀ t ∈ a.leaves, t ∈ boxTypes ∧ t.absorbed? .union = none := by
    intro t ht
    refine ⟨hleaves ht, ?_⟩
    simp only [a, Joining.leaves, List.mem_append, List.mem_singleton] at ht
    rcases ht with (rfl | rfl) | rfl <;> rfl
  obtain ⟨x, y, -, -, -, -, -, hx, hy, hequal, hequal', -, -, -, -, -, hhas⟩ :=
    hmade.canonical_form hmade' .union hnone (fun t ht => hts (hleaves (hperm.mem_iff.mpr ht))) hperm
      (by decide)
  exact ⟨hmade, hperm, x, y, hx, hy, hequal, hequal', hhas⟩

end StructuralTypes
