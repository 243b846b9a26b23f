import StructuralTypes.Proofs.OfferedEdges
import StructuralTypes.Refinement

/-!
# Well-formed lattices

A lattice as constructors leave it, with the list of its nodes. Each node has a name, is made of
nodes of the lattice, and has edges that lead from tree to tree as constructors declare them. Nodes that
share a serial number are copies of each other. `Yields` says that a computation leads from one
well-formed lattice to a larger one, whether it fails or not.
-/

namespace StructuralTypes

namespace Ty

/-- Copies of one and the same node: they have its structure, its serial number and its canonical
name. -/
structure SameOrigin (t u : Ty) : Prop where
  serial : t.serial = u.serial
  relabelled : t.setLabel u.label = u
  canonicalName : t.canonicalName = u.canonicalName

lemma setLabel_label (t : Ty) : t.setLabel t.label = t := by cases t <;> rfl

lemma setLabel_setLabel (t : Ty) (l l' : Label) : (t.setLabel l).setLabel l' = t.setLabel l' := by
  cases t <;> rfl

namespace SameOrigin

variable {t u v : Ty}

lemma refl (t : Ty) : SameOrigin t t := ⟨rfl, t.setLabel_label, rfl⟩

lemma symm (h : SameOrigin t u) : SameOrigin u t := by
  refine ⟨h.serial.symm, ?_, h.canonicalName.symm⟩
  rw [← h.relabelled, setLabel_setLabel, setLabel_label]

lemma trans (h : SameOrigin t u) (h' : SameOrigin u v) : SameOrigin t v := by
  refine ⟨h.serial.trans h'.serial, ?_, h.canonicalName.trans h'.canonicalName⟩
  rw [← h'.relabelled, ← h.relabelled, setLabel_setLabel, label_setLabel]

end SameOrigin

end Ty

/-- What types are made under: whether docs always have an entry, and whether differences occur. -/
structure Terms where
  documented : Prop
  differences : Prop

def Terms.operators (terms : Terms) (op : Operator) : Prop := op = .difference → terms.differences

/-- A node that further constructions can use. -/
structure Sound (terms : Terms) (ns : List Ty) (t : Ty) : Prop where
  regular : t.Regular terms.operators
  named : ∃ names, t.label.names? = some names ∧ names ≠ []
  documented : ∃ docs, t.label.docs? = some docs ∧ (terms.documented → docs ≠ [])
  parts : t.parts ⊆ ns

/-- Edges that constructors declare for a node. Those of an operator lead to nodes that were there
before it. -/
structure Declared (ns : List Ty) (d : Direction) (t : Ty) (us : List Ty) : Prop where
  mem : us ⊆ ns
  leads : ∀ u ∈ us, t.Leads d u
  older : ∀ label op ts, t = .compound label op ts → ∀ u ∈ us, u.id < t.id

/-- A lattice that holds exactly the given nodes, each of them sound and with declared edges only. -/
structure WellFormed (terms : Terms) (l : Lattice) (ns : List Ty) : Prop where
  length : l.entries.size = ns.length
  id_eq : ∀ i (t : Ty), ns[i]? = some t → t.id = i
  sound : ∀ t ∈ ns, Sound terms ns t
  stored : ∀ t ∈ ns, ∀ d rs, l.stored? d t.id = some rs → ∃ us, rs = us.map .type ∧ Declared ns d t us
  storedAsOffered : ∀ t ∈ ns, l.StoredAsOffered (fun d => l.stored? d t.id) t
  serial_lt : ∀ t ∈ ns, t.serial < l.nextSerial
  sameOrigin : ∀ t ∈ ns, ∀ u ∈ ns, t.serial = u.serial → t.SameOrigin u

/-- What a new node with the given edges has to satisfy to be added to a well-formed lattice. -/
structure Fits (terms : Terms) (l : Lattice) (ns : List Ty) (e : Edges) (t : Ty) : Prop where
  id_eq : t.id = ns.length
  sound : Sound terms ns t
  edges : ∀ d rs, e.get? d = some rs → ∃ us : List Ty, rs = us.map .type ∧ us ⊆ ns ∧ ∀ u ∈ us, t.Leads d u
  storedAsOffered : l.StoredAsOffered e.get? t
  serial_lt : t.serial < l.nextSerial
  sameOrigin : ∀ u ∈ ns, u.serial = t.serial → u.SameOrigin t

/-- A serial number that was taken and that no node has yet. -/
structure UnusedSerial (l : Lattice) (ns : List Ty) (serial : Nat) : Prop where
  lt : serial < l.nextSerial
  unused : ∀ t ∈ ns, t.serial ≠ serial

lemma Sound.mono {terms : Terms} {ns ns' : List Ty} {t : Ty} (h : Sound terms ns t) (hns : ns ⊆ ns') :
    Sound terms ns' t :=
  ⟨h.regular, h.named, h.documented, fun _ hp => hns (h.parts hp)⟩

lemma Declared.mono {ns ns' : List Ty} {d : Direction} {t : Ty} {us : List Ty}
    (h : Declared ns d t us) (hns : ns ⊆ ns') : Declared ns' d t us :=
  ⟨fun _ hu => hns (h.mem hu), h.leads, h.older⟩

lemma Lattice.stored?_push (l : Lattice) (e : Edges) (d : Direction) (id : Nat) :
    Lattice.stored? { l with entries := l.entries.push e } d id =
      if id = l.entries.size then e.get? d else l.stored? d id := by
  unfold stored?
  rw [Array.getElem?_push]
  by_cases h : id = l.entries.size
  · simp [h]
  · simp [h]

lemma Lattice.grows_push (l : Lattice) (e : Edges) : l.Grows { l with entries := l.entries.push e } := by
  intro d id rs hrs
  have hlt : id < l.entries.size := by
    by_contra hge
    rw [stored?, Array.getElem?_eq_none (Nat.le_of_not_lt hge)] at hrs
    cases hrs
  rw [stored?_push, if_neg (Nat.ne_of_lt hlt)]
  exact hrs

namespace WellFormed

variable {terms : Terms} {l : Lattice} {ns : List Ty}

lemma empty (terms : Terms) : WellFormed terms .empty [] := by
  constructor <;> simp [Lattice.empty]

lemma id_lt (h : WellFormed terms l ns) {t : Ty} (ht : t ∈ ns) : t.id < ns.length :=
  Ty.Numbered.id_lt h.id_eq ht

lemma unique (h : WellFormed terms l ns) {t u : Ty} (ht : t ∈ ns) (hu : u ∈ ns) (hid : t.id = u.id) : t = u :=
  Ty.Numbered.unique h.id_eq ht hu hid

lemma parts_mem (h : WellFormed terms l ns) {t a b : Ty} (ht : t ∈ ns) (hparts : t.parts = [a, b]) :
    a ∈ ns ∧ b ∈ ns := by
  have hsub := (h.sound t ht).parts
  rw [hparts] at hsub
  exact ⟨hsub List.mem_cons_self, hsub (List.mem_cons_of_mem a (List.mem_singleton_self b))⟩

lemma parts_spanned (h : WellFormed terms l ns) {label : Label} {extractor : Fn} {outer inner : Ty}
    (ht : (Ty.unary label outer extractor inner).Spanned ns) : outer.Spanned ns ∧ inner.Spanned ns :=
  ht.of_unary fun t ht => (h.sound t ht).parts

lemma offers_iff_of_same (h : WellFormed terms l ns) {l' : Lattice}
    (hsame : ∀ t ∈ ns, t.isContainer = false → ∀ d, l'.stored? d t.id = l.stored? d t.id) {t : Ty}
    (ht : t.Spanned ns) (d : Direction) (u : Ty) : l'.Offers d t u ↔ l.Offers d t u := by
  have hparts : ∀ t ∈ ns, t.parts ⊆ ns := fun t ht => (h.sound t ht).parts
  constructor
  · exact fun ho => ho.transfer hparts (fun t ht hleaf d => (hsame t ht hleaf d).symm) ht
  · exact fun ho => ho.transfer hparts hsame ht

/-- As a lattice grows, what there is goes on offering what it does. -/
lemma offers_iff (h : WellFormed terms l ns) {l' : Lattice} (hgrows : l.Grows l') {t : Ty}
    (ht : t.Spanned ns) (d : Direction) (u : Ty) : l'.Offers d t u ↔ l.Offers d t u := by
  refine h.offers_iff_of_same (fun t ht hleaf d => ?_) ht d u
  obtain ⟨rs, hrs⟩ := (h.storedAsOffered t ht).settled hleaf d
  rw [hrs]
  exact hgrows d t.id rs hrs

lemma withSerial (h : WellFormed terms l ns) {serial : Nat} (hserial : l.nextSerial ≤ serial) :
    WellFormed terms { l with nextSerial := serial } ns := by
  refine ⟨h.length, h.id_eq, h.sound, h.stored, fun t ht => ?_, fun t ht => ?_, h.sameOrigin⟩
  · have hgrows : l.Grows { l with nextSerial := serial } := fun _ _ _ hs => hs
    exact (h.storedAsOffered t ht).transfer fun _ => h.offers_iff hgrows (.node ht)
  · exact Nat.lt_of_lt_of_le (h.serial_lt t ht) hserial

lemma push (h : WellFormed terms l ns) {t : Ty} {e : Edges} (ht : Fits terms l ns e t) :
    WellFormed terms { l with entries := l.entries.push e } (ns ++ [t]) := by
  have hsub : ns ⊆ ns ++ [t] := List.subset_append_left ns [t]
  have hold : ∀ u ∈ ns, ∀ d, Lattice.stored? { l with entries := l.entries.push e } d u.id =
      l.stored? d u.id := by
    intro u hu d
    rw [Lattice.stored?_push, h.length, if_neg (Nat.ne_of_lt (h.id_lt hu))]
  have hnew : ∀ d, Lattice.stored? { l with entries := l.entries.push e } d t.id = e.get? d := by
    intro d
    rw [Lattice.stored?_push, h.length, if_pos ht.id_eq]
  refine ⟨?_, ?_, ?_, ?_, ?_, ?_, ?_⟩
  · rw [Array.size_push, h.length, List.length_append, List.length_singleton]
  · exact Ty.Numbered.concat h.id_eq ht.id_eq
  · intro u hu
    rcases List.mem_append.mp hu with hu | hu
    · exact (h.sound u hu).mono hsub
    · rw [List.mem_singleton.mp hu]
      exact ht.sound.mono hsub
  · intro u hu d rs hrs
    rcases List.mem_append.mp hu with hu | hu
    · rw [hold u hu] at hrs
      obtain ⟨us, rfl, hus⟩ := h.stored u hu d rs hrs
      exact ⟨us, rfl, hus.mono hsub⟩
    -- the edges of the new node were declared before it, so they lead to older nodes
    · rw [List.mem_singleton.mp hu] at hrs ⊢
      rw [hnew] at hrs
      obtain ⟨us, rfl, hmem, hleads⟩ := ht.edges d rs hrs
      refine ⟨us, rfl, fun v hv => hsub (hmem hv), hleads, ?_⟩
      intro _ _ _ _ v hv
      rw [ht.id_eq]
      exact h.id_lt (hmem hv)
  · intro u hu
    rcases List.mem_append.mp hu with hu | hu
    · simp only [hold u hu]
      exact (h.storedAsOffered u hu).transfer fun _ => h.offers_iff (l.grows_push e) (.node hu)
    · rw [List.mem_singleton.mp hu]
      simp only [hnew]
      exact ht.storedAsOffered.transfer fun hcontainer =>
        h.offers_iff (l.grows_push e) (.of_parts hcontainer ht.sound.parts)
  · intro u hu
    rcases List.mem_append.mp hu with hu | hu
    · exact h.serial_lt u hu
    · rw [List.mem_singleton.mp hu]
      exact ht.serial_lt
  · intro u hu v hv hserial
    rcases List.mem_append.mp hu with hu | hu <;> rcases List.mem_append.mp hv with hv | hv
    · exact h.sameOrigin u hu v hv hserial
    · rw [List.mem_singleton.mp hv] at hserial ⊢
      exact ht.sameOrigin u hu hserial
    · rw [List.mem_singleton.mp hu] at hserial ⊢
      exact (ht.sameOrigin v hv hserial.symm).symm
    · rw [List.mem_singleton.mp hu, List.mem_singleton.mp hv]
      exact .refl t

/-- The edges of a container can be stored once they are worked out. -/
lemma store (h : WellFormed terms l ns) {t : Ty} (ht : t ∈ ns) (hcontainer : t.isContainer = true)
    {d : Direction} {us : List Ty} (hus : Declared ns d t us) (hexact : l.Exact d t us) :
    WellFormed terms (l.store d t.id (us.map .type)) ns := by
  have hsame : ∀ u ∈ ns, u.isContainer = false → ∀ d',
      (l.store d t.id (us.map .type)).stored? d' u.id = l.stored? d' u.id := by
    intro u hu hleaf d'
    rw [Lattice.stored?_store, if_neg]
    rintro ⟨hid, -⟩
    rw [h.unique hu ht hid, hcontainer] at hleaf
    cases hleaf
  have hoffers := fun u (hu : u ∈ ns) => h.offers_iff_of_same hsame (.node hu)
  refine ⟨?_, h.id_eq, h.sound, ?_, ?_, h.serial_lt, h.sameOrigin⟩
  · rw [Lattice.store, Array.size_modify, h.length]
  · intro u hu d' rs hrs
    rw [Lattice.stored?_store] at hrs
    split at hrs
    · rename_i hsame
      obtain ⟨hid, rfl, -⟩ := hsame
      obtain rfl := h.unique hu ht hid
      exact ⟨us, (Option.some.inj hrs).symm, hus⟩
    · exact h.stored u hu d' rs hrs
  · intro u hu
    have hoffered := h.storedAsOffered u hu
    by_cases hleaf : u.isContainer = false
    · simp only [hsame u hu hleaf]
      exact hoffered.transfer fun _ => hoffers u hu
    · refine ⟨fun hu' => (hleaf hu').elim, fun hu' d' vs hvs => ?_, ?_⟩
      · rw [Lattice.stored?_store] at hvs
        split at hvs
        · rename_i hsame
          obtain ⟨hid, rfl, -⟩ := hsame
          obtain rfl := h.unique hu ht hid
          obtain rfl : us = vs := List.map_injective_iff.mpr (fun _ _ => Referent.type.inj)
            (Option.some.inj hvs)
          exact hexact.transfer (hoffers u hu)
        · exact (hoffered.exact hu' d' vs hvs).transfer (hoffers u hu)
      · exact fun d' v hv => (hleaf (Ty.not_container_of_evident hv)).elim

lemma edge (h : WellFormed terms l ns) {d : Direction} {t u : Ty} (ht : t ∈ ns) (hedge : l.Edge d t u) :
    u ∈ ns ∧ t.Leads d u := by
  obtain ⟨rs, hrs, hu⟩ := hedge
  obtain ⟨us, rfl, hus⟩ := h.stored t ht d rs hrs
  obtain ⟨v, hv, hvu⟩ := List.mem_map.mp hu
  obtain rfl := Referent.type.inj hvu
  exact ⟨hus.mem hv, hus.leads v hv⟩

/-- What is offered is spanned by the nodes as well, and an edge between trees leads there. -/
lemma offered (h : WellFormed terms l ns) {d : Direction} {t u : Ty} (ht : t.Spanned ns)
    (hoffers : l.Offers d t u) : u.Spanned ns ∧ t.Leads d u := by
  induction hoffers with
  | stored hleaf hedge =>
    obtain ⟨hu, hleads⟩ := h.edge (ht.mem hleaf) hedge
    exact ⟨.node hu, hleads⟩
  | narrowInner _ ih =>
    obtain ⟨ho, hi⟩ := h.parts_spanned ht
    exact ⟨.unary _ _ ho (ih hi).1, .narrowInner (ih hi).2⟩
  | narrowOuter _ ih =>
    obtain ⟨ho, hi⟩ := h.parts_spanned ht
    exact ⟨.unary _ _ (ih ho).1 hi, .narrowOuter (ih ho).2⟩
  | narrowBoth _ _ iho ihi =>
    obtain ⟨ho, hi⟩ := h.parts_spanned ht
    exact ⟨.unary _ _ (iho ho).1 (ihi hi).1, .narrowBoth (iho ho).2 (ihi hi).2⟩
  | outer => exact ⟨(h.parts_spanned ht).1, .outer⟩
  | widenInner _ ih =>
    obtain ⟨ho, hi⟩ := h.parts_spanned ht
    exact ⟨.unary _ _ ho (ih hi).1, .widenInner (ih hi).2⟩

/-- Where the edges of a node are stored, they are what it offers. -/
lemma exact (h : WellFormed terms l ns) {t : Ty} (ht : t ∈ ns) {d : Direction} {us : List Ty}
    (hus : l.stored? d t.id = some (us.map .type)) : l.Exact d t us := by
  by_cases hleaf : t.isContainer = false
  · refine ⟨fun u hu => .stored hleaf ((Lattice.edge_iff hus).mpr hu), fun u hu => ?_⟩
    exact ⟨u, (Lattice.edge_iff hus).mp (hu.edge hleaf), .refl u⟩
  · exact (h.storedAsOffered t ht).exact (by simpa using hleaf) d us hus

end WellFormed

section Names

variable {terms : Terms} {ns : List Ty} {t : Ty}

lemma Sound.names (h : Sound terms ns t) : ∃ names, t.names = .ok names ∧ names ≠ [] := by
  obtain ⟨names, hnames, hne⟩ := h.named
  refine ⟨names, ?_, hne⟩
  rw [Ty.names, hnames]

lemma Sound.name (h : Sound terms ns t) : ∃ name, t.name = .ok name := by
  obtain ⟨names, hnames, hne⟩ := h.names
  cases names with
  | nil => exact (hne rfl).elim
  | cons name rest =>
    rw [Ty.name, hnames]
    exact ⟨name, rfl⟩

lemma Sound.canonicalName (h : Sound terms ns t) : ∃ name, t.canonicalName = .ok name := by
  obtain ⟨names, hnames, hne⟩ := h.names
  have hlast : names.getLast? = some (names.getLast hne) := List.getLast?_eq_some_getLast hne
  refine ⟨names.getLast hne, ?_⟩
  rw [Ty.canonicalName, hnames]
  simp only [bind, Except.bind, hlast]

lemma Sound.firstDoc (h : Sound terms ns t) (hdoc : terms.documented) : ∃ doc, t.firstDoc = .ok doc := by
  obtain ⟨docs, hdocs, hne⟩ := h.documented
  rw [Ty.firstDoc, Ty.docs, hdocs]
  cases docs with
  | nil => exact (hne hdoc rfl).elim
  | cons doc rest => exact ⟨doc, rfl⟩

end Names

/-- A computation that leads to a larger well-formed lattice. It cannot fail if docs always have an entry, and
what it results in satisfies `Q`. -/
def Yields (terms : Terms) (l : Lattice) (ns : List Ty) {α : Type} (x : Build α)
    (Q : Lattice → List Ty → α → Prop) : Prop :=
  ∃ ns', WellFormed terms (x l).2 ns' ∧ ns ⊆ ns' ∧ l.Grows (x l).2 ∧
    (terms.documented → ∃ a, (x l).1 = .ok a) ∧ ∀ a, (x l).1 = .ok a → Q (x l).2 ns' a

namespace Yields

variable {terms : Terms} {l : Lattice} {ns : List Ty} {α β : Type} {x : Build α}
  {Q : Lattice → List Ty → α → Prop} {R : Lattice → List Ty → β → Prop}

lemma of_eq {r : Attempt α} {l' : Lattice} (hx : x l = (r, l')) {ns' : List Ty}
    (h : WellFormed terms l' ns') (hsub : ns ⊆ ns') (hgrows : l.Grows l')
    (htotal : terms.documented → ∃ a, r = .ok a) (hQ : ∀ a, r = .ok a → Q l' ns' a) :
    Yields terms l ns x Q := by
  refine ⟨ns', ?_⟩
  rw [hx]
  exact ⟨h, hsub, hgrows, htotal, hQ⟩

lemma pure (h : WellFormed terms l ns) {a : α} (hQ : Q l ns a) :
    Yields terms l ns (Pure.pure a : Build α) Q := by
  apply of_eq (pure_apply a l) h (List.Subset.refl ns) (.refl l)
  · exact fun _ => ⟨a, rfl⟩
  · rintro _ ⟨⟩
    exact hQ

lemma bind (hx : Yields terms l ns x Q) {f : α → Build β}
    (hf : ∀ a l' ns', WellFormed terms l' ns' → ns ⊆ ns' → l.Grows l' → Q l' ns' a →
      Yields terms l' ns' (f a) R) : Yields terms l ns (x >>= f) R := by
  obtain ⟨ns', hpop, hsub, hgrows, htotal, hQ⟩ := hx
  rcases hrun : x l with ⟨fault | a, l'⟩
  · rw [hrun] at hpop hgrows htotal
    apply of_eq (bind_of_error hrun) hpop hsub hgrows
    · intro hdoc
      obtain ⟨a, ha⟩ := htotal hdoc
      cases ha
    · rintro _ ⟨⟩
  · rw [hrun] at hpop hgrows hQ
    obtain ⟨ns'', hpop', hsub', hgrows', htotal', hR⟩ := hf a l' ns' hpop hsub hgrows (hQ a rfl)
    refine ⟨ns'', ?_⟩
    rw [bind_of_ok hrun]
    exact ⟨hpop', fun t ht => hsub' (hsub ht), hgrows.trans hgrows', htotal', hR⟩

lemma mono (hx : Yields terms l ns x Q) {Q' : Lattice → List Ty → α → Prop}
    (hQ : ∀ l' ns' a, ns ⊆ ns' → Q l' ns' a → Q' l' ns' a) : Yields terms l ns x Q' := by
  obtain ⟨ns', hpop, hsub, hgrows, htotal, h⟩ := hx
  exact ⟨ns', hpop, hsub, hgrows, htotal, fun a ha => hQ _ _ a hsub (h a ha)⟩

/-- A computation that cannot fail, with the well-formed lattice it leads to. -/
lemma succeeds (h : Yields terms l ns x Q) (hdoc : terms.documented) :
    ∃ a l' ns', x l = (.ok a, l') ∧ WellFormed terms l' ns' ∧ ns ⊆ ns' ∧ l.Grows l' ∧ Q l' ns' a := by
  obtain ⟨ns', hpop, hsub, hgrows, htotal, hQ⟩ := h
  obtain ⟨a, ha⟩ := htotal hdoc
  exact ⟨a, (x l).2, ns', Prod.ext ha rfl, hpop, hsub, hgrows, hQ a ha⟩

lemma attempt (h : WellFormed terms l ns) {attempt : Attempt α}
    (htotal : terms.documented → ∃ a, attempt = .ok a) {f : α → Build β}
    (hf : ∀ a, attempt = .ok a → Yields terms l ns (f a) R) :
    Yields terms l ns (Build.ofAttempt attempt >>= f) R := by
  have hx : Yields terms l ns (Build.ofAttempt attempt) fun l' ns' a =>
      l' = l ∧ ns' = ns ∧ attempt = .ok a :=
    of_eq rfl h (List.Subset.refl ns) (.refl l) htotal fun a ha => ⟨rfl, rfl, ha⟩
  refine hx.bind ?_
  rintro a l' ns' - - - ⟨rfl, rfl, ha⟩
  exact hf a ha

lemma get {f : Lattice → Build β} (hf : Yields terms l ns (f l) R) :
    Yields terms l ns (MonadState.get >>= f) R := by
  unfold Yields
  rw [get_bind]
  exact hf

lemma takeSerial (h : WellFormed terms l ns) {f : Nat → Build β}
    (hf : ∀ serial l', WellFormed terms l' ns → UnusedSerial l' ns serial →
      (∀ other, UnusedSerial l ns other → UnusedSerial l' ns other ∧ other ≠ serial) →
      Yields terms l' ns (f serial) R) : Yields terms l ns (Build.takeSerial >>= f) R := by
  have hx : Yields terms l ns Build.takeSerial fun l' ns' serial => ns' = ns ∧ UnusedSerial l' ns serial ∧
      ∀ other, UnusedSerial l ns other → UnusedSerial l' ns other ∧ other ≠ serial := by
    have hrun : Build.takeSerial l = (.ok l.nextSerial, { l with nextSerial := l.nextSerial + 1 }) := rfl
    apply of_eq hrun (h.withSerial (Nat.le_succ l.nextSerial)) (List.Subset.refl ns) (fun _ _ _ hs => hs)
    · exact fun _ => ⟨_, rfl⟩
    rintro _ ⟨⟩
    refine ⟨rfl, ⟨Nat.lt_succ_self _, fun t ht => Nat.ne_of_lt (h.serial_lt t ht)⟩, fun other hother => ?_⟩
    exact ⟨⟨Nat.lt_succ_of_lt hother.lt, hother.unused⟩, Nat.ne_of_lt hother.lt⟩
  refine hx.bind ?_
  rintro serial l' ns' hpop - - ⟨rfl, hunused, hothers⟩
  exact hf serial l' hpop hunused hothers

/-- The last step of every constructor: a new node is registered and handed out. -/
lemma node (h : WellFormed terms l ns) {e : Edges} {t : Nat → Ty} (ht : Fits terms l ns e (t ns.length)) :
    Yields terms l ns (do return t (← Build.register e)) fun l' ns' u => u ∈ ns' ∧ u = t ns.length ∧
      ∀ serial, UnusedSerial l ns serial → serial ≠ u.serial → UnusedSerial l' ns' serial := by
  have hrun : (do return t (← Build.register e) : Build Ty) l =
      (.ok (t ns.length), { l with entries := l.entries.push e }) := by
    rw [← h.length]
    rfl
  apply of_eq hrun (h.push ht) (List.subset_append_left ns _) (l.grows_push e)
  · exact fun _ => ⟨_, rfl⟩
  · rintro _ ⟨⟩
    refine ⟨List.mem_append_right ns (List.mem_singleton_self _), rfl, fun serial hserial hne => ?_⟩
    refine ⟨hserial.lt, fun u hu => ?_⟩
    rcases List.mem_append.mp hu with hu | hu
    · exact hserial.unused u hu
    · rw [List.mem_singleton.mp hu]
      exact hne.symm

lemma mapM {P : α → List Ty → β → Prop} (hmono : ∀ a ns ns' b, ns ⊆ ns' → P a ns b → P a ns' b)
    {f : α → Build β} {as : List α} (h : WellFormed terms l ns)
    (hf : ∀ a ∈ as, ∀ l' ns', WellFormed terms l' ns' → ns ⊆ ns' →
      Yields terms l' ns' (f a) fun _ ns'' b => P a ns'' b) :
    Yields terms l ns (as.mapM f) fun _ ns' bs => List.Forall₂ (fun a b => P a ns' b) as bs := by
  induction as generalizing l ns with
  | nil =>
    rw [List.mapM_nil]
    exact pure h .nil
  | cons a as ih =>
    rw [List.mapM_cons]
    refine (hf a List.mem_cons_self l ns h (List.Subset.refl ns)).bind ?_
    intro b l' ns' hpop hsub _ hb
    have hrest := ih hpop fun a' ha' l'' ns'' hpop' hsub' =>
      hf a' (List.mem_cons_of_mem a ha') l'' ns'' hpop' fun t ht => hsub' (hsub ht)
    refine hrest.bind ?_
    intro bs l'' ns'' hpop' hsub' _ hbs
    exact pure hpop' (.cons (hmono a ns' ns'' b hsub' hb) hbs)

end Yields

end StructuralTypes
