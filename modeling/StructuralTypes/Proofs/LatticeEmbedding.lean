import StructuralTypes.Proofs.PredictedEdges
import StructuralTypes.Proofs.Renumbering
import StructuralTypes.Proofs.Simulation

/-!
# Embeddings of lattices

A lattice embeds into another one along a renumbering if the other one has all its nodes under the new
numbers, with the edges stored for them, and if the renumbering maps the numbers that the one hands out next to
those that the other one hands out next. The other lattice may have more nodes, and edges that are worked out
already where the first one has none yet. A strict embedding has no such edges.
-/

namespace StructuralTypes

/-- Plain values are always at hand, types only if they are among the given nodes. -/
def Referent.Known (ns : List Ty) : Referent → Prop
  | .type t => t ∈ ns
  | .plain .. => True

lemma Referent.Known.mono {ns ns' : List Ty} (hns : ns ⊆ ns') {r : Referent} (h : r.Known ns) : r.Known ns' := by
  cases r with
  | type t => exact hns h
  | plain => trivial

/-- No edge was overwritten: the edges of nodes lead to older nodes, and those of containers are the predicted
ones. -/
structure Lattice.Untouched (l : Lattice) (ns : List Ty) : Prop where
  older : ∀ t ∈ ns, ∀ p ∈ t.parts, p.id < t.id
  settled : ∀ t ∈ ns, t.isContainer = false → ∀ d,
    ∃ us : List Ty, l.stored? d t.id = some (us.map .type) ∧ ∀ u ∈ us, u ∈ ns ∧ u.id < t.id
  worked : ∀ t ∈ ns, t.isContainer = true → ∀ d rs, l.stored? d t.id = some rs → l.Matching d t rs

/-- A lattice that holds exactly the given nodes. -/
structure NodeEnumeration (untouched : Prop) (l : Lattice) (ns : List Ty) : Prop where
  length : l.entries.size = ns.length
  id_eq : ∀ i (t : Ty), ns[i]? = some t → t.id = i
  parts : ∀ t ∈ ns, t.parts ⊆ ns
  serial_lt : ∀ t ∈ ns, t.serial < l.nextSerial
  known : ∀ t ∈ ns, ∀ d rs, l.stored? d t.id = some rs → ∀ r ∈ rs, r.Known ns
  untouched : untouched → l.Untouched ns

/-- What a new node with the given edges has to satisfy to be added to the nodes of a lattice. -/
structure AdmissibleNode (untouched : Prop) (l : Lattice) (ns : List Ty) (e : Edges) (t : Ty) : Prop where
  id_eq : t.id = l.entries.size
  parts : t.parts ⊆ ns
  serial_lt : t.serial < l.nextSerial
  known : ∀ d rs, e.get? d = some rs → ∀ r ∈ rs, r.Known ns
  settled : untouched → t.isContainer = false → ∀ d, ∃ us : List Ty, e.get? d = some (us.map .type)
  worked : untouched → t.isContainer = true → ∀ d rs, e.get? d = some rs → l.Matching d t rs

namespace NodeEnumeration

variable {untouched : Prop} {l : Lattice} {ns : List Ty}

lemma empty (untouched : Prop) : NodeEnumeration untouched .empty [] := by
  refine ⟨rfl, ?_, ?_, ?_, ?_, fun _ => ⟨?_, ?_, ?_⟩⟩ <;> simp

lemma id_lt (h : NodeEnumeration untouched l ns) {t : Ty} (ht : t ∈ ns) : t.id < l.entries.size := by
  rw [h.length]
  exact Ty.Numbered.id_lt h.id_eq ht

lemma unique (h : NodeEnumeration untouched l ns) {t u : Ty} (ht : t ∈ ns) (hu : u ∈ ns) (hid : t.id = u.id) : t = u :=
  Ty.Numbered.unique h.id_eq ht hu hid

lemma withSerial (h : NodeEnumeration untouched l ns) {serial : Nat} (hserial : l.nextSerial ≤ serial) :
    NodeEnumeration untouched { l with nextSerial := serial } ns := by
  refine ⟨h.length, h.id_eq, h.parts, fun t ht => Nat.lt_of_lt_of_le (h.serial_lt t ht) hserial, h.known, ?_⟩
  intro hun
  refine ⟨(h.untouched hun).older, (h.untouched hun).settled, fun t ht hcontainer d rs hrs => ?_⟩
  exact ((h.untouched hun).worked t ht hcontainer d rs hrs).transfer h.parts (fun _ _ _ _ => rfl) (.node ht)

lemma stored?_push_of_mem (h : NodeEnumeration untouched l ns) (e : Edges) {t : Ty} (ht : t ∈ ns) (d : Direction) :
    Lattice.stored? { l with entries := l.entries.push e } d t.id = l.stored? d t.id := by
  rw [Lattice.stored?_push, if_neg (Nat.ne_of_lt (h.id_lt ht))]

lemma push (h : NodeEnumeration untouched l ns) {t : Ty} {e : Edges} (ht : AdmissibleNode untouched l ns e t) :
    NodeEnumeration untouched { l with entries := l.entries.push e } (ns ++ [t]) := by
  have hsub : ns ⊆ ns ++ [t] := List.subset_append_left ns [t]
  have hold := fun u (hu : u ∈ ns) => h.stored?_push_of_mem e hu
  have hnew : ∀ d, Lattice.stored? { l with entries := l.entries.push e } d t.id = e.get? d := by
    intro d
    rw [Lattice.stored?_push, if_pos ht.id_eq]
  refine ⟨?_, Ty.Numbered.concat h.id_eq (ht.id_eq.trans h.length), ?_, ?_, ?_, fun hun => ⟨?_, ?_, ?_⟩⟩
  · rw [Array.size_push, h.length, List.length_append, List.length_singleton]
  · intro u hu
    rcases List.mem_append.mp hu with hu | hu
    · exact fun p hp => hsub (h.parts u hu hp)
    · rw [List.mem_singleton.mp hu]
      exact fun p hp => hsub (ht.parts hp)
  · intro u hu
    rcases List.mem_append.mp hu with hu | hu
    · exact h.serial_lt u hu
    · rw [List.mem_singleton.mp hu]
      exact ht.serial_lt
  · intro u hu d rs hrs r hr
    rcases List.mem_append.mp hu with hu | hu
    · rw [hold u hu] at hrs
      exact (h.known u hu d rs hrs r hr).mono hsub
    · rw [List.mem_singleton.mp hu, hnew] at hrs
      exact (ht.known d rs hrs r hr).mono hsub
  · intro u hu p hp
    rcases List.mem_append.mp hu with hu | hu
    · exact (h.untouched hun).older u hu p hp
    · rw [List.mem_singleton.mp hu] at hp ⊢
      rw [ht.id_eq]
      exact h.id_lt (ht.parts hp)
  · intro u hu hleaf d
    rcases List.mem_append.mp hu with hu | hu
    · obtain ⟨us, hus, hback⟩ := (h.untouched hun).settled u hu hleaf d
      exact ⟨us, (hold u hu d).trans hus, fun v hv => ⟨hsub (hback v hv).1, (hback v hv).2⟩⟩
    -- the edges of the new node are known, so they lead to nodes that were there before it
    · rw [List.mem_singleton.mp hu] at hleaf ⊢
      obtain ⟨us, hus⟩ := ht.settled hun hleaf d
      refine ⟨us, (hnew d).trans hus, fun v hv => ?_⟩
      have hv : v ∈ ns := ht.known d _ hus (.type v) (List.mem_map_of_mem hv)
      rw [ht.id_eq]
      exact ⟨hsub hv, h.id_lt hv⟩
  · intro u hu hcontainer d rs hrs
    rcases List.mem_append.mp hu with hu | hu
    · rw [hold u hu] at hrs
      exact ((h.untouched hun).worked u hu hcontainer d rs hrs).transfer h.parts
        (fun v hv _ => hold v hv) (.node hu)
    · rw [List.mem_singleton.mp hu] at hcontainer hrs ⊢
      rw [hnew] at hrs
      exact (ht.worked hun hcontainer d rs hrs).transfer h.parts (fun v hv _ => hold v hv)
        (.of_parts hcontainer ht.parts)

/-- Edges can be stored for a node if the lattice need not stay untouched, and otherwise for a container if
they are those predicted. -/
lemma store (h : NodeEnumeration untouched l ns) {t : Ty} (ht : t ∈ ns) {d : Direction} {rs : List Referent}
    (hknown : ∀ r ∈ rs, r.Known ns) (hworked : untouched → t.isContainer = true ∧ l.Matching d t rs) :
    NodeEnumeration untouched (l.store d t.id rs) ns := by
  refine ⟨?_, h.id_eq, h.parts, h.serial_lt, ?_, fun hun => ?_⟩
  · rw [Lattice.store, Array.size_modify, h.length]
  · intro u hu d' ss hss r hr
    rw [Lattice.stored?_store] at hss
    split at hss
    · rw [← Option.some.inj hss] at hr
      exact hknown r hr
    · exact h.known u hu d' ss hss r hr
  · obtain ⟨hcontainer, hmatching⟩ := hworked hun
    have hsame : ∀ u ∈ ns, u.isContainer = false → ∀ d',
        (l.store d t.id rs).stored? d' u.id = l.stored? d' u.id := by
      intro u hu hleaf d'
      rw [Lattice.stored?_store, if_neg]
      rintro ⟨hid, -⟩
      rw [h.unique hu ht hid, hcontainer] at hleaf
      cases hleaf
    refine ⟨(h.untouched hun).older, ?_, ?_⟩
    · intro u hu hleaf d'
      rw [hsame u hu hleaf]
      exact (h.untouched hun).settled u hu hleaf d'
    · intro u hu hu' d' ss hss
      rw [Lattice.stored?_store] at hss
      split at hss
      · rename_i hsame'
        obtain ⟨hid, rfl, -⟩ := hsame'
        obtain rfl := h.unique hu ht hid
        rw [← Option.some.inj hss]
        exact hmatching.transfer h.parts hsame (.node hu)
      · exact ((h.untouched hun).worked u hu hu' d' ss hss).transfer h.parts hsame (.node hu)

end NodeEnumeration

/-- `l'` has the nodes of `l` under new numbers, and the numbers that are handed out next correspond. -/
structure LatticeEmbedding (c : Comparison) (strict : Prop) (ρ : Renumbering) (ns : List Ty) (l l' : Lattice) :
    Prop where
  enumeration : NodeEnumeration c.untouched l ns
  next_id : ∀ k, ρ.id (l.entries.size + k) = l'.entries.size + k
  next_serial : ∀ k, ρ.serial (l.nextSerial + k) = l'.nextSerial + k
  stored : ∀ t ∈ ns, ∀ d rs, l.stored? d t.id = some rs →
    l'.stored? d (ρ.id t.id) = some (rs.map (Referent.renumber ρ))
  unstored : ∀ t ∈ ns, (t.isContainer = true → strict) → ∀ d, l.stored? d t.id = none →
    l'.stored? d (ρ.id t.id) = none

/-- A type at hand and its image under the renumbering. -/
def Ty.RenumbersTo (ρ : Renumbering) (ns : List Ty) (t t' : Ty) : Prop := t ∈ ns ∧ t' = t.renumber ρ

def Referent.RenumbersTo (ρ : Renumbering) (ns : List Ty) (r r' : Referent) : Prop :=
  r.Known ns ∧ r' = r.renumber ρ

lemma Ty.RenumbersTo.mono {ρ : Renumbering} {ns ns' : List Ty} {t t' : Ty} (hns : ns ⊆ ns')
    (h : t.RenumbersTo ρ ns t') : t.RenumbersTo ρ ns' t' := ⟨hns h.1, h.2⟩

lemma Ty.RenumbersTo.type {ρ : Renumbering} {ns : List Ty} {t t' : Ty} (h : t.RenumbersTo ρ ns t') :
    (Referent.type t).RenumbersTo ρ ns (.type t') := ⟨h.1, congrArg Referent.type h.2⟩

lemma Referent.RenumbersTo.mono {ρ : Renumbering} {ns ns' : List Ty} {r r' : Referent} (hns : ns ⊆ ns')
    (h : r.RenumbersTo ρ ns r') : r.RenumbersTo ρ ns' r' := ⟨h.1.mono hns, h.2⟩

namespace LatticeEmbedding

variable {c : Comparison} {strict : Prop} {ρ : Renumbering} {ns : List Ty} {l l' : Lattice}

lemma id_size (h : LatticeEmbedding c strict ρ ns l l') : ρ.id l.entries.size = l'.entries.size := h.next_id 0

lemma serial_next (h : LatticeEmbedding c strict ρ ns l l') : ρ.serial l.nextSerial = l'.nextSerial :=
  h.next_serial 0

lemma size_le (h : LatticeEmbedding c strict ρ ns l l') : l.entries.size ≤ l'.entries.size := by
  rw [← h.id_size]
  exact ρ.id_strictMono.id_le _

lemma id_lt (h : LatticeEmbedding c strict ρ ns l l') {t : Ty} (ht : t ∈ ns) : ρ.id t.id < l'.entries.size := by
  rw [← h.id_size]
  exact ρ.id_strictMono (h.enumeration.id_lt ht)

lemma stored?_eq (h : LatticeEmbedding c strict ρ ns l l') {t : Ty} (ht : t ∈ ns)
    (hstrict : t.isContainer = true → strict) (d : Direction) :
    l'.stored? d (ρ.id t.id) = (l.stored? d t.id).map (·.map (Referent.renumber ρ)) := by
  cases hrs : l.stored? d t.id with
  | none => exact h.unstored t ht hstrict d hrs
  | some rs => exact h.stored t ht d rs hrs

lemma withSerial (h : LatticeEmbedding c strict ρ ns l l') (k : Nat) :
    LatticeEmbedding c strict ρ ns { l with nextSerial := l.nextSerial + k }
      { l' with nextSerial := l'.nextSerial + k } := by
  refine ⟨h.enumeration.withSerial (Nat.le_add_right _ k), h.next_id, fun j => ?_, h.stored, h.unstored⟩
  have hstep := h.next_serial (k + j)
  simp only [Nat.add_assoc] at hstep ⊢
  exact hstep

lemma push (h : LatticeEmbedding c strict ρ ns l l') {t : Ty} {e e' : Edges} (ht : AdmissibleNode c.untouched l ns e t)
    (hkept : ∀ d rs, e.get? d = some rs → e'.get? d = some (rs.map (Referent.renumber ρ)))
    (hmissing : (t.isContainer = true → strict) → ∀ d, e.get? d = none → e'.get? d = none) :
    LatticeEmbedding c strict ρ (ns ++ [t]) { l with entries := l.entries.push e }
      { l' with entries := l'.entries.push e' } := by
  have hold' : ∀ u ∈ ns, ∀ d, Lattice.stored? { l' with entries := l'.entries.push e' } d (ρ.id u.id) =
      l'.stored? d (ρ.id u.id) := by
    intro u hu d
    rw [Lattice.stored?_push, if_neg (Nat.ne_of_lt (h.id_lt hu))]
  have hnew : ∀ d, Lattice.stored? { l with entries := l.entries.push e } d t.id = e.get? d := by
    intro d
    rw [Lattice.stored?_push, if_pos ht.id_eq]
  have hnew' : ∀ d, Lattice.stored? { l' with entries := l'.entries.push e' } d (ρ.id t.id) = e'.get? d := by
    intro d
    rw [Lattice.stored?_push, ht.id_eq, if_pos h.id_size]
  refine ⟨h.enumeration.push ht, fun k => ?_, h.next_serial, ?_, ?_⟩
  · have hstep := h.next_id (1 + k)
    simp only [Array.size_push, Nat.add_assoc] at hstep ⊢
    exact hstep
  · intro u hu d rs hrs
    rcases List.mem_append.mp hu with hu | hu
    · rw [h.enumeration.stored?_push_of_mem e hu] at hrs
      rw [hold' u hu]
      exact h.stored u hu d rs hrs
    · rw [List.mem_singleton.mp hu] at hrs ⊢
      rw [hnew] at hrs
      rw [hnew']
      exact hkept d rs hrs
  · intro u hu hstrict d hnone
    rcases List.mem_append.mp hu with hu | hu
    · rw [h.enumeration.stored?_push_of_mem e hu] at hnone
      rw [hold' u hu]
      exact h.unstored u hu hstrict d hnone
    · rw [List.mem_singleton.mp hu] at hnone hstrict ⊢
      rw [hnew] at hnone
      rw [hnew']
      exact hmissing hstrict d hnone

lemma store (h : LatticeEmbedding c strict ρ ns l l') {t : Ty} (ht : t ∈ ns) {d : Direction} {rs : List Referent}
    (hknown : ∀ r ∈ rs, r.Known ns) (hworked : c.untouched → t.isContainer = true ∧ l.Matching d t rs) :
    LatticeEmbedding c strict ρ ns (l.store d t.id rs)
      (l'.store d (ρ.id t.id) (rs.map (Referent.renumber ρ))) := by
  have hsize : (l.store d t.id rs).entries.size = l.entries.size := by rw [Lattice.store, Array.size_modify]
  have hsize' : (l'.store d (ρ.id t.id) (rs.map (Referent.renumber ρ))).entries.size = l'.entries.size := by
    rw [Lattice.store, Array.size_modify]
  refine ⟨h.enumeration.store ht hknown hworked, ?_, h.next_serial, ?_, ?_⟩
  · rw [hsize, hsize']
    exact h.next_id
  · intro u hu d' ss hss
    rw [Lattice.stored?_store] at hss ⊢
    simp only [ρ.id_inj, h.id_lt ht, h.enumeration.id_lt ht, and_true] at hss ⊢
    split at hss
    · rename_i hsame
      rw [if_pos hsame, ← Option.some.inj hss]
    · rename_i hother
      rw [if_neg hother]
      exact h.stored u hu d' ss hss
  · intro u hu hstrict d' hnone
    rw [Lattice.stored?_store] at hnone ⊢
    simp only [ρ.id_inj, h.id_lt ht, h.enumeration.id_lt ht, and_true] at hnone ⊢
    split at hnone
    · cases hnone
    · rename_i hother
      rw [if_neg hother]
      exact h.unstored u hu hstrict d' hnone

end LatticeEmbedding

section Rules

variable {c : Comparison} {strict : Prop} {ρ : Renumbering} {ns : List Ty} {l l' : Lattice}

/-- Computations on two lattices, the first of them embedded into the second, that simulate each other. -/
abbrev BuildSimulates (c : Comparison) (strict : Prop) (ρ : Renumbering) (ns : List Ty) (l l' : Lattice) {α β : Type}
    (x : Build α) (y : Build β) (Q : List Ty → α → β → Prop) : Prop :=
  Simulates c (LatticeEmbedding c strict ρ) ns l l' x y Q

lemma buildSimulates_takeSerial (h : LatticeEmbedding c strict ρ ns l l') {α β : Type} {Q : List Ty → α → β → Prop}
    {f : Nat → Build α} {g : Nat → Build β}
    (hf : LatticeEmbedding c strict ρ ns { l with nextSerial := l.nextSerial + 1 }
        { l' with nextSerial := l'.nextSerial + 1 } →
      BuildSimulates c strict ρ ns { l with nextSerial := l.nextSerial + 1 }
        { l' with nextSerial := l'.nextSerial + 1 } (f l.nextSerial) (g (ρ.serial l.nextSerial)) Q) :
    BuildSimulates c strict ρ ns l l' (Build.takeSerial >>= f) (Build.takeSerial >>= g) Q := by
  have hrest := hf (h.withSerial 1)
  rw [h.serial_next] at hrest
  exact hrest

/-- A new node on either side. -/
lemma buildSimulates_node (h : LatticeEmbedding c strict ρ ns l l') {e e' : Edges} {t t' : Nat → Ty}
    (ht : AdmissibleNode c.untouched l ns e (t l.entries.size))
    (hkept : ∀ d rs, e.get? d = some rs → e'.get? d = some (rs.map (Referent.renumber ρ)))
    (hmissing : ((t l.entries.size).isContainer = true → strict) → ∀ d, e.get? d = none → e'.get? d = none)
    (heq : t' (ρ.id l.entries.size) = (t l.entries.size).renumber ρ) :
    BuildSimulates c strict ρ ns l l' (do return t (← Build.register e)) (do return t' (← Build.register e'))
      (Ty.RenumbersTo ρ) := by
  refine ⟨ns ++ [t l.entries.size], List.subset_append_left _ _, h.push ht hkept hmissing, .ok ⟨?_, ?_⟩⟩
  · exact List.mem_append_right ns (List.mem_singleton_self _)
  · rw [← heq, h.id_size]

end Rules

end StructuralTypes
