import StructuralTypes.Proofs.LastingEdges

/-!
# Lattices that unfold on demand

A node is asked for its edges, then each node that these lead to, and so on. The edges of a container may not be
worked out yet when it is asked, and working them out brings about further containers. Whatever edges were
written by hand before, each node on the way answers with types, provided that the nodes that are there to begin
with have the labels that new containers take over.
-/

namespace StructuralTypes

/-- A type that a container can be made of, which takes its name and its first doc. -/
structure Ty.Labelled (t : Ty) : Prop where
  canonicalName : ∃ name, t.canonicalName = .ok name
  firstDoc : ∃ doc, t.firstDoc = .ok doc

lemma Ty.Labelled.named {t : Ty} (h : t.Labelled) : ∃ name, t.name = .ok name := by
  obtain ⟨last, hlast⟩ := h.canonicalName
  rw [Ty.canonicalName] at hlast
  obtain ⟨names, hnames, hlast⟩ := ok_of_attempt hlast
  rw [Ty.name, hnames]
  cases names with
  | nil => cases hlast
  | cons name more => exact ⟨name, rfl⟩

/-- A reference to a type of some sort. -/
def Referent.Is (P : Ty → Prop) (r : Referent) : Prop := ∃ t, r = .type t ∧ P t

namespace Lattice

/-- A lattice after nodes that the root leads to have been asked for their edges, in whatever order. A node that
the root leads to over edges of one kind is asked for edges of that kind only. -/
inductive Unfolds (l : Lattice) (root : Ty) : Lattice → Prop
  | start : Unfolds l root l
  | ask {l' : Lattice} {d : Direction} {t : Ty} : Unfolds l root l' → l'.Reaches d root t →
      Unfolds l root (t.edges d l').2

/-- What edges of one kind can lead to once they are worked out, apart from containers that come about on the
way. The supersets of a container start with its outer part. -/
inductive MayReach (l : Lattice) (root : Ty) : Direction → Ty → Prop
  | root {d : Direction} : MayReach l root d root
  | edge {d : Direction} {t u : Ty} : MayReach l root d t → l.Edge d t u → MayReach l root d u
  | outer {label : Label} {outer inner : Ty} {extractor : Fn} :
      MayReach l root .supersets (.unary label outer extractor inner) → l.stored? .supersets label.id = none →
      MayReach l root .supersets outer

/-- What containers that come about on the way are made of, in place of the parts of one whose edges are not
worked out yet: these parts, what they lead to, and their own parts where they are such containers again. In the
supersets of a container, the outer part stays. -/
inductive PossiblePart (l : Lattice) (root : Ty) : Direction → Ty → Prop
  | outer {label : Label} {outer inner : Ty} {extractor : Fn} :
      l.MayReach root .subsets (.unary label outer extractor inner) → l.stored? .subsets label.id = none →
      PossiblePart l root .subsets outer
  | inner {d : Direction} {label : Label} {outer inner : Ty} {extractor : Fn} :
      l.MayReach root d (.unary label outer extractor inner) → l.stored? d label.id = none →
      PossiblePart l root d inner
  | edge {d : Direction} {t u : Ty} : PossiblePart l root d t → l.Edge d t u → PossiblePart l root d u
  | nested {d : Direction} {label : Label} {outer inner part : Ty} {extractor : Fn} :
      PossiblePart l root d (.unary label outer extractor inner) → l.stored? d label.id = none →
      part ∈ [outer, inner] → PossiblePart l root d part

/-- The edges lead from the root to named types only, and all containers are made of labelled types. -/
structure LabelledFrom (l : Lattice) (root : Ty) : Prop where
  named : ∀ d t, l.MayReach root d t → ∃ name, t.name = .ok name
  outer : ∀ label outer extractor inner, l.MayReach root .supersets (.unary label outer extractor inner) →
    l.stored? .supersets label.id = none → outer.Labelled
  labelled : ∀ d t, l.PossiblePart root d t → t.Labelled
  types : ∀ d t, l.MayReach root d t ∨ l.PossiblePart root d t →
    ∀ rs, l.stored? d t.id = some rs → ∀ r ∈ rs, ∃ u, r = .type u

/-- A possible part, or a container that was made of such types since. -/
inductive UnfoldedPart (l : Lattice) (root : Ty) : Direction → Ty → Prop
  | old {d : Direction} {t : Ty} : l.PossiblePart root d t → UnfoldedPart l root d t
  | new {d : Direction} {label : Label} {outer inner : Ty} {extractor : Fn} : l.entries.size ≤ label.id →
      (Ty.unary label outer extractor inner).Labelled → UnfoldedPart l root d outer →
      UnfoldedPart l root d inner → UnfoldedPart l root d (.unary label outer extractor inner)

/-- What edges of one kind can lead to, together with the containers that have come about since. -/
inductive UnfoldedReach (l : Lattice) (root : Ty) : Direction → Ty → Prop
  | old {d : Direction} {t : Ty} : l.MayReach root d t → UnfoldedReach l root d t
  | part {d : Direction} {t : Ty} : l.UnfoldedPart root d t → UnfoldedReach l root d t
  | new {label : Label} {outer inner : Ty} {extractor : Fn} : l.entries.size ≤ label.id →
      (Ty.unary label outer extractor inner).Labelled → outer.Labelled → UnfoldedReach l root .supersets outer →
      l.UnfoldedPart root .supersets inner → UnfoldedReach l root .supersets (.unary label outer extractor inner)

/-- What a node leads to, which are parts if the node itself is one. -/
structure Answers (l : Lattice) (root : Ty) (d : Direction) (t : Ty) (rs : List Referent) : Prop where
  reached : ∀ r ∈ rs, r.Is (l.UnfoldedReach root d)
  parts : l.UnfoldedPart root d t → ∀ r ∈ rs, r.Is (l.UnfoldedPart root d)

/-- What holds while one of the given nodes is asked for its edges, from when the lattice had the given size. -/
structure UnfoldingInvariant (l : Lattice) (root : Ty) (nodes : List Ty) (size : Nat) (l' : Lattice) : Prop where
  grows : l.Grows l'
  size_le : l.entries.size ≤ size ∧ size ≤ l'.entries.size
  pending : ∀ d id, size ≤ id → l'.stored? d id = none
  answers : ∀ d, ∀ t ∈ nodes, l.UnfoldedReach root d t → ∀ rs, l'.stored? d t.id = some rs → l.Answers root d t rs

end Lattice

/-- A computation that succeeds wherever an invariant holds, and preserves it. -/
def Succeeds {α : Type} (I : Lattice → Prop) (x : Build α) (Q : α → Prop) : Prop :=
  ∀ l, I l → ∃ a l', x l = (.ok a, l') ∧ I l' ∧ Q a

namespace Succeeds

variable {α β : Type} {I : Lattice → Prop} {x : Build α} {f : α → Build β} {Q : α → Prop} {R : β → Prop}

lemma pure {a : α} (h : Q a) : Succeeds I (Pure.pure a : Build α) Q := fun l hl => ⟨a, l, rfl, hl, h⟩

lemma mono (h : Succeeds I x Q) {Q' : α → Prop} (hQ : ∀ a, Q a → Q' a) : Succeeds I x Q' := by
  intro l hl
  obtain ⟨a, l', hrun, hl', ha⟩ := h l hl
  exact ⟨a, l', hrun, hl', hQ a ha⟩

lemma bind (hx : Succeeds I x Q) (hf : ∀ a, Q a → Succeeds I (f a) R) : Succeeds I (x >>= f) R := by
  intro l hl
  obtain ⟨a, l₁, hrun, hl₁, ha⟩ := hx l hl
  obtain ⟨b, l₂, hrest, hl₂, hb⟩ := hf a ha l₁ hl₁
  exact ⟨b, l₂, by rw [bind_of_ok hrun, hrest], hl₂, hb⟩

lemma attempt {y : Attempt α} (hy : ∃ a, y = .ok a) (hf : ∀ a, y = .ok a → Succeeds I (f a) R) :
    Succeeds I (Build.ofAttempt y >>= f) R := by
  obtain ⟨a, rfl⟩ := hy
  exact hf a rfl

lemma mapM {as : List α} (hf : ∀ a ∈ as, Succeeds I (f a) R) : Succeeds I (as.mapM f) fun bs => ∀ b ∈ bs, R b := by
  induction as with
  | nil => exact pure (by simp)
  | cons a as ih =>
    rw [List.mapM_cons]
    refine (hf a List.mem_cons_self).bind fun b hb => ?_
    refine (ih fun c hc => hf c (List.mem_cons_of_mem a hc)).bind fun bs hbs => ?_
    exact pure (by simpa using ⟨hb, hbs⟩)

end Succeeds

lemma Lattice.Answers.of_parts {l : Lattice} {root t : Ty} {d : Direction} {rs : List Referent}
    (h : ∀ r ∈ rs, r.Is (l.UnfoldedPart root d)) : l.Answers root d t rs := by
  refine ⟨fun r hr => ?_, fun _ => h⟩
  obtain ⟨u, rfl, hu⟩ := h r hr
  exact ⟨u, rfl, .part hu⟩

lemma Lattice.Grows.stored?_eq_none {l l' : Lattice} (h : l.Grows l') {d : Direction} {id : Nat}
    (hnone : l'.stored? d id = none) : l.stored? d id = none := by
  rw [Option.eq_none_iff_forall_ne_some]
  intro rs hrs
  rw [h d id rs hrs] at hnone
  cases hnone

lemma Lattice.stored?_eq_none {l : Lattice} {id : Nat} (h : l.entries.size ≤ id) (d : Direction) :
    l.stored? d id = none := by
  rw [Lattice.stored?, Array.getElem?_eq_none h]
  rfl

section Asking

variable {l l' : Lattice} {root : Ty} {nodes : List Ty} {size : Nat} {d : Direction}

namespace Lattice.UnfoldingInvariant

/-- A new container has no edges as yet. -/
lemma push (h : l.UnfoldingInvariant root nodes size l') (serial : Nat) :
    l.UnfoldingInvariant root nodes size ⟨l'.entries.push .pending, serial⟩ := by
  have hstored : Lattice.Grows ⟨l'.entries.push .pending, serial⟩ l' := by
    intro d id rs hrs
    rw [Lattice.stored?_push ⟨l'.entries, serial⟩] at hrs
    split at hrs
    · cases d <;> cases hrs
    · exact hrs
  refine ⟨h.grows.trans (Lattice.grows_push ⟨l'.entries, serial⟩ .pending), ⟨h.size_le.1, ?_⟩, ?_, ?_⟩
  · rw [Array.size_push]
    exact h.size_le.2.trans (Nat.le_succ _)
  · exact fun d id hid => hstored.stored?_eq_none (h.pending d id hid)
  · exact fun d t ht hreach rs hrs => h.answers d t ht hreach rs (hstored d t.id rs hrs)

lemma store (h : l.UnfoldingInvariant root nodes size l') (hunique : ∀ t ∈ nodes, ∀ u ∈ nodes, t.id = u.id → t = u)
    {t : Ty} (ht : t ∈ nodes) (hlt : t.id < size) (hnone : l.stored? d t.id = none) {rs : List Referent}
    (hrs : l.Answers root d t rs) : l.UnfoldingInvariant root nodes size (l'.store d t.id rs) := by
  refine ⟨?_, ⟨h.size_le.1, ?_⟩, ?_, ?_⟩
  · intro d' id rs' hrs'
    rw [Lattice.stored?_store, if_neg]
    · exact h.grows d' id rs' hrs'
    · rintro ⟨rfl, rfl, -⟩
      rw [hnone] at hrs'
      cases hrs'
  · rw [Lattice.store, Array.size_modify]
    exact h.size_le.2
  · intro d' id hid
    rw [Lattice.stored?_store, if_neg fun hsame => by omega]
    exact h.pending d' id hid
  · intro d' u hu hreach rs' hrs'
    rw [Lattice.stored?_store] at hrs'
    split at hrs'
    · next hsame =>
      obtain ⟨hid, rfl, -⟩ := hsame
      obtain rfl := Option.some.inj hrs'
      rw [hunique u hu t ht hid]
      exact hrs
    · exact h.answers d' u hu hreach rs' hrs'

end Lattice.UnfoldingInvariant

lemma succeeds_takeSerial : Succeeds (l.UnfoldingInvariant root nodes size) Build.takeSerial fun _ => True := by
  intro l' h
  exact ⟨_, _, rfl, ⟨h.grows, h.size_le, h.pending, h.answers⟩, trivial⟩

lemma succeeds_register : Succeeds (l.UnfoldingInvariant root nodes size) (Build.register .pending)
    fun id => l.entries.size ≤ id := by
  intro l' h
  exact ⟨_, _, rfl, h.push _, h.size_le.1.trans h.size_le.2⟩

lemma succeeds_container (extractor : Fn) {outer inner : Ty} (ho : outer.Labelled) (hi : inner.Labelled) :
    Succeeds (l.UnfoldingInvariant root nodes size) (Build.container (.type outer) extractor (.type inner))
      fun t => ∃ label, t = .unary label outer extractor inner ∧ l.entries.size ≤ label.id ∧ t.Labelled := by
  refine succeeds_takeSerial.bind fun serial _ => ?_
  refine .attempt ⟨outer, rfl⟩ ?_
  rintro _ ⟨⟩
  refine .attempt ho.canonicalName fun outerName _ => .attempt ⟨inner, rfl⟩ ?_
  rintro _ ⟨⟩
  refine .attempt hi.canonicalName fun innerName _ => ?_
  refine .attempt ho.firstDoc fun outerDoc _ => .attempt hi.firstDoc fun innerDoc _ => ?_
  exact succeeds_register.bind fun id hid => .pure ⟨_, rfl, hid, ⟨_, rfl⟩, ⟨_, rfl⟩⟩

variable (hlabelled : l.LabelledFrom root)

include hlabelled

lemma Lattice.UnfoldedPart.labelled {t : Ty} (ht : l.UnfoldedPart root d t) : t.Labelled := by
  cases ht with
  | old ht => exact hlabelled.labelled d t ht
  | new _ hnew => exact hnew

/-- A container with other parts is a part again. -/
lemma succeeds_part (extractor : Fn) {o i : Referent} (ho : o.Is (l.UnfoldedPart root d))
    (hi : i.Is (l.UnfoldedPart root d)) :
    Succeeds (l.UnfoldingInvariant root nodes size) (do return Referent.type (← Build.container o extractor i))
      (Referent.Is (l.UnfoldedPart root d)) := by
  obtain ⟨outer, rfl, ho⟩ := ho
  obtain ⟨inner, rfl, hi⟩ := hi
  refine (succeeds_container extractor (ho.labelled hlabelled) (hi.labelled hlabelled)).bind ?_
  rintro _ ⟨label, rfl, hsize, hnew⟩
  exact .pure ⟨_, rfl, .new hsize hnew ho hi⟩

lemma succeeds_containerSubsets (extractor : Fn) {outer inner : Ty} (ho : l.UnfoldedPart root d outer)
    (hi : l.UnfoldedPart root d inner) {os is : List Referent} (hos : ∀ r ∈ os, r.Is (l.UnfoldedPart root d))
    (his : ∀ r ∈ is, r.Is (l.UnfoldedPart root d)) :
    Succeeds (l.UnfoldingInvariant root nodes size) (Build.containerSubsets outer extractor inner os is)
      fun rs => ∀ r ∈ rs, r.Is (l.UnfoldedPart root d) := by
  have houters : ∀ o ∈ .type outer :: os, o.Is (l.UnfoldedPart root d) :=
    List.forall_mem_cons.mpr ⟨⟨outer, rfl, ho⟩, hos⟩
  have hinners : ∀ o : Referent, ∀ i ∈ if o.isSame (.type outer) then is else .type inner :: is,
      i.Is (l.UnfoldedPart root d) := by
    intro o
    split
    · exact his
    · exact List.forall_mem_cons.mpr ⟨⟨inner, rfl, hi⟩, his⟩
  refine Succeeds.bind (Succeeds.mapM fun o hmem => Succeeds.mapM fun i hi' =>
    succeeds_part hlabelled extractor (houters o hmem) (hinners o i hi')) fun rows hrows => .pure ?_
  intro r hr
  obtain ⟨row, hrow, hr⟩ := List.mem_flatten.mp hr
  exact hrows row hrow r hr

/-- The inner part of a container whose edges are not worked out yet is a part, and so is its outer part, unless
the container is no part itself and the outer part stays in its place. -/
lemma Lattice.UnfoldedReach.parts {label : Label} {outer inner : Ty} {extractor : Fn}
    (h : l.UnfoldedReach root d (.unary label outer extractor inner)) (hnone : l.stored? d label.id = none) :
    l.UnfoldedPart root d inner ∧ (l.UnfoldedPart root d outer ∨ d = .supersets ∧ outer.Labelled ∧
      l.UnfoldedReach root d outer ∧ ¬l.UnfoldedPart root d (.unary label outer extractor inner)) := by
  by_cases hpart : l.UnfoldedPart root d (.unary label outer extractor inner)
  · cases hpart with
    | old hpart => exact ⟨.old (.nested hpart hnone (by simp)), .inl (.old (.nested hpart hnone (by simp)))⟩
    | new _ _ ho hi => exact ⟨hi, .inl ho⟩
  · cases h with
    | part h => exact absurd h hpart
    | new _ _ ho hreach hi => exact ⟨hi, .inr ⟨rfl, ho, hreach, hpart⟩⟩
    | old h =>
      cases d with
      | subsets => exact ⟨.old (.inner h hnone), .inl (.old (.outer h hnone))⟩
      | supersets =>
        refine ⟨.old (.inner h hnone), .inr ⟨rfl, hlabelled.outer _ _ _ _ h hnone, .old (.outer h hnone), hpart⟩⟩

lemma succeeds_containerSupersets (extractor : Fn) {outer inner : Ty} (label : Label)
    (hparts : l.UnfoldedPart root .supersets outer ∨ outer.Labelled ∧ l.UnfoldedReach root .supersets outer ∧
      ¬l.UnfoldedPart root .supersets (.unary label outer extractor inner))
    {is : List Referent} (his : ∀ r ∈ is, r.Is (l.UnfoldedPart root .supersets)) :
    Succeeds (l.UnfoldingInvariant root nodes size) (Build.containerSupersets outer extractor is)
      (l.Answers root .supersets (.unary label outer extractor inner)) := by
  rcases hparts with ho | ⟨ho, hreach, hpart⟩
  · refine Succeeds.bind (Succeeds.mapM fun i hi =>
      succeeds_part hlabelled extractor ⟨outer, rfl, ho⟩ (his i hi)) fun rs hrs => .pure ?_
    exact .of_parts (List.forall_mem_cons.mpr ⟨⟨outer, rfl, ho⟩, hrs⟩)
  · have hwidened : ∀ i ∈ is, Succeeds (l.UnfoldingInvariant root nodes size)
        (do return Referent.type (← Build.container (.type outer) extractor i))
        (Referent.Is (l.UnfoldedReach root .supersets)) := by
      intro i hmem
      obtain ⟨inner, rfl, hi⟩ := his i hmem
      refine (succeeds_container extractor ho (hi.labelled hlabelled)).bind ?_
      rintro _ ⟨label, rfl, hsize, hnew⟩
      exact .pure ⟨_, rfl, .new hsize hnew ho hreach hi⟩
    refine Succeeds.bind (Succeeds.mapM hwidened) fun rs hrs => .pure ?_
    exact ⟨List.forall_mem_cons.mpr ⟨⟨outer, rfl, hreach⟩, hrs⟩, fun h => absurd h hpart⟩

omit hlabelled in
lemma NodeEnumeration.succeeds_kept (hnodes : NodeEnumeration False l' nodes) {t : Ty} (ht : t ∈ nodes)
    (hreach : l.UnfoldedReach root d t) {work : Build (List Referent)}
    (hwork : l.stored? d t.id = none →
      Succeeds (l.UnfoldingInvariant root nodes l'.entries.size) work (l.Answers root d t)) :
    Succeeds (l.UnfoldingInvariant root nodes l'.entries.size) (Build.kept d t.id work) (l.Answers root d t) := by
  intro l₁ h
  cases hcase : l₁.stored? d t.id with
  | some rs => exact ⟨rs, l₁, Build.kept_of_stored hcase work, h, h.answers d t ht hreach rs hcase⟩
  | none =>
    have hnone : l.stored? d t.id = none := h.grows.stored?_eq_none hcase
    obtain ⟨rs, l₂, hrun, h', hrs⟩ := hwork hnone l₁ h
    exact ⟨rs, _, Build.kept_of_ok hcase hrun,
      h'.store (fun _ ht _ hu => hnodes.unique ht hu) ht (hnodes.id_lt ht) hnone hrs, hrs⟩

/-- Whatever the root leads to answers when it is asked for its edges. -/
lemma NodeEnumeration.succeeds_edges (hnodes : NodeEnumeration False l' nodes) {t : Ty} (ht : t ∈ nodes)
    (hreach : l.UnfoldedReach root d t) :
    Succeeds (l.UnfoldingInvariant root nodes l'.entries.size) (t.edges d) (l.Answers root d t) := by
  induction t with
  | unary label outer extractor inner iho ihi =>
    have ho : outer ∈ nodes := hnodes.parts _ ht (by simp [Ty.parts])
    have hi : inner ∈ nodes := hnodes.parts _ ht (by simp [Ty.parts])
    cases d with
    | subsets =>
      refine hnodes.succeeds_kept ht hreach fun hnone => ?_
      obtain ⟨hinner, houter | ⟨hd, -⟩⟩ := hreach.parts hlabelled hnone
      · refine (iho ho (.part houter)).bind fun os hos => (ihi hi (.part hinner)).bind fun is his => ?_
        refine (succeeds_containerSubsets hlabelled extractor houter hinner ?_ ?_).mono fun rs hrs => .of_parts hrs
        · exact hos.parts houter
        · exact his.parts hinner
      · cases hd
    | supersets =>
      refine hnodes.succeeds_kept ht hreach fun hnone => ?_
      obtain ⟨hinner, houter⟩ := hreach.parts hlabelled hnone
      refine (ihi hi (.part hinner)).bind fun is his => ?_
      exact succeeds_containerSupersets hlabelled extractor label (houter.imp_right And.right) (his.parts hinner)
  | _ => cases d <;> exact hnodes.succeeds_kept ht hreach fun _ => .pure (.of_parts (by simp))

end Asking

section Unfolding

variable {l l' : Lattice} {nodes : List Ty} {root : Ty} {d : Direction}

lemma NodeEnumeration.mem_of_reaches {untouched : Prop} (h : NodeEnumeration untouched l nodes) {t u : Ty}
    (ht : t ∈ nodes) (hreach : l.Reaches d t u) : u ∈ nodes := by
  induction hreach with
  | refl => exact ht
  | tail _ hedge ih =>
    obtain ⟨rs, hrs, hu⟩ := hedge
    exact h.known _ ih d rs hrs _ hu

/-- Asking a node for its edges stores what it answers, and leads to nodes of the lattice only. -/
lemma NodeEnumeration.edges (h : NodeEnumeration False l nodes) {t : Ty} (ht : t ∈ nodes) (d : Direction) :
    ∃ nodes', nodes ⊆ nodes' ∧ NodeEnumeration False (t.edges d l).2 nodes' ∧
      ∀ rs, (t.edges d l).1 = .ok rs → (t.edges d l).2.stored? d t.id = some rs := by
  have hself : LatticeEmbedding (.byMessage False) True .refl nodes l l := h.embedding_self
  obtain ⟨nodes', hnodes, hembed, -⟩ := buildSimulates_edges hself ht d
  refine ⟨nodes', hnodes, hembed.enumeration, fun rs hrs => ?_⟩
  obtain ⟨work, hwork⟩ : ∃ work, t.edges d = Build.kept d t.id work := by
    cases d <;> cases t <;> exact ⟨_, rfl⟩
  have hlt : t.id < (t.edges d l).2.entries.size := hembed.enumeration.id_lt (hnodes ht)
  rw [hwork] at hrs hlt ⊢
  cases hstored : l.stored? d t.id with
  | some rs' =>
    rw [Build.kept_of_stored hstored] at hrs ⊢
    rw [← Except.ok.inj hrs]
    exact hstored
  | none =>
    rcases hrun : work l with ⟨fault | rs', l₁⟩
    · rw [Build.kept_of_error hstored hrun] at hrs
      cases hrs
    · rw [Build.kept_of_ok hstored hrun] at hrs hlt ⊢
      obtain rfl := Except.ok.inj hrs
      rw [Lattice.store, Array.size_modify] at hlt
      rw [Lattice.stored?_store, if_pos ⟨rfl, rfl, hlt⟩]

/-- A lattice on the way, with all its nodes. -/
structure Lattice.UnfoldedTo (l : Lattice) (root : Ty) (l' : Lattice) (nodes : List Ty) : Prop where
  enumeration : NodeEnumeration False l' nodes
  root_mem : root ∈ nodes
  invariant : l.UnfoldingInvariant root nodes l'.entries.size l'

lemma NodeEnumeration.unfoldedTo (h : NodeEnumeration False l nodes) (hroot : root ∈ nodes)
    (hlabelled : l.LabelledFrom root) : l.UnfoldedTo root l nodes := by
  refine ⟨h, hroot, .refl l, ⟨le_rfl, le_rfl⟩, fun d id hid => Lattice.stored?_eq_none hid d, ?_⟩
  -- the nodes at hand are no containers that came about since
  have hold : ∀ {t d}, t ∈ nodes → l.UnfoldedPart root d t → l.PossiblePart root d t := by
    intro t d ht hpart
    cases hpart with
    | old hpart => exact hpart
    | new hsize => exact absurd (h.id_lt ht) (Nat.not_lt.mpr hsize)
  intro d t ht hreach rs hrs
  have hedges : ∀ r ∈ rs, l.MayReach root d t ∨ l.PossiblePart root d t → ∃ u, r = .type u ∧ l.Edge d t u := by
    intro r hr hcase
    obtain ⟨u, rfl⟩ := hlabelled.types d t hcase rs hrs r hr
    exact ⟨u, rfl, rs, hrs, hr⟩
  constructor
  · intro r hr
    cases hreach with
    | old hreach =>
      obtain ⟨u, rfl, hedge⟩ := hedges r hr (.inl hreach)
      exact ⟨u, rfl, .old (.edge hreach hedge)⟩
    | part hpart =>
      obtain ⟨u, rfl, hedge⟩ := hedges r hr (.inr (hold ht hpart))
      exact ⟨u, rfl, .part (.old (.edge (hold ht hpart) hedge))⟩
    | new hsize => exact absurd (h.id_lt ht) (Nat.not_lt.mpr hsize)
  · intro hpart r hr
    obtain ⟨u, rfl, hedge⟩ := hedges r hr (.inr (hold ht hpart))
    exact ⟨u, rfl, .old (.edge (hold ht hpart) hedge)⟩

namespace Lattice.UnfoldedTo

lemma mem (h : l.UnfoldedTo root l' nodes) {t : Ty} (hreach : l'.Reaches d root t) : t ∈ nodes :=
  h.enumeration.mem_of_reaches h.root_mem hreach

lemma of_reaches (h : l.UnfoldedTo root l' nodes) {t : Ty} (hreach : l'.Reaches d root t) :
    l.UnfoldedReach root d t := by
  induction hreach with
  | refl => exact .old .root
  | tail hreach hedge ih =>
    obtain ⟨rs, hrs, hmem⟩ := hedge
    have hanswers := h.invariant.answers d _ (h.mem hreach) ih rs hrs
    obtain ⟨u, hu, hreached⟩ := hanswers.reached _ hmem
    rw [Referent.type.inj hu]
    exact hreached

lemma named (h : l.UnfoldedTo root l' nodes) (hlabelled : l.LabelledFrom root) {t : Ty}
    (hreach : l'.Reaches d root t) : ∃ name, t.name = .ok name := by
  cases h.of_reaches hreach with
  | old hold => exact hlabelled.named d t hold
  | part hpart => exact (hpart.labelled hlabelled).named
  | new _ hnew => exact hnew.named

lemma edges (h : l.UnfoldedTo root l' nodes) (hlabelled : l.LabelledFrom root) {t : Ty}
    (hreach : l'.Reaches d root t) :
    ∃ (us : List Ty) (nodes' : List Ty), (t.edges d l').1 = .ok (us.map .type) ∧
      (t.edges d l').2.stored? d t.id = some (us.map .type) ∧ l.UnfoldedTo root (t.edges d l').2 nodes' := by
  obtain ⟨rs, l'', hrun, hinv, hrs⟩ :=
    h.enumeration.succeeds_edges hlabelled (h.mem hreach) (h.of_reaches hreach) l' h.invariant
  obtain ⟨nodes', hsub, henum, hstored⟩ := h.enumeration.edges (h.mem hreach) d
  rw [hrun] at henum hstored ⊢
  have htypes : rs ∈ Set.range (List.map Referent.type) := by
    rw [Set.range_list_map]
    intro r hr
    obtain ⟨u, rfl, -⟩ := hrs.reached r hr
    exact ⟨u, rfl⟩
  obtain ⟨us, rfl⟩ := htypes
  have hnodes : ∀ u ∈ nodes', u.id < l'.entries.size → u ∈ nodes := by
    intro u hu hlt
    rw [h.enumeration.length] at hlt
    have hid := h.enumeration.id_eq u.id nodes[u.id] (List.getElem?_eq_getElem hlt)
    rw [← henum.unique (hsub (List.getElem_mem hlt)) hu hid]
    exact List.getElem_mem hlt
  refine ⟨us, nodes', rfl, hstored _ rfl, henum, hsub h.root_mem, hinv.grows,
    ⟨hinv.size_le.1.trans hinv.size_le.2, le_rfl⟩, fun d id hid => Lattice.stored?_eq_none hid d, ?_⟩
  -- nodes that came about while the edges were worked out have none of their own yet
  intro d' u hu hreach' rs' hrs'
  rcases Nat.lt_or_ge u.id l'.entries.size with hlt | hge
  · exact hinv.answers d' u (hnodes u hu hlt) hreach' rs' hrs'
  · rw [hinv.pending d' u.id hge] at hrs'
    cases hrs'

end Lattice.UnfoldedTo

lemma Lattice.Unfolds.unfoldedTo (hunfolds : l.Unfolds root l') (h : NodeEnumeration False l nodes)
    (hroot : root ∈ nodes) (hlabelled : l.LabelledFrom root) : ∃ nodes', l.UnfoldedTo root l' nodes' := by
  induction hunfolds with
  | start => exact ⟨nodes, h.unfoldedTo hroot hlabelled⟩
  | ask _ hreach ih =>
    obtain ⟨nodes', h'⟩ := ih
    obtain ⟨-, nodes'', -, -, h''⟩ := h'.edges hlabelled hreach
    exact ⟨nodes'', h''⟩

end Unfolding

end StructuralTypes
