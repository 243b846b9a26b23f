import StructuralTypes.Equality
import StructuralTypes.Proofs.Computation

/-!
# Walks through a lattice

The stored edges of a lattice as two graphs, and the graph of pairs that a search goes through: one
side goes down, the other one up. `Walkable` says what searching and exploring need to know of the
lattices they may meet on the way, since asking for edges can change a lattice. A lattice all of
whose edges are stored does not change at all.
-/

namespace StructuralTypes

open Relation

namespace Lattice

/-- A stored edge between two types. -/
def Edge (l : Lattice) (d : Direction) (t u : Ty) : Prop :=
  ∃ rs, l.stored? d t.id = some rs ∧ .type u ∈ rs

/-- A type leads to another one over any number of edges of one kind. -/
abbrev Reaches (l : Lattice) (d : Direction) : Ty → Ty → Prop := ReflTransGen (l.Edge d)

/-- A type leads back to itself. -/
def OnCycle (l : Lattice) (d : Direction) (t : Ty) : Prop := TransGen (l.Edge d) t t

/-- One step of a search: down from the first type of a pair or up from the second one. -/
inductive PairStep (l : Lattice) : Ty × Ty → Ty × Ty → Prop
  | down {a a' : Ty} (b : Ty) : l.Edge .subsets a a' → PairStep l (a, b) (a', b)
  | up (a : Ty) {b b' : Ty} : l.Edge .supersets b b' → PairStep l (a, b) (a, b')

/-- Somewhere below the first type and above the second one there are equal types. -/
def Linked (l : Lattice) (p : Ty × Ty) : Prop :=
  ∃ q, ReflTransGen l.PairStep p q ∧ q.1.equals q.2 = .ok true

lemma edge_iff {l : Lattice} {d : Direction} {t u : Ty} {us : List Ty}
    (h : l.stored? d t.id = some (us.map .type)) : l.Edge d t u ↔ u ∈ us := by
  constructor
  · rintro ⟨rs, hrs, hu⟩
    rw [h] at hrs
    obtain rfl := Option.some.inj hrs
    obtain ⟨v, hv, hvu⟩ := List.mem_map.mp hu
    exact Referent.type.inj hvu ▸ hv
  · intro hu
    exact ⟨_, h, List.mem_map_of_mem hu⟩

lemma Edge.mono {l l' : Lattice} (hl : l.Grows l') {d : Direction} {t u : Ty} (h : l.Edge d t u) :
    l'.Edge d t u := by
  obtain ⟨rs, hrs, hu⟩ := h
  exact ⟨rs, hl d t.id rs hrs, hu⟩

lemma Reaches.mono {l l' : Lattice} (hl : l.Grows l') {d : Direction} {t u : Ty}
    (h : l.Reaches d t u) : l'.Reaches d t u :=
  h.lift id fun _ _ hedge => hedge.mono hl

lemma PairStep.mono {l l' : Lattice} (hl : l.Grows l') {p q : Ty × Ty} (h : l.PairStep p q) :
    l'.PairStep p q := by
  cases h with
  | down b h => exact .down b (h.mono hl)
  | up a h => exact .up a (h.mono hl)

lemma pairReaches_iff {l : Lattice} {a a' b b' : Ty} :
    ReflTransGen l.PairStep (a, b) (a', b') ↔ l.Reaches .subsets a a' ∧ l.Reaches .supersets b b' := by
  constructor
  · intro h
    generalize hp : (a, b) = p at h
    generalize hq : (a', b') = q at h
    induction h generalizing a' b' with
    | refl =>
      obtain ⟨rfl, rfl⟩ := Prod.mk.inj (hp.trans hq.symm)
      exact ⟨.refl, .refl⟩
    | tail _ hstep ih =>
      cases hstep with
      | down _ hedge =>
        obtain ⟨rfl, rfl⟩ := Prod.mk.inj hq
        exact ⟨(ih rfl).1.tail hedge, (ih rfl).2⟩
      | up _ hedge =>
        obtain ⟨rfl, rfl⟩ := Prod.mk.inj hq
        exact ⟨(ih rfl).1, (ih rfl).2.tail hedge⟩
  · rintro ⟨ha, hb⟩
    have hdown : ReflTransGen l.PairStep (a, b) (a', b) :=
      ha.lift (fun x => (x, b)) (fun _ _ h => .down b h)
    have hup : ReflTransGen l.PairStep (a', b) (a', b') :=
      hb.lift (fun x => (a', x)) (fun _ _ h => .up a' h)
    exact hdown.trans hup

/-- A pair that leads back to itself has a cycle on one of its two sides. -/
lemma onCycle_of_pair {l : Lattice} {a b : Ty} (h : TransGen l.PairStep (a, b) (a, b)) :
    l.OnCycle .subsets a ∨ l.OnCycle .supersets b := by
  obtain ⟨⟨a', b'⟩, hfirst, hrest⟩ := TransGen.head'_iff.mp h
  obtain ⟨ha, hb⟩ := pairReaches_iff.mp hrest
  cases hfirst with
  | down _ hedge => exact .inl (TransGen.head' hedge ha)
  | up _ hedge => exact .inr (TransGen.head' hedge hb)

end Lattice

/-- A walk of `n` nodes, none of which repeats another one or is among those `seen` before. -/
inductive Descent {α κ : Type} (step : α → α → Prop) (inside : α → Prop) (key : α → κ) :
    List κ → Nat → α → Prop
  | stop (seen : List κ) (a : α) : Descent step inside key seen 0 a
  | step {seen : List κ} {n : Nat} {a b : α} : key a ∉ seen → inside a → step a b →
      Descent step inside key (key a :: seen) n b → Descent step inside key seen (n + 1) a

namespace Descent

variable {α κ : Type} {step : α → α → Prop} {inside : α → Prop} {key : α → κ} {seen : List κ}
  {n : Nat} {a : α}

/-- A walk along which a measure drops is no longer than the measure. -/
lemma le_measure (μ : α → Nat) (hμ : ∀ a b, inside a → step a b → μ b < μ a)
    (h : Descent step inside key seen n a) : n ≤ μ a := by
  induction h with
  | stop => exact Nat.zero_le _
  | step _ ha hstep _ ih =>
    have := hμ _ _ ha hstep
    omega

/-- A walk among finitely many keys is no longer than what is left of them. -/
lemma add_length_le (keys : List κ) (hkeys : ∀ a, inside a → key a ∈ keys) (hseen : seen.Nodup)
    (hsub : seen ⊆ keys) (h : Descent step inside key seen n a) :
    n + seen.length ≤ keys.length := by
  induction h with
  | stop =>
    have := (hseen.subperm hsub).length_le
    omega
  | step hnew ha _ _ ih =>
    have hsub' := List.cons_subset.mpr ⟨hkeys _ ha, hsub⟩
    have := ih (List.nodup_cons.mpr ⟨hnew, hseen⟩) hsub'
    rw [List.length_cons] at this
    omega

end Descent

/-- What a family of lattices, each with its nodes, has to satisfy to be explored along edges of one kind:
nodes are distinguished by their identities, and asking a node for its edges leads to another lattice of the
family. If there is an answer, it is stored there. -/
structure Explorable (d : Direction) (W : Lattice → List Ty → Prop) : Prop where
  unique : ∀ {l ns t u}, W l ns → t ∈ ns → u ∈ ns → t.id = u.id → t = u
  edges : ∀ {l ns t}, W l ns → t ∈ ns → ∃ ns', W (t.edges d l).2 ns' ∧ ns ⊆ ns' ∧
    l.Grows (t.edges d l).2 ∧ ∀ rs, (t.edges d l).1 = .ok rs →
      (t.edges d l).2.stored? d t.id = some rs ∧ ∃ us, rs = us.map .type ∧ us ⊆ ns'

/-- A family that can be explored along edges of both kinds and whose nodes can be compared, which searching
needs. -/
structure Walkable (W : Lattice → List Ty → Prop) : Prop where
  explorable : ∀ d, Explorable d W
  comparable : ∀ {l ns t u}, W l ns → t ∈ ns → u ∈ ns → ∃ b, t.equals u = .ok b

/-- A fault that comes from asking a node for its edges. -/
def EdgeFault (d : Direction) (W : Lattice → List Ty → Prop) (fault : Fault) : Prop :=
  ∃ l ns t, W l ns ∧ t ∈ ns ∧ (t.edges d l).1 = .error fault

namespace Ty

/-- No part of the type is bare. -/
inductive Proper : Ty → Prop
  | any (label : Label) : Proper (.any label)
  | predicate (label : Label) (pred : Fn) : Proper (.predicate label pred)
  | compound (label : Label) (op : Operator) {operands : List Ty} :
      (∀ t ∈ operands, Proper t) → Proper (.compound label op operands)
  | without (label : Label) {left right : Ty} :
      Proper left → Proper right → Proper (.without label left right)
  | unary (label : Label) (extractor : Fn) {outer inner : Ty} :
      Proper outer → Proper inner → Proper (.unary label outer extractor inner)

lemma agreesAll_answers {ts : List Ty}
    (hts : ∀ t ∈ ts, ∀ {u : Ty}, u.Proper → ∀ asksRight, ∃ b, agrees asksRight t u = .ok b)
    {us : List Ty} (hus : ∀ u ∈ us, u.Proper) (asksRight : Bool) :
    ∃ b, agreesAll asksRight ts us = .ok b := by
  induction ts generalizing us with
  | nil => exact ⟨true, by simp [agreesAll]⟩
  | cons t ts ih =>
    cases us with
    | nil => exact ⟨true, by simp [agreesAll]⟩
    | cons u us =>
      obtain ⟨b, hb⟩ := hts t List.mem_cons_self (hus u List.mem_cons_self) asksRight
      obtain ⟨b', hb'⟩ := ih (fun t ht => hts t (List.mem_cons_of_mem _ ht))
        (fun u hu => hus u (List.mem_cons_of_mem _ hu))
      rw [agreesAll, hb]
      cases b with
      | true => exact ⟨b', hb'⟩
      | false => exact ⟨false, rfl⟩

lemma agrees_answers {s t : Ty} (hs : s.Proper) (ht : t.Proper) (asksRight : Bool) :
    ∃ b, agrees asksRight s t = .ok b := by
  induction hs generalizing t asksRight with
  | any => cases ht <;> cases asksRight <;> simp [agrees]
  | predicate => cases ht <;> cases asksRight <;> simp [agrees]
  | compound label op _ ih =>
    cases ht with
    | compound label' op' hus =>
      simp only [agrees]
      split
      · exact agreesAll_answers ih hus asksRight
      · exact ⟨false, rfl⟩
    | _ => cases asksRight <;> simp [agrees]
  | without label _ _ ihl ihr =>
    cases ht with
    | without label' hl hr =>
      obtain ⟨b, hb⟩ := ihl hl (!asksRight)
      obtain ⟨b', hb'⟩ := ihr hr (!asksRight)
      simp only [agrees, hb]
      cases b with
      | true => exact ⟨b', hb'⟩
      | false => exact ⟨false, rfl⟩
    | _ => cases asksRight <;> simp [agrees]
  | unary label extractor _ _ iho ihi =>
    cases ht with
    | unary label' extractor' ho hi =>
      obtain ⟨b, hb⟩ := iho ho (!asksRight)
      obtain ⟨b', hb'⟩ := ihi hi (!asksRight)
      simp only [agrees, hb]
      split
      · cases b with
        | true => exact ⟨b', hb'⟩
        | false => exact ⟨false, rfl⟩
      · exact ⟨false, rfl⟩
    | _ => cases asksRight <;> simp [agrees]

lemma equals_answers {s t : Ty} (hs : s.Proper) (ht : t.Proper) : ∃ b, s.equals t = .ok b :=
  agrees_answers hs ht false

end Ty

/-- A set of nodes whose edges are all stored and lead nowhere else. -/
structure Closed (l : Lattice) (nodes : List Ty) : Prop where
  unique : ∀ t ∈ nodes, ∀ u ∈ nodes, t.id = u.id → t = u
  stored : ∀ t ∈ nodes, ∀ d, ∃ us, l.stored? d t.id = some (us.map .type) ∧ us ⊆ nodes

namespace Closed

variable {l : Lattice} {nodes : List Ty}

/-- The lattice with these nodes, as a family of its own. -/
def family (l : Lattice) (nodes : List Ty) (l' : Lattice) (ns : List Ty) : Prop :=
  l' = l ∧ ns = nodes

lemma edges_eq (h : Closed l nodes) {t : Ty} (ht : t ∈ nodes) (d : Direction) :
    ∃ us, t.edges d l = (.ok (us.map .type), l) ∧ l.stored? d t.id = some (us.map .type) ∧
      us ⊆ nodes := by
  obtain ⟨us, hus, hsub⟩ := h.stored t ht d
  exact ⟨us, Ty.edges_of_stored hus, hus, hsub⟩

lemma explorable (h : Closed l nodes) (d : Direction) : Explorable d (family l nodes) where
  unique := by
    rintro l' ns t u ⟨rfl, rfl⟩ ht hu hid
    exact h.unique t ht u hu hid
  edges := by
    rintro l' ns t ⟨rfl, rfl⟩ ht
    obtain ⟨us, hedges, hus, hsub⟩ := h.edges_eq ht d
    rw [hedges]
    refine ⟨ns, ⟨rfl, rfl⟩, fun _ h => h, .refl _, ?_⟩
    intro rs hrs
    obtain rfl : us.map .type = rs := Except.ok.inj hrs
    exact ⟨hus, us, rfl, hsub⟩

lemma not_edgeFault (h : Closed l nodes) (d : Direction) (fault : Fault) : ¬EdgeFault d (family l nodes) fault := by
  rintro ⟨l', ns, t, ⟨rfl, rfl⟩, ht, hfault⟩
  obtain ⟨us, hedges, -⟩ := h.edges_eq ht d
  rw [hedges] at hfault
  cases hfault

lemma id_lt (h : Closed l nodes) {t : Ty} (ht : t ∈ nodes) : t.id < l.entries.size := by
  obtain ⟨us, hus, -⟩ := h.stored t ht .subsets
  by_contra hge
  rw [Lattice.stored?, Array.getElem?_eq_none (Nat.le_of_not_lt hge)] at hus
  cases hus

end Closed

/-- A test that goes by the given name, for lattices spelled out by hand. -/
def Ty.sample (id : Nat) (name : String) : Ty :=
  .predicate ⟨id, id, some [name], some []⟩ (.named name)

/-- A closed set of nodes that can be compared with each other. -/
structure Settled (l : Lattice) (nodes : List Ty) : Prop extends Closed l nodes where
  proper : ∀ t ∈ nodes, t.Proper

lemma Settled.walkable {l : Lattice} {nodes : List Ty} (h : Settled l nodes) :
    Walkable (Closed.family l nodes) where
  explorable := h.explorable
  comparable := by
    rintro l' ns t u ⟨rfl, rfl⟩ ht hu
    exact Ty.equals_answers (h.proper t ht) (h.proper u hu)

end StructuralTypes
