import Mathlib
import StructuralTypes.Container

/-!
# Computations with a state and faults

How the computations that build, search and check are taken apart: a step that succeeds hands on
its state, and a step that fails ends the computation with the state it has reached.
-/

namespace StructuralTypes

section Bind

variable {σ α β : Type} {x : ExceptT Fault (StateM σ) α} {f : α → ExceptT Fault (StateM σ) β} {s s' : σ}

theorem bind_apply (x : ExceptT Fault (StateM σ) α) (f : α → ExceptT Fault (StateM σ) β) (s : σ) :
    (x >>= f) s = match x s with
      | (.ok a, s') => f a s'
      | (.error fault, s') => (.error fault, s') := by
  change (match x s with | (a, s') => ExceptT.bindCont f a s') = _
  rcases x s with ⟨_ | _, _⟩ <;> rfl

theorem bind_of_ok {a : α} (h : x s = (.ok a, s')) : (x >>= f) s = f a s' := by
  rw [bind_apply, h]

theorem bind_of_error {fault : Fault} (h : x s = (.error fault, s')) :
    (x >>= f) s = (.error fault, s') := by
  rw [bind_apply, h]

theorem ok_of_bind {b : β} (h : ((x >>= f) s).1 = .ok b) :
    ∃ a s', x s = (.ok a, s') ∧ (f a s').1 = .ok b := by
  rcases hrun : x s with ⟨fault | a, s'⟩
  · rw [bind_of_error hrun] at h
    cases h
  · rw [bind_of_ok hrun] at h
    exact ⟨a, s', rfl, h⟩

theorem exists_of_bind {b : β} {s'' : σ} (h : (x >>= f) s = (.ok b, s'')) :
    ∃ a s', x s = (.ok a, s') ∧ f a s' = (.ok b, s'') := by
  rcases hrun : x s with ⟨fault | a, s'⟩
  · rw [bind_of_error hrun] at h
    cases h
  · rw [bind_of_ok hrun] at h
    exact ⟨a, s', rfl, h⟩

lemma exists_of_attempt {attempt : Attempt α} {b : β}
    (h : ((fun s => (attempt, s) : ExceptT Fault (StateM σ) α) >>= f) s = (.ok b, s')) :
    ∃ a, attempt = .ok a ∧ f a s = (.ok b, s') := by
  obtain ⟨a, s₁, hattempt, hrun⟩ := exists_of_bind h
  obtain ⟨ha, rfl⟩ := Prod.mk.inj hattempt
  exact ⟨a, ha, hrun⟩

theorem pure_apply (a : α) (s : σ) : (pure a : ExceptT Fault (StateM σ) α) s = (.ok a, s) := rfl

theorem get_bind (f : σ → ExceptT Fault (StateM σ) β) (s : σ) :
    ((get : ExceptT Fault (StateM σ) σ) >>= f) s = f s s := rfl

end Bind

section Attempts

variable {α β : Type} {f : α → Attempt β}

lemma ok_of_toOption {x : Attempt α} {a : α} (h : x.toOption = some a) : x = .ok a := by
  cases x with
  | error fault => cases h
  | ok b => rw [Option.some.inj h]

lemma ok_of_attempt {x : Attempt α} {b : β} (h : (x >>= f) = .ok b) : ∃ a, x = .ok a ∧ f a = .ok b := by
  cases x with
  | error fault => cases h
  | ok a => exact ⟨a, rfl, h⟩

lemma mapM_answers {as : List α} (h : ∀ a ∈ as, ∃ b, f a = .ok b) : ∃ bs, as.mapM f = .ok bs := by
  induction as with
  | nil => exact ⟨[], rfl⟩
  | cons a as ih =>
    obtain ⟨b, hb⟩ := h a List.mem_cons_self
    obtain ⟨bs, hbs⟩ := ih fun c hc => h c (List.mem_cons_of_mem a hc)
    rw [List.mapM_cons, hb, hbs]
    exact ⟨b :: bs, rfl⟩

lemma forall₂_of_mapM {as : List α} {bs : List β} (h : as.mapM f = .ok bs) :
    List.Forall₂ (fun a b => f a = .ok b) as bs := by
  induction as generalizing bs with
  | nil =>
    rw [List.mapM_nil] at h
    obtain rfl : [] = bs := Except.ok.inj h
    exact .nil
  | cons a as ih =>
    rw [List.mapM_cons] at h
    rcases hb : f a with fault | b
    · rw [hb] at h
      cases h
    · rcases hbs : as.mapM f with fault | rest
      · rw [hb, hbs] at h
        cases h
      · rw [hb, hbs] at h
        obtain rfl : b :: rest = bs := Except.ok.inj h
        exact .cons hb (ih hbs)

lemma mapM_of_forall₂ {as : List α} {bs : List β} (h : List.Forall₂ (fun a b => f a = .ok b) as bs) :
    as.mapM f = .ok bs := by
  induction h with
  | nil => rfl
  | cons hab _ ih =>
    rw [List.mapM_cons, hab, ih]
    rfl

lemma exists_error_of_mapM {as : List α} {fault : Fault} (h : as.mapM f = .error fault) :
    ∃ a ∈ as, f a = .error fault := by
  induction as with
  | nil => cases h
  | cons a as ih =>
    rw [List.mapM_cons] at h
    rcases ha : f a with fault' | b
    · rw [ha] at h
      obtain rfl : fault' = fault := Except.error.inj h
      exact ⟨a, List.mem_cons_self, ha⟩
    · rcases has : as.mapM f with fault' | bs
      · rw [ha, has] at h
        obtain rfl : fault' = fault := Except.error.inj h
        obtain ⟨b, hb, hfault⟩ := ih has
        exact ⟨b, List.mem_cons_of_mem a hb, hfault⟩
      · rw [ha, has] at h
        cases h

end Attempts

section Related

variable {α β : Type} {R : α → β → Prop} {as : List α} {bs : List β}

lemma exists_related_right (h : List.Forall₂ R as bs) {a : α} (ha : a ∈ as) : ∃ b ∈ bs, R a b := by
  induction h with
  | nil => cases ha
  | cons hab _ ih =>
    rcases List.mem_cons.mp ha with rfl | ha
    · exact ⟨_, List.mem_cons_self, hab⟩
    · obtain ⟨b, hb, hR⟩ := ih ha
      exact ⟨b, List.mem_cons_of_mem _ hb, hR⟩

lemma exists_related_left (h : List.Forall₂ R as bs) {b : β} (hb : b ∈ bs) : ∃ a ∈ as, R a b :=
  exists_related_right h.flip hb

lemma mem_of_lookup [BEq α] [LawfulBEq α] {xs : List (α × β)} {a : α} {b : β} (h : xs.lookup a = some b) :
    (a, b) ∈ xs := by
  obtain ⟨front, back, rfl, -⟩ := List.lookup_eq_some_iff.mp h
  simp

lemma forall₂_comp {γ : Type} {S : β → γ → Prop} {T : α → γ → Prop}
    (hcomp : ∀ a b c, R a b → S b c → T a c) (h : List.Forall₂ R as bs) {cs : List γ}
    (h' : List.Forall₂ S bs cs) : List.Forall₂ T as cs := by
  induction h generalizing cs with
  | nil =>
    cases h'
    exact .nil
  | cons hab _ ih =>
    cases h' with
    | cons hbc hrest => exact .cons (hcomp _ _ _ hab hbc) (ih hrest)

/-- Where one side is put into another order, so can the other side. -/
lemma exists_perm_related (h : List.Forall₂ R as bs) {cs : List β} (hperm : bs.Perm cs) :
    ∃ ds : List α, ds.Perm as ∧ List.Forall₂ R ds cs := by
  have hcomp : Relation.Comp (List.Forall₂ R) List.Perm as cs := ⟨bs, h, hperm⟩
  rw [List.forall₂_comp_perm_eq_perm_comp_forall₂] at hcomp
  obtain ⟨ds, hds, hrelated⟩ := hcomp
  exact ⟨ds, hds.symm, hrelated⟩

end Related

namespace Lattice

/-- What is stored for a node stays stored. -/
def Grows (l l' : Lattice) : Prop :=
  ∀ d id rs, l.stored? d id = some rs → l'.stored? d id = some rs

lemma Grows.refl (l : Lattice) : l.Grows l := fun _ _ _ h => h

lemma Grows.trans {l₁ l₂ l₃ : Lattice} (h : l₁.Grows l₂) (h' : l₂.Grows l₃) : l₁.Grows l₃ :=
  fun d id rs hs => h' d id rs (h d id rs hs)

lemma stored?_store (l : Lattice) (d d' : Direction) (id id' : Nat) (rs : List Referent) :
    (l.store d id rs).stored? d' id' =
      if id' = id ∧ d' = d ∧ id < l.entries.size then some rs else l.stored? d' id' := by
  unfold stored? store
  by_cases hid : id' = id
  · subst hid
    by_cases hlt : id' < l.entries.size
    · cases d <;> cases d' <;> simp [hlt, Edges.set, Edges.get?, Array.getElem_modify]
    · simp [hlt]
  · have hne : ¬id = id' := fun h => hid h.symm
    simp [hid, Array.getElem?_modify, hne]

end Lattice

namespace Build

lemma kept_of_stored {l : Lattice} {d : Direction} {id : Nat} {rs : List Referent}
    (h : l.stored? d id = some rs) (work : Build (List Referent)) :
    kept d id work l = (.ok rs, l) := by
  unfold kept
  rw [get_bind]
  simp only [h]
  rfl

lemma kept_of_ok {l l' : Lattice} {d : Direction} {id : Nat} {rs : List Referent}
    {work : Build (List Referent)} (h : l.stored? d id = none) (hwork : work l = (.ok rs, l')) :
    kept d id work l = (.ok rs, l'.store d id rs) := by
  unfold kept
  rw [get_bind]
  simp only [h]
  rw [bind_of_ok hwork]
  rfl

lemma kept_of_error {l l' : Lattice} {d : Direction} {id : Nat} {fault : Fault}
    {work : Build (List Referent)} (h : l.stored? d id = none)
    (hwork : work l = (.error fault, l')) : kept d id work l = (.error fault, l') := by
  unfold kept
  rw [get_bind]
  simp only [h]
  rw [bind_of_error hwork]

end Build

lemma Ty.edges_of_stored {l : Lattice} {d : Direction} {t : Ty} {rs : List Referent}
    (h : l.stored? d t.id = some rs) : t.edges d l = (.ok rs, l) := by
  cases d <;> cases t <;> exact Build.kept_of_stored h _

end StructuralTypes
