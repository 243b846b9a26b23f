import Mathlib
import StructuralTypes.Components

/-!
# Strongly connected components

`components` lists every node of a finite graph exactly once, grouped into the classes of nodes
that lead to each other. The walk is followed one node at a time: what it has left on its stack
above the place where a node was met always leads back below that place.
-/

namespace StructuralTypes.Components

open Relation

/-- A node leads to another one over any number of edges. -/
def Reaches (successors : Nat → List Nat) : Nat → Nat → Prop :=
  ReflTransGen fun q r => r ∈ successors q

/-- The members of a component are exactly the nodes that lead to each other. -/
def IsComponent (successors : Nat → List Nat) (c : List Nat) : Prop :=
  c ≠ [] ∧ ∀ q ∈ c, ∀ r, r ∈ c ↔ Reaches successors q r ∧ Reaches successors r q

namespace Walk

/-- All nodes met so far. -/
def met (w : Walk) : List Nat := w.complete.flatten ++ w.stack

/-- What holds of a walk between two visits. -/
structure Sound (n : Nat) (successors : Nat → List Nat) (w : Walk) : Prop where
  nodup : w.met.Nodup
  bounded : ∀ q ∈ w.met, q < n
  unmet_iff : ∀ q, w.place.lookup q = none ↔ q ∉ w.met
  place : ∀ q k, w.stack.reverse[k]? = some q → w.place.lookup q = some k
  closed : ∀ q ∈ w.complete.flatten, ∀ r ∈ successors q, r ∈ w.complete.flatten
  components : ∀ c ∈ w.complete, IsComponent successors c

end Walk

variable {n : Nat} {successors : Nat → List Nat}

lemma mem_met {w : Walk} {q : Nat} : q ∈ w.met ↔ q ∈ w.complete.flatten ∨ q ∈ w.stack := by
  simp [Walk.met]

lemma Walk.Sound.length_met_lt {w : Walk} (hw : w.Sound n successors) {q : Nat} (hq : q < n)
    (hmet : q ∉ w.met) : w.met.length < n := by
  have hnodup : (q :: w.met).Nodup := List.nodup_cons.mpr ⟨hmet, hw.nodup⟩
  have hsub : (q :: w.met) ⊆ List.range n := by
    intro r hr
    rcases List.mem_cons.mp hr with rfl | hr
    · exact List.mem_range.mpr hq
    · exact List.mem_range.mpr (hw.bounded r hr)
  have hlen := (hnodup.subperm hsub).length_le
  simpa using hlen

lemma Walk.Sound.mem_met_of_lookup {w : Walk} (hw : w.Sound n successors) {q place : Nat}
    (hplace : w.place.lookup q = some place) : q ∈ w.met := by
  by_contra hunmet
  rw [(hw.unmet_iff q).mpr hunmet] at hplace
  cases hplace

lemma Walk.Sound.push {w : Walk} (hw : w.Sound n successors) {q : Nat} (hq : q < n)
    (hmet : q ∉ w.met) : (w.push q).Sound n successors := by
  have hmem : ∀ r, r ∈ (w.push q).met ↔ r = q ∨ r ∈ w.met := by
    intro r
    simp only [mem_met, Walk.push, List.mem_cons]
    tauto
  have hperm : (w.push q).met.Perm (q :: w.met) := List.perm_middle
  refine ⟨?_, ?_, ?_, ?_, hw.closed, hw.components⟩
  · exact hperm.nodup_iff.mpr (List.nodup_cons.mpr ⟨hmet, hw.nodup⟩)
  · intro r hr
    rcases (hmem r).mp hr with rfl | hr
    · exact hq
    · exact hw.bounded r hr
  · intro r
    rw [hmem]
    by_cases hr : r = q
    · subst hr
      simp [Walk.push]
    · have hne : (r == q) = false := by simpa using hr
      simp only [Walk.push, List.lookup_cons, hne, hr, false_or]
      exact hw.unmet_iff r
  · intro r k hk
    have hlen : w.stack.reverse.length = w.stack.length := List.length_reverse
    simp only [Walk.push, List.reverse_cons] at hk ⊢
    rcases Nat.lt_or_ge k w.stack.length with hlt | hge
    · rw [List.getElem?_append_left (by omega)] at hk
      have hr : r ∈ w.stack := List.mem_reverse.mp (List.mem_of_getElem? hk)
      have hne : (r == q) = false := by
        have : r ≠ q := fun h => hmet (mem_met.mpr (Or.inr (h ▸ hr)))
        simpa using this
      rw [List.lookup_cons, hne]
      exact hw.place r k hk
    · rw [List.getElem?_append_right (by omega), List.getElem?_singleton] at hk
      split at hk
      · have hrq : q = r := Option.some.inj hk
        subst hrq
        have hkl : k = w.stack.length := by omega
        simp [hkl]
      · cases hk

/-- What one successor does to the lowest place found so far and to the walk. -/
def look (successors : Nat → List Nat) (depth : Nat) (state : Nat × Walk) (r : Nat) : Nat × Walk :=
  match state.2.place.lookup r with
  | none => (min state.1 (connect successors depth r state.2).1, (connect successors depth r state.2).2)
  | some place => (if state.2.stack.contains r then min state.1 place else state.1, state.2)

lemma connect_succ (depth q : Nat) (w : Walk) :
    connect successors (depth + 1) q w =
      let scanned := (successors q).foldl (look successors depth) (w.stack.length, w.push q)
      (scanned.1, if scanned.1 = w.stack.length then scanned.2.cut w.stack.length else scanned.2) :=
  rfl

/-- What a visit to `q` achieves: `fresh` is what it leaves on the stack, all of which leads back
to what was there before, and `low` is the lowest place that it leads back to. -/
structure Visited (n : Nat) (successors : Nat → List Nat) (q : Nat) (w : Walk) (fresh : List Nat)
    (low : Nat) (w' : Walk) : Prop where
  sound : w'.Sound n successors
  stack : w'.stack = fresh ++ w.stack
  met_subset : w.met ⊆ w'.met
  met : q ∈ w'.met
  low_lt : fresh ≠ [] → low < w.stack.length
  reached : ∀ v ∈ fresh, Reaches successors q v
  back : ∀ v ∈ fresh, ∃ s ∈ w.stack, Reaches successors v s
  low_reached : low < w.stack.length → ∃ s, w.stack.reverse[low]? = some s ∧ Reaches successors q s
  looked : ∀ v ∈ fresh, ∀ r ∈ successors v, r ∈ w'.met
  low_le : ∀ v ∈ fresh, ∀ r ∈ successors v, ∀ k, w.stack.reverse[k]? = some r → low ≤ k

/-- The state of a visit to `q` that has looked at the successors `seen`. Above `q` the stack has
the nodes `fresh`, below it what was there before the visit. -/
structure Looking (n : Nat) (successors : Nat → List Nat) (q : Nat) (below seen : List Nat)
    (low : Nat) (w : Walk) (fresh : List Nat) : Prop where
  sound : w.Sound n successors
  stack : w.stack = fresh ++ q :: below
  low_le : low ≤ below.length
  reached : ∀ v ∈ fresh, Reaches successors q v
  back : ∀ v ∈ w.stack, Reaches successors v q
  low_reached : low < below.length → ∃ s, below.reverse[low]? = some s ∧ Reaches successors q s
  looked : ∀ v ∈ fresh, ∀ r ∈ successors v, r ∈ w.met
  low_le_place : ∀ v ∈ fresh, ∀ r ∈ successors v, ∀ k, below.reverse[k]? = some r → low ≤ k
  seen_met : ∀ r ∈ seen, r ∈ w.met
  low_le_seen : ∀ r ∈ seen, ∀ k, below.reverse[k]? = some r → low ≤ k

lemma place_append {above below : List Nat} {k r : Nat} (h : below.reverse[k]? = some r) :
    (above ++ below).reverse[k]? = some r := by
  obtain ⟨hk, -⟩ := List.getElem?_eq_some_iff.mp h
  rw [List.reverse_append, List.getElem?_append_left hk, h]

lemma place_of_append {above below : List Nat} {k r : Nat} (hk : k < below.length)
    (h : (above ++ below).reverse[k]? = some r) : below.reverse[k]? = some r := by
  rwa [List.reverse_append, List.getElem?_append_left (by simpa using hk)] at h

lemma Looking.stack_eq {q : Nat} {below seen : List Nat} {low : Nat} {w : Walk} {fresh : List Nat}
    (h : Looking n successors q below seen low w fresh) : w.stack = (fresh ++ [q]) ++ below := by
  simp [h.stack]

lemma Looking.place_lookup {q : Nat} {below seen : List Nat} {low : Nat} {w : Walk}
    {fresh : List Nat} (h : Looking n successors q below seen low w fresh) {r k : Nat}
    (hk : below.reverse[k]? = some r) : w.place.lookup r = some k :=
  h.sound.place r k (by rw [h.stack_eq]; exact place_append hk)

/-- A visit to an unmet successor adds what it leaves on the stack. -/
lemma Looking.visit {q : Nat} {below seen : List Nat} {low : Nat} {w : Walk} {fresh : List Nat}
    (h : Looking n successors q below seen low w fresh) {r : Nat} (hr : r ∈ successors q)
    (hunmet : r ∉ w.met) {fresh' : List Nat} {low' : Nat} {w' : Walk}
    (hv : Visited n successors r w fresh' low' w') :
    Looking n successors q below (seen ++ [r]) (min low low') w' (fresh' ++ fresh) := by
  have hqr : Reaches successors q r := ReflTransGen.single hr
  have hbelow : ∀ {s k : Nat}, below.reverse[k]? = some s → w.stack.reverse[k]? = some s := by
    intro s k hk
    rw [h.stack_eq]
    exact place_append hk
  refine ⟨hv.sound, ?_, ?_, ?_, ?_, ?_, ?_, ?_, ?_, ?_⟩
  · rw [hv.stack, h.stack, List.append_assoc]
  · exact (Nat.min_le_left _ _).trans h.low_le
  · intro v hvm
    rcases List.mem_append.mp hvm with hvm | hvm
    · exact hqr.trans (hv.reached v hvm)
    · exact h.reached v hvm
  · intro v hvm
    rw [hv.stack] at hvm
    rcases List.mem_append.mp hvm with hvm | hvm
    · obtain ⟨s, hs, hvs⟩ := hv.back v hvm
      exact hvs.trans (h.back s hs)
    · exact h.back v hvm
  · intro hlt
    rcases Nat.le_total low low' with hle | hle
    · rw [Nat.min_eq_left hle] at hlt ⊢
      exact h.low_reached hlt
    · rw [Nat.min_eq_right hle] at hlt ⊢
      have hstack : low' < w.stack.length := by
        rw [h.stack_eq, List.length_append]
        omega
      obtain ⟨s, hs, hrs⟩ := hv.low_reached hstack
      rw [h.stack_eq] at hs
      exact ⟨s, place_of_append hlt hs, hqr.trans hrs⟩
  · intro v hvm s hs
    rcases List.mem_append.mp hvm with hvm | hvm
    · exact hv.looked v hvm s hs
    · exact hv.met_subset (h.looked v hvm s hs)
  · intro v hvm s hs k hk
    rcases List.mem_append.mp hvm with hvm | hvm
    · exact (Nat.min_le_right _ _).trans (hv.low_le v hvm s hs k (hbelow hk))
    · exact (Nat.min_le_left _ _).trans (h.low_le_place v hvm s hs k hk)
  · intro s hs
    rcases List.mem_append.mp hs with hs | hs
    · exact hv.met_subset (h.seen_met s hs)
    · rw [List.mem_singleton.mp hs]
      exact hv.met
  · intro s hs k hk
    rcases List.mem_append.mp hs with hs | hs
    · exact (Nat.min_le_left _ _).trans (h.low_le_seen s hs k hk)
    · -- `r` was not met before, so it is not on the stack below `q`
      rw [List.mem_singleton.mp hs] at hk
      have hmem : r ∈ w.stack := List.mem_reverse.mp (List.mem_of_getElem? (hbelow hk))
      exact absurd (mem_met.mpr (Or.inr hmem)) hunmet

/-- A successor that was met before only counts if it is still on the stack. -/
lemma Looking.skip {q : Nat} {below seen : List Nat} {low : Nat} {w : Walk} {fresh : List Nat}
    (h : Looking n successors q below seen low w fresh) {r place : Nat} (hr : r ∈ successors q)
    (hplace : w.place.lookup r = some place) :
    Looking n successors q below (seen ++ [r])
      (if w.stack.contains r then min low place else low) w fresh := by
  have hmet : r ∈ w.met := h.sound.mem_met_of_lookup hplace
  have hle : (if w.stack.contains r then min low place else low) ≤ low := by
    split
    · exact Nat.min_le_left _ _
    · exact le_rfl
  refine ⟨h.sound, h.stack, hle.trans h.low_le, h.reached, h.back, ?_, h.looked, ?_, ?_, ?_⟩
  · intro hlt
    -- nodes of complete components keep their place, but they are on the stack no more
    by_cases hstack : r ∈ w.stack
    · rw [if_pos (List.contains_iff_mem.mpr hstack)] at hlt ⊢
      rcases Nat.le_total low place with hle | hle
      · rw [Nat.min_eq_left hle] at hlt ⊢
        exact h.low_reached hlt
      · rw [Nat.min_eq_right hle] at hlt ⊢
        obtain ⟨k, hk⟩ := List.mem_iff_getElem?.mp (List.mem_reverse.mpr hstack)
        have hkp : place = k := by
          have := h.sound.place r k hk
          rw [hplace] at this
          exact Option.some.inj this
        rw [← hkp, h.stack_eq] at hk
        exact ⟨r, place_of_append hlt hk, ReflTransGen.single hr⟩
    · rw [if_neg (fun hc => hstack (List.contains_iff_mem.mp hc))] at hlt ⊢
      exact h.low_reached hlt
  · intro v hv s hs k hk
    exact hle.trans (h.low_le_place v hv s hs k hk)
  · intro s hs
    rcases List.mem_append.mp hs with hs | hs
    · exact h.seen_met s hs
    · rw [List.mem_singleton.mp hs]
      exact hmet
  · intro s hs k hk
    rcases List.mem_append.mp hs with hs | hs
    · exact hle.trans (h.low_le_seen s hs k hk)
    · rw [List.mem_singleton.mp hs] at hk
      have hkp : place = k := by
        have := h.place_lookup hk
        rw [hplace] at this
        exact Option.some.inj this
      have hstack : r ∈ w.stack := by
        rw [h.stack_eq]
        exact List.mem_append_right _ (List.mem_reverse.mp (List.mem_of_getElem? hk))
      rw [if_pos (List.contains_iff_mem.mpr hstack), ← hkp]
      exact Nat.min_le_right _ _

/-- Every unmet node can be visited to the given depth. -/
def Visits (n : Nat) (successors : Nat → List Nat) (depth : Nat) : Prop :=
  ∀ q w, w.Sound n successors → q < n → q ∉ w.met → n ≤ depth + w.met.length →
    (∀ v ∈ w.stack, Reaches successors v q) →
    ∃ fresh, Visited n successors q w fresh (connect successors depth q w).1
      (connect successors depth q w).2

lemma length_met_le {w w' : Walk} (hw : w.Sound n successors) (h : w.met ⊆ w'.met) :
    w.met.length ≤ w'.met.length :=
  (hw.nodup.subperm h).length_le

lemma look_all {depth : Nat} (hvisits : Visits n successors depth)
    (hbounded : ∀ q < n, ∀ r ∈ successors q, r < n) {q : Nat} (hq : q < n) {below : List Nat}
    (rest : List Nat) (hrest : rest ⊆ successors q) (seen : List Nat) (low : Nat) (w : Walk)
    (fresh : List Nat) (h : Looking n successors q below seen low w fresh)
    (hdepth : n ≤ depth + w.met.length) :
    ∃ fresh', Looking n successors q below (seen ++ rest)
      (rest.foldl (look successors depth) (low, w)).1
      (rest.foldl (look successors depth) (low, w)).2 fresh' ∧
      w.met ⊆ (rest.foldl (look successors depth) (low, w)).2.met := by
  induction rest generalizing seen low w fresh with
  | nil =>
    refine ⟨fresh, ?_, fun _ h => h⟩
    simpa using h
  | cons r rest ih =>
    have hr : r ∈ successors q := hrest List.mem_cons_self
    have hrest' : rest ⊆ successors q := fun s hs => hrest (List.mem_cons_of_mem _ hs)
    rw [List.foldl_cons]
    cases hplace : w.place.lookup r with
    | none =>
      have hunmet : r ∉ w.met := (h.sound.unmet_iff r).mp hplace
      have hback : ∀ v ∈ w.stack, Reaches successors v r :=
        fun v hv => (h.back v hv).tail hr
      obtain ⟨fresh', hv⟩ := hvisits r w h.sound (hbounded q hq r hr) hunmet hdepth hback
      have hlook : look successors depth (low, w) r =
          (min low (connect successors depth r w).1, (connect successors depth r w).2) := by
        simp [look, hplace]
      have hlen := length_met_le h.sound hv.met_subset
      rw [hlook]
      obtain ⟨fresh'', h', hsub⟩ := ih hrest' (seen ++ [r]) _ _ _ (h.visit hr hunmet hv) (by omega)
      rw [List.append_assoc] at h'
      exact ⟨fresh'', h', fun v hvm => hsub (hv.met_subset hvm)⟩
    | some place =>
      have hlook : look successors depth (low, w) r =
          (if w.stack.contains r then min low place else low, w) := by
        simp [look, hplace]
      rw [hlook]
      obtain ⟨fresh', h', hsub⟩ := ih hrest' (seen ++ [r]) _ _ _ (h.skip hr hplace) hdepth
      rw [List.append_assoc] at h'
      exact ⟨fresh', h', hsub⟩

lemma Looking.start {q : Nat} {w : Walk} (hw : w.Sound n successors) (hq : q < n)
    (hunmet : q ∉ w.met) (hback : ∀ v ∈ w.stack, Reaches successors v q) :
    Looking n successors q w.stack [] w.stack.length (w.push q) [] := by
  refine ⟨hw.push hq hunmet, rfl, le_rfl, by simp, ?_, fun h => absurd h (lt_irrefl _), by simp,
    by simp, by simp, by simp⟩
  intro v hv
  rcases List.mem_cons.mp hv with rfl | hv
  · exact ReflTransGen.refl
  · exact hback v hv

section Finish

variable {q : Nat} {below : List Nat} {low : Nat} {w : Walk} {fresh : List Nat}

lemma Looking.mem_stack {seen : List Nat} (h : Looking n successors q below seen low w fresh) {v : Nat}
    (hv : v ∈ fresh ++ [q]) : v ∈ w.stack := by
  rw [h.stack_eq]
  exact List.mem_append_left _ hv

lemma Looking.reached_above {seen : List Nat} (h : Looking n successors q below seen low w fresh)
    {v : Nat} (hv : v ∈ fresh ++ [q]) : Reaches successors q v := by
  rcases List.mem_append.mp hv with hv | hv
  · exact h.reached v hv
  · rw [List.mem_singleton.mp hv]
    exact ReflTransGen.refl

/-- All that the nodes from `q` on lead to has been met, and none of it below the lowest place. -/
lemma Looking.looked_above (h : Looking n successors q below (successors q) low w fresh) {v r : Nat}
    (hv : v ∈ fresh ++ [q]) (hr : r ∈ successors v) :
    r ∈ w.met ∧ ∀ k, below.reverse[k]? = some r → low ≤ k := by
  rcases List.mem_append.mp hv with hv | hv
  · exact ⟨h.looked v hv r hr, h.low_le_place v hv r hr⟩
  · rw [List.mem_singleton.mp hv] at hr
    exact ⟨h.seen_met r hr, h.low_le_seen r hr⟩

/-- A visit that leads back below its own place leaves its nodes on the stack. -/
lemma Looking.leave {w₀ : Walk} (h : Looking n successors q w₀.stack (successors q) low w fresh)
    (hlt : low < w₀.stack.length) (hsub : w₀.met ⊆ w.met) :
    Visited n successors q w₀ (fresh ++ [q]) low w := by
  obtain ⟨s, hs, hqs⟩ := h.low_reached hlt
  have hmem : s ∈ w₀.stack := List.mem_reverse.mp (List.mem_of_getElem? hs)
  have hq : q ∈ w.stack := h.mem_stack (by simp)
  refine ⟨h.sound, h.stack_eq, hsub, mem_met.mpr (Or.inr hq), fun _ => hlt,
    fun v hv => h.reached_above hv, ?_, fun _ => ⟨s, hs, hqs⟩,
    fun v hv r hr => (h.looked_above hv hr).1, fun v hv r hr => (h.looked_above hv hr).2⟩
  intro v hv
  exact ⟨s, hmem, (h.back v (h.mem_stack hv)).trans hqs⟩

/-- If a visit leads back to no place below its own, nothing that it left on the stack leads below
that place. -/
lemma Looking.stays (h : Looking n successors q below (successors q) below.length w fresh) {v r : Nat}
    (hv : v ∈ fresh ++ [q]) (hr : r ∈ successors v) :
    r ∈ w.complete.flatten ∨ r ∈ fresh ++ [q] := by
  obtain ⟨hmet, hplaces⟩ := h.looked_above hv hr
  rcases mem_met.mp hmet with hc | hs
  · exact Or.inl hc
  · rw [h.stack_eq] at hs
    rcases List.mem_append.mp hs with hs | hs
    · exact Or.inr hs
    · obtain ⟨k, hk⟩ := List.mem_iff_getElem?.mp (List.mem_reverse.mpr hs)
      obtain ⟨hlt, -⟩ := List.getElem?_eq_some_iff.mp hk
      have hle := hplaces k hk
      rw [List.length_reverse] at hlt
      omega

lemma Looking.isComponent
    (h : Looking n successors q below (successors q) below.length w fresh) :
    IsComponent successors (fresh ++ [q]).reverse := by
  have hback : ∀ v ∈ fresh ++ [q], Reaches successors v q := fun v hv => h.back v (h.mem_stack hv)
  have hcomplete : ∀ {v r}, v ∈ w.complete.flatten → Reaches successors v r →
      r ∈ w.complete.flatten := by
    intro v r hv hvr
    induction hvr with
    | refl => exact hv
    | tail _ hedge ih => exact h.sound.closed _ ih _ hedge
  have hclosed : ∀ {v r}, v ∈ fresh ++ [q] → Reaches successors v r →
      r ∈ w.complete.flatten ∨ r ∈ fresh ++ [q] := by
    intro v r hv hvr
    induction hvr with
    | refl => exact Or.inr hv
    | tail _ hedge ih =>
      rcases ih with ih | ih
      · exact Or.inl (h.sound.closed _ ih _ hedge)
      · exact h.stays ih hedge
  refine ⟨by simp, ?_⟩
  intro v hv r
  rw [List.mem_reverse] at hv ⊢
  constructor
  · intro hr
    exact ⟨(hback v hv).trans (h.reached_above hr), (hback r hr).trans (h.reached_above hv)⟩
  · rintro ⟨hvr, hrv⟩
    rcases hclosed hv hvr with hr | hr
    · -- a complete component is never left, but `v` is still on the stack
      exact absurd (h.mem_stack hv) ((List.nodup_append.mp h.sound.nodup).2.2 v (hcomplete hr hrv) v · rfl)
    · exact hr

lemma Looking.cut_stack (h : Looking n successors q below (successors q) below.length w fresh) :
    (w.cut below.length).stack = below ∧
      (w.cut below.length).complete = w.complete ++ [(fresh ++ [q]).reverse] := by
  have hcount : w.stack.length - below.length = (fresh ++ [q]).length := by
    rw [h.stack_eq, List.length_append]
    omega
  simp only [Walk.cut, hcount]
  rw [h.stack_eq, List.drop_left, List.take_left]
  exact ⟨rfl, rfl⟩

/-- A visit that leads back to no place below its own cuts off a component. -/
lemma Looking.finish {w₀ : Walk}
    (h : Looking n successors q w₀.stack (successors q) w₀.stack.length w fresh)
    (hsub : w₀.met ⊆ w.met) :
    Visited n successors q w₀ [] w₀.stack.length (w.cut w₀.stack.length) := by
  obtain ⟨hstack, hcomplete⟩ := h.cut_stack
  have hperm : (w.cut w₀.stack.length).met.Perm w.met := by
    rw [Walk.met, Walk.met, hstack, hcomplete, h.stack_eq, List.flatten_append,
      List.flatten_singleton, List.append_assoc]
    exact ((List.reverse_perm _).append_right _).append_left _
  have hplace : (w.cut w₀.stack.length).place = w.place := rfl
  have hsound : (w.cut w₀.stack.length).Sound n successors := by
    refine ⟨hperm.nodup_iff.mpr h.sound.nodup, fun r hr => h.sound.bounded r (hperm.subset hr),
      ?_, ?_, ?_, ?_⟩
    · intro r
      rw [hplace, h.sound.unmet_iff r, hperm.mem_iff]
    · intro r k hk
      rw [hstack] at hk
      rw [hplace]
      exact h.place_lookup hk
    · intro v hv r hr
      rw [hcomplete, List.flatten_append, List.flatten_singleton, List.mem_append,
        List.mem_reverse] at hv ⊢
      rcases hv with hv | hv
      · exact Or.inl (h.sound.closed v hv r hr)
      · exact h.stays hv hr
    · intro c hc
      rw [hcomplete] at hc
      rcases List.mem_append.mp hc with hc | hc
      · exact h.sound.components c hc
      · rw [List.mem_singleton.mp hc]
        exact h.isComponent
  have hq : q ∈ w.met := mem_met.mpr (Or.inr (h.mem_stack (by simp)))
  exact ⟨hsound, hstack, fun v hv => hperm.symm.subset (hsub hv), hperm.symm.subset hq,
    by simp, by simp, by simp, fun hlt => absurd hlt (lt_irrefl _), by simp, by simp⟩

end Finish

lemma visits (hbounded : ∀ q < n, ∀ r ∈ successors q, r < n) (depth : Nat) :
    Visits n successors depth := by
  -- each visit meets a new node before it goes deeper, so the depth suffices for what is left
  induction depth with
  | zero =>
    intro q w hw hq hunmet hdepth _
    have := hw.length_met_lt hq hunmet
    omega
  | succ depth ih =>
    intro q w hw hq hunmet hdepth hback
    have hpush : w.met ⊆ (w.push q).met := by
      intro v hv
      rcases mem_met.mp hv with hv | hv
      · exact mem_met.mpr (Or.inl hv)
      · exact mem_met.mpr (Or.inr (List.mem_cons_of_mem _ hv))
    have hlen : (w.push q).met.length = w.met.length + 1 := by
      simp [Walk.met, Walk.push, Nat.add_assoc]
    obtain ⟨fresh, h, hsub⟩ := look_all ih hbounded hq (successors q) (fun _ h => h) [] _ _ _
      (Looking.start hw hq hunmet hback) (by omega)
    rw [List.nil_append] at h
    rw [connect_succ]
    dsimp only
    set scanned := (successors q).foldl (look successors depth) (w.stack.length, w.push q)
    have hmet : w.met ⊆ scanned.2.met := fun v hv => hsub (hpush hv)
    by_cases hlow : scanned.1 = w.stack.length
    · rw [if_pos hlow, hlow]
      rw [hlow] at h
      exact ⟨[], h.finish hmet⟩
    · rw [if_neg hlow]
      exact ⟨fresh ++ [q], h.leave (lt_of_le_of_ne h.low_le hlow) hmet⟩

/-- What one node does to the walk as a whole. -/
def advance (n : Nat) (successors : Nat → List Nat) (w : Walk) (q : Nat) : Walk :=
  match w.place.lookup q with
  | none => (connect successors n q w).2
  | some _ => w

lemma advance_step (hbounded : ∀ q < n, ∀ r ∈ successors q, r < n) {q : Nat} (hq : q < n) {w : Walk}
    (hw : w.Sound n successors) (hstack : w.stack = []) :
    (advance n successors w q).Sound n successors ∧ (advance n successors w q).stack = [] ∧
      q ∈ (advance n successors w q).met ∧ w.met ⊆ (advance n successors w q).met := by
  unfold advance
  cases hplace : w.place.lookup q with
  | none =>
    have hunmet : q ∉ w.met := (hw.unmet_iff q).mp hplace
    obtain ⟨fresh, hv⟩ := visits hbounded n q w hw hq hunmet (by omega) (by simp [hstack])
    -- there is no place below an empty stack to lead back to
    have hfresh : fresh = [] := by
      by_contra hne
      have := hv.low_lt hne
      simp [hstack] at this
    exact ⟨hv.sound, by rw [hv.stack, hfresh, hstack]; rfl, hv.met, hv.met_subset⟩
  | some place => exact ⟨hw, hstack, hw.mem_met_of_lookup hplace, fun _ h => h⟩

lemma advance_all (hbounded : ∀ q < n, ∀ r ∈ successors q, r < n) (qs : List Nat)
    (hqs : ∀ q ∈ qs, q < n) (w : Walk) (hw : w.Sound n successors) (hstack : w.stack = []) :
    (qs.foldl (advance n successors) w).Sound n successors ∧
      (qs.foldl (advance n successors) w).stack = [] ∧
      ∀ q, q ∈ qs ∨ q ∈ w.met → q ∈ (qs.foldl (advance n successors) w).met := by
  induction qs generalizing w with
  | nil => exact ⟨hw, hstack, by simp⟩
  | cons q qs ih =>
    obtain ⟨hw₁, hstack₁, hq, hsub⟩ := advance_step hbounded (hqs q List.mem_cons_self) hw hstack
    obtain ⟨hsound, hempty, hmet⟩ := ih (fun r hr => hqs r (List.mem_cons_of_mem _ hr)) _ hw₁ hstack₁
    refine ⟨hsound, hempty, ?_⟩
    rintro r (hr | hr)
    · rcases List.mem_cons.mp hr with rfl | hr
      · exact hmet r (Or.inr hq)
      · exact hmet r (Or.inl hr)
    · exact hmet r (Or.inr (hsub hr))

/-- The components of a finite graph: every node is a member of exactly one of them, once, and the
members of each are the nodes that lead to each other. -/
theorem components_partition (hbounded : ∀ q < n, ∀ r ∈ successors q, r < n) :
    (components n successors).flatten.Nodup ∧
      (∀ q, q ∈ (components n successors).flatten ↔ q < n) ∧
      ∀ c ∈ components n successors, IsComponent successors c := by
  have hempty : (⟨[], [], []⟩ : Walk).Sound n successors :=
    ⟨by simp [Walk.met], by simp [Walk.met], by simp [Walk.met], by simp, by simp, by simp⟩
  obtain ⟨hsound, hstack, hmet⟩ := advance_all hbounded (List.range n)
    (fun q hq => List.mem_range.mp hq) ⟨[], [], []⟩ hempty rfl
  have hcomponents : components n successors =
      ((List.range n).foldl (advance n successors) ⟨[], [], []⟩).complete := rfl
  set w := (List.range n).foldl (advance n successors) ⟨[], [], []⟩
  have hflatten : w.met = w.complete.flatten := by simp [Walk.met, hstack]
  rw [hcomponents]
  refine ⟨hflatten ▸ hsound.nodup, ?_, hsound.components⟩
  intro q
  constructor
  · intro hq
    exact hsound.bounded q (hflatten ▸ hq)
  · intro hq
    exact hflatten ▸ hmet q (Or.inl (List.mem_range.mpr hq))

end StructuralTypes.Components
