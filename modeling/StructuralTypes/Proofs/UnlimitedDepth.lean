import StructuralTypes.Acyclicity
import StructuralTypes.Proofs.Computation
import StructuralTypes.Subsumption

/-!
# Runs of unlimited depth

Searches and walks are carried out to a limited depth, and to a greater one if that was not enough. A limit
that is not exceeded makes no difference, so a run of unlimited depth comes to whatever some limited run
comes to, and the depth that is tried first makes no difference either.
-/

namespace StructuralTypes

/-- Whatever `x` comes to without going too deep, `y` comes to as well. -/
def Approximates {σ α : Type} (x y : ExceptT Fault (StateM σ) α) : Prop :=
  ∀ s, (x s).1 ≠ .error .tooDeep → y s = x s

namespace Approximates

variable {σ α β : Type} {x y : ExceptT Fault (StateM σ) α}

lemma refl (x : ExceptT Fault (StateM σ) α) : Approximates x x := fun _ _ => rfl

lemma bind {f g : α → ExceptT Fault (StateM σ) β} (hx : Approximates x y) (hf : ∀ a, Approximates (f a) (g a)) :
    Approximates (x >>= f) (y >>= g) := by
  intro s hs
  rcases hrun : x s with ⟨fault | a, s'⟩
  · rw [bind_of_error hrun] at hs ⊢
    have hne : (x s).1 ≠ .error .tooDeep := by
      rw [hrun]
      exact fun h => hs (congrArg Except.error (Except.error.inj h))
    rw [bind_of_error ((hx s hne).trans hrun)]
  · rw [bind_of_ok hrun] at hs ⊢
    have hne : (x s).1 ≠ .error .tooDeep := by simp [hrun]
    rw [bind_of_ok ((hx s hne).trans hrun)]
    exact hf a s' hs

lemma anyM {f g : α → ExceptT Fault (StateM σ) Bool} (hf : ∀ a, Approximates (f a) (g a)) (as : List α) :
    Approximates (as.anyM f) (as.anyM g) := by
  induction as with
  | nil => exact refl _
  | cons a as ih =>
    apply (hf a).bind
    intro found
    cases found with
    | true => exact refl _
    | false => exact ih

lemma foldlM {f g : β → α → ExceptT Fault (StateM σ) β} (hf : ∀ b a, Approximates (f b a) (g b a)) (b : β)
    (as : List α) : Approximates (as.foldlM f b) (as.foldlM g b) := by
  induction as generalizing b with
  | nil => exact refl _
  | cons a as ih =>
    rw [List.foldlM_cons, List.foldlM_cons]
    exact (hf b a).bind ih

lemma settle {search search' : Referent → Referent → Searching Bool}
    (h : ∀ a b, Approximates (search a b) (search' a b)) (sup sub : Referent) :
    Approximates (Searching.settle search sup sub) (Searching.settle search' sup sub) := by
  apply (refl _).bind
  intro same
  cases same with
  | true => exact refl _
  | false =>
    apply (refl _).bind
    intro below
    apply (anyM (fun r => h r sub) below).bind
    intro found
    cases found with
    | true => exact refl _
    | false =>
      apply (refl _).bind
      intro above
      exact anyM (fun r => h sup r) above

/-- A search to a greater depth comes to the same, unless the first depth was not enough. -/
theorem supersedes {n m : Nat} (hle : n ≤ m) (sup sub : Referent) :
    Approximates (Searching.supersedes n sup sub) (Searching.supersedes m sup sub) := by
  induction n generalizing m sup sub with
  | zero => exact fun s hs => absurd rfl hs
  | succ n ih =>
    obtain ⟨m, rfl⟩ : ∃ k, m = k + 1 := ⟨m - 1, by omega⟩
    unfold Searching.supersedes
    apply (refl _).bind
    intro _
    apply (refl _).bind
    intro _
    apply (refl _).bind
    intro s
    cases s.decided.lookup (sup.identity, sub.identity) with
    | some answer => exact refl _
    | none =>
      apply (refl _).bind
      intro s
      have hsettle := settle (ih (Nat.le_of_succ_le_succ hle)) sup sub
      by_cases hpending : s.pending.contains (sup.identity, sub.identity) = true
      · rw [if_pos hpending, if_pos hpending]
        exact (refl _).bind fun _ => (refl _).bind fun _ => hsettle.bind fun _ => refl _
      · rw [if_neg hpending, if_neg hpending]
        exact (refl _).bind fun _ => hsettle.bind fun _ => refl _

/-- A walk to a greater depth comes to the same, unless the first depth was not enough. -/
theorem explore (d : Direction) {n m : Nat} (hle : n ≤ m) (g : Reach) (r : Referent) :
    Approximates (Build.explore d n g r) (Build.explore d m g r) := by
  induction n generalizing m g r with
  | zero => exact fun s hs => absurd rfl hs
  | succ n ih =>
    obtain ⟨m, rfl⟩ : ∃ k, m = k + 1 := ⟨m - 1, by omega⟩
    unfold Build.explore
    apply (refl _).bind
    intro _
    by_cases hmet : g.identities.contains r.identity = true
    · rw [if_pos hmet, if_pos hmet]
      exact refl _
    · rw [if_neg hmet, if_neg hmet]
      apply (refl _).bind
      intro nodes
      exact foldlM (ih (Nat.le_of_succ_le_succ hle)) _ _

end Approximates

lemma Attempt.isTooDeep_iff {α : Type} (x : Attempt α) : isTooDeep x = true ↔ x = .error .tooDeep := by
  unfold isTooDeep
  split <;> simp_all

namespace Build

variable {α : Type} {run : Nat → Build α} {l : Lattice} {n : Nat}

/-- A greater depth makes no difference once the depth is enough. -/
def MonotoneInDepth (run : Nat → Build α) : Prop := ∀ n m, n ≤ m → Approximates (run n) (run m)

lemma monotoneInDepth_supersedesWithin (sup sub : Referent) : MonotoneInDepth (supersedesWithin sup sub) := by
  intro n m hle l hl
  have hsame := Approximates.supersedes hle sup sub ⟨l, [], []⟩ hl
  unfold supersedesWithin
  rw [hsame]

lemma monotoneInDepth_explore (d : Direction) (root : Referent) :
    MonotoneInDepth fun depth => explore d depth [] root :=
  fun _ _ hle => Approximates.explore d hle [] root

/-- Any two depths that are enough are enough for the same. -/
lemma MonotoneInDepth.eq {m : Nat} (h : MonotoneInDepth run) (hn : (run n l).1 ≠ .error .tooDeep)
    (hm : (run m l).1 ≠ .error .tooDeep) : run n l = run m l := by
  rw [← h n (max n m) (Nat.le_max_left n m) l hn, h m (max n m) (Nat.le_max_right n m) l hm]

lemma outcome?_deepen (run : Nat → Build α) (l : Lattice) (depth : Nat) :
    (deepen run l depth).outcome? =
      if Attempt.isTooDeep (run depth l).1 then (deepen run l (2 * depth + 1)).outcome? else some (run depth l) := by
  have hstep : deepen run l depth = (attemptAt run l depth).elim (deepen run l) id := by
    unfold deepen
    rw [repeatM_eq_of_monadTail]
    unfold repeatM.body
    cases attemptAt run l depth <;> rfl
  rw [hstep]
  unfold attemptAt
  dsimp only
  split <;> rfl

lemma exists_of_deepen {depth : Nat} {outcome : Attempt α × Lattice}
    (h : (deepen run l depth).outcome? = some outcome) : ∃ n, outcome = run n l ∧ (run n l).1 ≠ .error .tooDeep := by
  obtain ⟨n, rfl, hn⟩ := (deepen run l depth).enough outcome h
  exact ⟨n, rfl, mt (Attempt.isTooDeep_iff _).mpr hn⟩

lemma MonotoneInDepth.deepen_ne_none (h : MonotoneInDepth run) (hn : (run n l).1 ≠ .error .tooDeep) (depth : Nat) :
    (deepen run l depth).outcome? ≠ none := by
  -- every repetition comes closer to the depth that is enough
  induction hgap : n - depth using Nat.strong_induction_on generalizing depth with
  | _ gap ih =>
    rw [outcome?_deepen]
    split
    · rename_i hdeep
      refine ih (n - (2 * depth + 1)) ?_ (2 * depth + 1) rfl
      have hlt : depth < n := by
        by_contra hge
        rw [← h n depth (Nat.le_of_not_lt hge) l hn] at hn
        exact hn ((Attempt.isTooDeep_iff _).mp hdeep)
      omega
    · simp

/-- An unlimited run is a run to some depth that is enough, unless it goes too deep and changes nothing. -/
theorem unlimited_cases (run : Nat → Build α) (l : Lattice) :
    (∃ n, unlimited run l = run n l ∧ (run n l).1 ≠ .error .tooDeep) ∨ unlimited run l = (.error .tooDeep, l) := by
  unfold unlimited
  dsimp only
  split
  · cases hdeepen : (deepen run l (2 * (l.entries.size * l.entries.size + 1) + 1)).outcome? with
    | none => exact .inr rfl
    | some outcome =>
      obtain ⟨n, rfl, hn⟩ := exists_of_deepen hdeepen
      exact .inl ⟨n, rfl, hn⟩
  · rename_i hne
    exact .inl ⟨_, rfl, mt (Attempt.isTooDeep_iff _).mpr hne⟩

/-- What holds of every limited run, and of going too deep at once, holds of an unlimited run. -/
lemma unlimited_induction {P : Attempt α × Lattice → Prop} (hrun : ∀ n, P (run n l)) (hdeep : P (.error .tooDeep, l)) :
    P (unlimited run l) := by
  rcases unlimited_cases run l with ⟨n, h, -⟩ | h
  · rw [h]
    exact hrun n
  · rw [h]
    exact hdeep

/-- An unlimited run comes to what a run to any sufficient depth comes to. -/
theorem MonotoneInDepth.unlimited_eq (h : MonotoneInDepth run) (hn : (run n l).1 ≠ .error .tooDeep) :
    unlimited run l = run n l := by
  unfold unlimited
  dsimp only
  split
  · cases hdeepen : (deepen run l (2 * (l.entries.size * l.entries.size + 1) + 1)).outcome? with
    | none => exact absurd hdeepen (h.deepen_ne_none hn _)
    | some outcome =>
      obtain ⟨m, rfl, hm⟩ := exists_of_deepen hdeepen
      exact h.eq hm hn
  · rename_i hne
    exact h.eq (mt (Attempt.isTooDeep_iff _).mpr hne) hn

/-- An unlimited run goes too deep only if every limited run does. -/
lemma MonotoneInDepth.tooDeep (h : MonotoneInDepth run) (hrun : (unlimited run l).1 = .error .tooDeep) (n : Nat) :
    (run n l).1 = .error .tooDeep := by
  by_contra hn
  rw [h.unlimited_eq hn] at hrun
  exact hn hrun

/-- A run for which no depth is enough goes too deep and changes nothing. -/
lemma unlimited_of_forall (h : ∀ n, (run n l).1 = .error .tooDeep) : unlimited run l = (.error .tooDeep, l) := by
  rcases unlimited_cases run l with ⟨n, -, hn⟩ | hrun
  · exact absurd (h n) hn
  · exact hrun

end Build

end StructuralTypes
