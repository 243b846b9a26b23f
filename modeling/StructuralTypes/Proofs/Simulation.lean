import StructuralTypes.Proofs.UnlimitedDepth

/-!
# Simulation of computations

Two computations, each with a state of its own, are compared step by step. One simulates the other one if
they come to related results in related states, or fail in related states with faults that are worded alike.
States are related with respect to the nodes at hand, which get more and never fewer. Runs that simulate each
other at every limit to their depth do so without a limit, however large the two lattices are.
-/

namespace StructuralTypes

/-- Faults that say the same: one fault, or cycles through types that are shown by the same text. -/
inductive Fault.Alike : Fault → Fault → Prop
  | refl (fault : Fault) : Alike fault fault
  | cyclicLattice {sup sub sup' sub' : Referent} : sup'.display = sup.display → sub'.display = sub.display →
      Alike (.cyclicLattice sup sub) (.cyclicLattice sup' sub')

lemma Fault.shown_eq {r r' : Referent} (h : r'.display = r.display) : Fault.shown r' = Fault.shown r := by
  unfold Fault.shown
  rw [h]

lemma Fault.Alike.message_eq {fault fault' : Fault} (h : fault.Alike fault') :
    fault'.message = fault.message := by
  cases h with
  | refl => rfl
  | cyclicLattice hsup hsub =>
    exact congrArg₂ (fun sup sub => "Cycle in the type lattice involving: " ++ sup ++ ", " ++ sub)
      (Fault.shown_eq hsup) (Fault.shown_eq hsub)

lemma Fault.Alike.tooDeep_iff {fault fault' : Fault} (h : fault.Alike fault') :
    fault = .tooDeep ↔ fault' = .tooDeep := by
  cases h with
  | refl => exact Iff.rfl
  | cyclicLattice => exact iff_of_false Fault.noConfusion Fault.noConfusion

/-- What a comparison goes by: whether it is granted that no edge was overwritten, and which faults are
taken for the same. Going too deep is never taken for anything else. -/
structure Comparison where
  untouched : Prop
  alike : Fault → Fault → Prop
  refl : ∀ fault, alike fault fault
  tooDeep_iff : ∀ {fault fault'}, alike fault fault' → (fault = .tooDeep ↔ fault' = .tooDeep)

/-- Faults count as the same if they are worded alike. -/
def Comparison.byMessage (untouched : Prop) : Comparison := ⟨untouched, Fault.Alike, .refl, Fault.Alike.tooDeep_iff⟩

/-- No edge was overwritten, and faults are the same. -/
def Comparison.exact : Comparison := ⟨True, Eq, fun _ => rfl, fun h => by rw [h]⟩

/-- Results that are related, or faults that are taken for the same. -/
inductive RelatedResults (c : Comparison) {α β : Type} (Q : α → β → Prop) : Attempt α → Attempt β → Prop
  | ok {a : α} {b : β} : Q a b → RelatedResults c Q (.ok a) (.ok b)
  | error {fault fault' : Fault} : c.alike fault fault' → RelatedResults c Q (.error fault) (.error fault')

namespace RelatedResults

variable {c : Comparison} {α β α' β' : Type} {Q : α → β → Prop} {Q' : α' → β' → Prop} {x : Attempt α}
  {y : Attempt β}

lemma mono {P : α → β → Prop} (h : RelatedResults c Q x y) (hP : ∀ a b, x = .ok a → Q a b → P a b) :
    RelatedResults c P x y := by
  cases h with
  | ok hab => exact .ok (hP _ _ rfl hab)
  | error halike => exact .error halike

lemma tooDeep_iff (h : RelatedResults c Q x y) : x = .error .tooDeep ↔ y = .error .tooDeep := by
  cases h with
  | ok => simp
  | error halike => simpa using c.tooDeep_iff halike

lemma of_eq {x : Attempt α} : RelatedResults c Eq x x := by
  cases x with
  | error fault => exact .error (c.refl fault)
  | ok a => exact .ok rfl

lemma of_map {f : α → β} (hx : ∀ a, x = .ok a → Q a (f a)) : RelatedResults c Q x (x.map f) := by
  cases x with
  | error fault => exact .error (c.refl fault)
  | ok a => exact .ok (hx a rfl)

lemma bind {f : α → Attempt α'} {g : β → Attempt β'} (h : RelatedResults c Q x y)
    (hfg : ∀ a b, x = .ok a → Q a b → RelatedResults c Q' (f a) (g b)) : RelatedResults c Q' (x >>= f) (y >>= g) := by
  cases h with
  | ok hab => exact hfg _ _ rfl hab
  | error halike => exact .error halike

lemma mapM {f : α → Attempt α'} {g : β → Attempt β'} {as : List α} {bs : List β}
    (h : List.Forall₂ (fun a b => RelatedResults c Q' (f a) (g b)) as bs) :
    RelatedResults c (List.Forall₂ Q') (as.mapM f) (bs.mapM g) := by
  induction h with
  | nil => exact .ok .nil
  | cons hab _ ih =>
    rw [List.mapM_cons, List.mapM_cons]
    apply hab.bind
    intro a b _ hQ
    apply ih.bind
    intro as bs _ hQs
    exact .ok (.cons hQ hQs)

end RelatedResults

/-- An attempt as a computation that has no state. -/
def Attempt.stateless {α : Type} (a : Attempt α) : ExceptT Fault (StateM Unit) α := fun u => (a, u)

namespace Attempt

variable {α β : Type}

lemma stateless_bind (a : Attempt α) (f : α → Attempt β) :
    stateless (a >>= f) = stateless a >>= fun b => stateless (f b) := by
  funext u
  cases a <;> rfl

lemma stateless_mapM (f : α → Attempt β) (as : List α) : stateless (as.mapM f) = as.mapM fun a => stateless (f a) := by
  induction as with
  | nil => rfl
  | cons a as ih =>
    rw [List.mapM_cons, List.mapM_cons, stateless_bind]
    congr 1
    funext b
    rw [stateless_bind, ih]
    rfl

end Attempt

/-- From related states, `y` comes to what `x` comes to. -/
def Simulates (c : Comparison) {σ τ α β : Type} (R : List Ty → σ → τ → Prop) (ns : List Ty) (s : σ) (s' : τ)
    (x : ExceptT Fault (StateM σ) α) (y : ExceptT Fault (StateM τ) β) (Q : List Ty → α → β → Prop) : Prop :=
  ∃ ns', ns ⊆ ns' ∧ R ns' (x s).2 (y s').2 ∧ RelatedResults c (Q ns') (x s).1 (y s').1

namespace Simulates

variable {c : Comparison} {σ τ α β α' β' : Type} {R : List Ty → σ → τ → Prop} {ns : List Ty} {s : σ} {s' : τ}
  {x : ExceptT Fault (StateM σ) α} {y : ExceptT Fault (StateM τ) β} {Q : List Ty → α → β → Prop}
  {Q' : List Ty → α' → β' → Prop}

/-- What is neither read nor changed takes no part. -/
lemma attempt (h : R ns s s') {a : Attempt α} {b : Attempt β} (hab : RelatedResults c (Q ns) a b) :
    Simulates c R ns s s' (fun s => (a, s)) (fun s' => (b, s')) Q := ⟨ns, List.Subset.refl ns, h, hab⟩

lemma pure (h : R ns s s') {a : α} {b : β} (hab : Q ns a b) :
    Simulates c R ns s s' (Pure.pure a) (Pure.pure b) Q := attempt h (.ok hab)

lemma throw (h : R ns s s') {fault fault' : Fault} (halike : c.alike fault fault') :
    Simulates c R ns s s' (throw fault) (throw fault') Q :=
  attempt h (.error halike)

lemma modify {f : σ → σ} {g : τ → τ} (hfg : R ns (f s) (g s')) {Q : List Ty → Unit → Unit → Prop}
    (hQ : Q ns () ()) : Simulates c R ns s s' (modify f) (modify g) Q :=
  ⟨ns, List.Subset.refl ns, hfg, .ok hQ⟩

lemma mono (hx : Simulates c R ns s s' x y Q) {P : List Ty → α → β → Prop}
    (hP : ∀ ns' a b, ns ⊆ ns' → Q ns' a b → P ns' a b) : Simulates c R ns s s' x y P := by
  obtain ⟨ns', hns, hR, hresults⟩ := hx
  exact ⟨ns', hns, hR, hresults.mono fun a b _ hab => hP ns' a b hns hab⟩

lemma bind (hx : Simulates c R ns s s' x y Q) {f : α → ExceptT Fault (StateM σ) α'}
    {g : β → ExceptT Fault (StateM τ) β'}
    (hf : ∀ a b ns' s₁ s₁', x s = (.ok a, s₁) → ns ⊆ ns' → R ns' s₁ s₁' → Q ns' a b →
      Simulates c R ns' s₁ s₁' (f a) (g b) Q') : Simulates c R ns s s' (x >>= f) (y >>= g) Q' := by
  obtain ⟨ns', hns, hR, hresults⟩ := hx
  rcases hrun : x s with ⟨fault | a, s₁⟩ <;> rcases hrun' : y s' with ⟨fault' | b, s₁'⟩ <;>
    rw [hrun, hrun'] at hresults hR <;> cases hresults
  · rename_i halike
    refine ⟨ns', hns, ?_⟩
    rw [bind_of_error hrun, bind_of_error hrun']
    exact ⟨hR, .error halike⟩
  · rename_i hab
    unfold Simulates
    rw [bind_of_ok hrun, bind_of_ok hrun']
    obtain ⟨ns'', hns', hR', hresults'⟩ := hf a b ns' s₁ s₁' hrun hns hR hab
    exact ⟨ns'', fun t ht => hns' (hns ht), hR', hresults'⟩

lemma get {f : σ → ExceptT Fault (StateM σ) α} {g : τ → ExceptT Fault (StateM τ) β}
    (h : Simulates c R ns s s' (f s) (g s') Q) :
    Simulates c R ns s s' (MonadState.get >>= f) (MonadState.get >>= g) Q := by
  unfold Simulates
  rw [get_bind, get_bind]
  exact h

lemma attempt_bind (h : R ns s s') {a : Attempt α} {b : Attempt β} {P : α → β → Prop}
    (hab : RelatedResults c P a b)
    {f : α → ExceptT Fault (StateM σ) α'} {g : β → ExceptT Fault (StateM τ) β'}
    (hf : ∀ u v, a = .ok u → P u v → Simulates c R ns s s' (f u) (g v) Q') :
    Simulates c R ns s s' ((fun s => (a, s) : ExceptT Fault (StateM σ) α) >>= f)
      ((fun s' => (b, s') : ExceptT Fault (StateM τ) β) >>= g) Q' := by
  unfold Simulates
  rw [bind_apply, bind_apply]
  cases hab with
  | error halike => exact ⟨ns, List.Subset.refl ns, h, .error halike⟩
  | ok huv => exact hf _ _ rfl huv

/-- What only the first computation does, and does without fail. -/
lemma after_ok {a : α} {s₁ : σ} {f : α → ExceptT Fault (StateM σ) α'} {y : ExceptT Fault (StateM τ) β'}
    (hrun : x s = (.ok a, s₁)) (h : Simulates c R ns s₁ s' (f a) y Q') : Simulates c R ns s s' (x >>= f) y Q' := by
  unfold Simulates
  rw [bind_of_ok hrun]
  exact h

/-- What simulates an attempt also knows how the attempt came out. -/
lemma with_result {x : ExceptT Fault (StateM σ) α} {a : Attempt β} {R : List Ty → σ → Unit → Prop}
    (h : Simulates c R ns s () x a.stateless Q) :
    Simulates c R ns s () x a.stateless fun ns u v => a = .ok v ∧ Q ns u v := by
  obtain ⟨ns', hns, hR, hresults⟩ := h
  refine ⟨ns', hns, hR, ?_⟩
  change RelatedResults _ _ _ a at hresults ⊢
  generalize (x s).1 = r at hresults ⊢
  cases hresults with
  | error halike => exact .error halike
  | ok hQ => exact .ok ⟨rfl, hQ⟩

/-- The entries of a list are simulated one by one. -/
lemma mapM {P : List Ty → α → β → Prop} {f : α → ExceptT Fault (StateM σ) α'}
    {g : β → ExceptT Fault (StateM τ) β'} (hP : ∀ ns ns' a b, ns ⊆ ns' → P ns a b → P ns' a b)
    (hQ : ∀ ns ns' a b, ns ⊆ ns' → Q' ns a b → Q' ns' a b)
    (hf : ∀ a b ns s s', R ns s s' → P ns a b → Simulates c R ns s s' (f a) (g b) Q') {as : List α} {bs : List β}
    (h : R ns s s') (hab : List.Forall₂ (P ns) as bs) :
    Simulates c R ns s s' (as.mapM f) (bs.mapM g) fun ns' => List.Forall₂ (Q' ns') := by
  induction as generalizing bs ns s s' with
  | nil =>
    cases hab
    rw [List.mapM_nil, List.mapM_nil]
    exact pure h .nil
  | cons a as ih =>
    cases hab with
    | cons hhead htail =>
      rw [List.mapM_cons, List.mapM_cons]
      apply (hf a _ ns s s' h hhead).bind
      intro u v ns' s₁ s₁' _ hns hR huv
      apply (ih hR (htail.imp fun _ _ => hP ns ns' _ _ hns)).bind
      intro us vs ns'' s₂ s₂' _ hns' hR' huvs
      exact pure hR' (.cons (hQ ns' ns'' u v hns' huv) huvs)

lemma forM {P : List Ty → α → β → Prop} {f : α → ExceptT Fault (StateM σ) Unit}
    {g : β → ExceptT Fault (StateM τ) Unit} (hP : ∀ ns ns' a b, ns ⊆ ns' → P ns a b → P ns' a b)
    (hf : ∀ a b ns s s', R ns s s' → P ns a b → Simulates c R ns s s' (f a) (g b) fun _ _ _ => True)
    {as : List α} {bs : List β} (h : R ns s s') (hab : List.Forall₂ (P ns) as bs) :
    Simulates c R ns s s' (as.forM f) (bs.forM g) fun _ _ _ => True := by
  induction as generalizing bs ns s s' with
  | nil =>
    cases hab
    exact pure h trivial
  | cons a as ih =>
    cases hab with
    | cons hhead htail =>
      apply (hf a _ ns s s' h hhead).bind
      intro _ _ ns' s₁ s₁' _ hns hR _
      exact ih hR (htail.imp fun _ _ => hP ns ns' _ _ hns)

lemma foldlM {P : List Ty → α → β → Prop} {f : α' → α → ExceptT Fault (StateM σ) α'}
    {g : β' → β → ExceptT Fault (StateM τ) β'} (hP : ∀ ns ns' a b, ns ⊆ ns' → P ns a b → P ns' a b)
    (hf : ∀ u v a b ns s s', R ns s s' → Q' ns u v → P ns a b → Simulates c R ns s s' (f u a) (g v b) Q')
    {as : List α} {bs : List β} {u : α'} {v : β'} (h : R ns s s') (huv : Q' ns u v)
    (hab : List.Forall₂ (P ns) as bs) : Simulates c R ns s s' (as.foldlM f u) (bs.foldlM g v) Q' := by
  induction as generalizing bs ns s s' u v with
  | nil =>
    cases hab
    exact pure h huv
  | cons a as ih =>
    cases hab with
    | cons hhead htail =>
      rw [List.foldlM_cons, List.foldlM_cons]
      apply (hf u v a _ ns s s' h huv hhead).bind
      intro u' v' ns' s₁ s₁' _ hns hR huv'
      exact ih hR huv' (htail.imp fun _ _ => hP ns ns' _ _ hns)

lemma anyM {P : List Ty → α → β → Prop} {f : α → ExceptT Fault (StateM σ) Bool}
    {g : β → ExceptT Fault (StateM τ) Bool} (hP : ∀ ns ns' a b, ns ⊆ ns' → P ns a b → P ns' a b)
    (hf : ∀ a b ns s s', R ns s s' → P ns a b → Simulates c R ns s s' (f a) (g b) fun _ => Eq)
    {as : List α} {bs : List β} (h : R ns s s') (hab : List.Forall₂ (P ns) as bs) :
    Simulates c R ns s s' (as.anyM f) (bs.anyM g) fun _ => Eq := by
  induction as generalizing bs ns s s' with
  | nil =>
    cases hab
    exact pure h rfl
  | cons a as ih =>
    cases hab with
    | cons hhead htail =>
      apply (hf a _ ns s s' h hhead).bind
      rintro found _ ns' s₁ s₁' _ hns hR rfl
      cases found with
      | true => exact pure hR rfl
      | false => exact ih hR (htail.imp fun _ _ => hP ns ns' _ _ hns)

/-- Runs that simulate each other at every depth do so if the depth is not limited. Either there is a depth that
is enough on both sides, or both sides go too deep. -/
theorem unlimited {run : Nat → Build α} {run' : Nat → Build β} {R : List Ty → Lattice → Lattice → Prop}
    {l l' : Lattice} (hrun : Build.MonotoneInDepth run) (hrun' : Build.MonotoneInDepth run') (h : R ns l l')
    (hsimulates : ∀ depth, Simulates c R ns l l' (run depth) (run' depth) Q) :
    Simulates c R ns l l' (Build.unlimited run) (Build.unlimited run') Q := by
  by_cases hdeep : ∃ n, (run n l).1 ≠ .error .tooDeep
  · obtain ⟨n, hn⟩ := hdeep
    obtain ⟨ns', hns, hR, hresults⟩ := hsimulates n
    have hn' : (run' n l').1 ≠ .error .tooDeep := fun h => hn (hresults.tooDeep_iff.mpr h)
    unfold Simulates
    rw [hrun.unlimited_eq hn, hrun'.unlimited_eq hn']
    exact ⟨ns', hns, hR, hresults⟩
  · simp only [not_exists, not_not] at hdeep
    have hdeep' : ∀ n, (run' n l').1 = .error .tooDeep := by
      intro n
      obtain ⟨ns', -, -, hresults⟩ := hsimulates n
      exact hresults.tooDeep_iff.mp (hdeep n)
    unfold Simulates
    rw [Build.unlimited_of_forall hdeep, Build.unlimited_of_forall hdeep']
    exact ⟨ns, List.Subset.refl ns, h, .error (c.refl _)⟩

end Simulates

end StructuralTypes
