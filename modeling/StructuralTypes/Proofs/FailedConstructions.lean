import StructuralTypes.Proofs.EdgeTruth
import StructuralTypes.Proofs.SimulatedRuns

/-!
# Failed constructions

A construction that fails may have taken serial numbers and left nodes behind that nothing refers to. A
session in which the step is left out embeds into the session that went through it, so all other steps come
to the same.
-/

namespace StructuralTypes

/-- A step, whether it fails or not, that only adds to the lattice of the session. -/
def Adding {α : Type} (x : Stepping α) : Prop :=
  ∀ s, ∃ l', s.lattice.Extended l' ∧ (x s).2 = { s with lattice := l' }

namespace Adding

variable {α β : Type}

lemma attempt (a : Attempt α) : Adding (Stepping.ofAttempt a) := fun s => ⟨s.lattice, .refl _, rfl⟩

lemma pure (a : α) : Adding (Pure.pure a) := fun s => ⟨s.lattice, .refl _, rfl⟩

lemma ofBuild {x : Build α} (hx : Extending x) : Adding (Stepping.ofBuild x) := fun s => ⟨_, hx s.lattice, rfl⟩

lemma bind {x : Stepping α} {f : α → Stepping β} (hx : Adding x) (hf : ∀ a s s₁, x s = (.ok a, s₁) → Adding (f a)) :
    Adding (x >>= f) := by
  intro s
  obtain ⟨l₁, hl₁, hs₁⟩ := hx s
  rcases hrun : x s with ⟨fault | a, s₁⟩ <;> rw [hrun] at hs₁
  · rw [bind_of_error hrun]
    exact ⟨l₁, hl₁, hs₁⟩
  · rw [bind_of_ok hrun]
    obtain ⟨l₂, hl₂, hs₂⟩ := hf a s s₁ hrun s₁
    obtain rfl : s₁ = { s with lattice := l₁ } := hs₁
    exact ⟨l₂, hl₁.trans hl₂, hs₂⟩

lemma get : Adding (MonadState.get : Stepping Session) := fun s => ⟨s.lattice, .refl _, rfl⟩

lemma resolve (name : String) : Adding (Stepping.resolve name) := get.bind fun _ _ _ _ => attempt _

/-- A new type as the result. -/
lemma type {x : Build Ty} (hx : Extending x) : Adding (do return Referent.type (← Stepping.ofBuild x)) :=
  (ofBuild hx).bind fun _ _ _ _ => pure _

end Adding

lemma extending_refinement {s : Session} {f : Refinement} {g : Referent → Build Ty} (h : f.resolve s = .ok g)
    (r : Referent) : Extending (g r) := by
  cases f with
  | operator op left =>
    obtain ⟨l, -, ⟨⟩⟩ := ok_of_attempt h
    exact extending_compound op l r
  | without left =>
    obtain ⟨l, -, ⟨⟩⟩ := ok_of_attempt h
    exact extending_without l r
  | container outer extractor =>
    obtain ⟨o, -, ⟨⟩⟩ := ok_of_attempt h
    exact extending_container o extractor r
  | suchThat pred =>
    cases h
    exact extending_suchThat pred r
  | withAlias name =>
    cases h
    exact extending_withAlias name r
  | withoutAlias =>
    cases h
    exact extending_withoutAlias r
  | withMetadata names? docs? =>
    cases h
    exact extending_withMetadata names? docs? r
  | arrayOf =>
    cases h
    exact extending_container _ _ r
  | mappingOf =>
    cases h
    exact extending_container _ _ r
  | optional =>
    cases h
    exact extending_compound _ _ r

/-- Constructions only add to the lattice, apart from those that work out edges or number a plain value. -/
lemma adding_construct {k : Construction} (hk : k.isPlain = true) (hplain : ∀ written, k ≠ .plain written) :
    Adding (Stepping.construct k) := by
  cases k with
  | edge => cases hk
  | plain written => exact absurd rfl (hplain written)
  | predicate pred name? => exact .type (extending_predicate pred name?)
  | bare => exact .type extending_bare
  | fetch of => exact .resolve of
  | refine refinement operand =>
    apply Adding.get.bind
    intro s _ _ _
    apply (Adding.attempt _).bind
    intro f s' _ hf
    have hf' : refinement.resolve s = .ok f := congrArg Prod.fst hf
    apply (Adding.resolve operand).bind
    intro r _ _ _
    exact .type (extending_refinement hf' r)
  | compose name base refinements =>
    apply (Adding.resolve base).bind
    intro r _ _ _
    apply Adding.get.bind
    intro s _ _ _
    apply (Adding.attempt _).bind
    intro fs s' _ hfs
    have hfs' : refinements.mapM (fun f => f.resolve s) = .ok fs := congrArg Prod.fst hfs
    have hextending : ∀ g ∈ fs, ∀ r, Extending (g r) := by
      intro g hg r
      obtain ⟨f, -, hf⟩ := exists_related_left (forall₂_of_mapM hfs') hg
      exact extending_refinement hf r
    exact .type (extending_compose name r hextending)
  | operand of index =>
    apply (Adding.resolve of).bind
    intro r _ _ _
    apply (Adding.attempt _).bind
    intro ts _ _ _
    exact (Adding.attempt _).bind fun _ _ _ _ => .pure _

/-- A construction that fails has only added to the lattice. -/
lemma extended_of_failed {k : Construction} (hk : k.isPlain = true) {s s₁ : Session} {fault : Fault}
    (hrun : Stepping.construct k s = (.error fault, s₁)) :
    ∃ l', s.lattice.Extended l' ∧ s₁ = { s with lattice := l' } := by
  by_cases hplain : ∃ written, k = .plain written
  · obtain ⟨written, rfl⟩ := hplain
    -- the handle of a plain value is only taken once the value is there
    cases written with
    | ok v => cases hrun
    | error fault' =>
      cases hrun
      exact ⟨s.lattice, .refl _, rfl⟩
  · obtain ⟨l', hl', hs⟩ := adding_construct hk (fun written h => hplain ⟨written, h⟩) s
    rw [hrun] at hs
    exact ⟨l', hl', hs⟩

lemma construct_of_failed {I : Interpretation} {bind? : Option String} {k : Construction} {s s₁ : Session}
    {fault : Fault} (hrun : Stepping.perform I (.construct bind? k) s = (.error fault, s₁)) :
    Stepping.construct k s = (.error fault, s₁) := by
  rw [Stepping.perform] at hrun
  rcases hk : Stepping.construct k s with ⟨fault' | r, s₂⟩
  · rw [bind_of_error hk] at hrun
    cases hrun
    rfl
  · rw [bind_of_ok hk] at hrun
    cases bind? <;> cases r <;> cases hrun

def Outcome.isFailure (o : Outcome) : Bool :=
  match o.result with
  | .ok _ => false
  | .error _ => true

lemma exists_fault_of_isFailure {o : Outcome} (h : o.isFailure = true) : ∃ fault, o.result = .error fault := by
  unfold Outcome.isFailure at h
  cases hresult : o.result with
  | ok a =>
    rw [hresult] at h
    cases h
  | error fault => exact ⟨fault, rfl⟩

section Traces

variable {I : Interpretation} {untouched : Prop} {ns : List Ty} {s : Session} {bind? : Option String}
  {k : Construction}

/-- A session embeds into the session after a construction that failed. -/
lemma Session.Known.embedding_failed (h : s.Known untouched ns) (hk : k.isPlain = true)
    (hfailed : (s.step I (.construct bind? k)).1.isFailure = true) :
    ∃ ρ, SessionEmbedding (.byMessage untouched) True ρ ns s.fresh (s.step I (.construct bind? k)).2.fresh := by
  obtain ⟨fault, hfault⟩ := exists_fault_of_isFailure hfailed
  have hrun : Stepping.perform I (.construct bind? k) s.fresh =
      (.error fault, (s.step I (.construct bind? k)).2) := Prod.ext hfault rfl
  obtain ⟨l', hl', hafter⟩ := extended_of_failed hk (construct_of_failed hrun)
  have hself : SessionEmbedding (.byMessage untouched) True .refl ns s.fresh s.fresh :=
    Session.Known.embedding_self h.fresh
  have hstored : ∀ t ∈ ns, ∀ d, l'.stored? d t.id = s.lattice.stored? d t.id := by
    intro t ht d
    unfold Lattice.stored?
    rw [hl'.entry_eq _ (h.enumeration.id_lt ht)]
    rfl
  have hlattice := hself.lattice.resume hl'.size_le hl'.serial_le
    (fun t ht d rs hrs => (hstored t ht d).trans hrs) (fun t ht _ d hnone => (hstored t ht d).trans hnone)
  rw [hafter]
  exact ⟨_, hself.resume hl'.size_le hl'.serial_le hlattice⟩

/-- From any session on whose types are nodes of its lattice. -/
lemma Session.Known.run_failed {before after : List Step} (h : s.Known False ns) (hk : k.isPlain = true)
    (hfailed : (s.run I (before ++ .construct bind? k :: after))[before.length]?.any Outcome.isFailure = true) :
    List.Forall₂ Outcome.Alike (s.run I (before ++ after))
      ((s.run I (before ++ .construct bind? k :: after)).eraseIdx before.length) := by
  induction before generalizing ns s with
  | nil =>
    -- the rest of the session runs on a lattice that the first one embeds into
    have hstep : (s.step I (.construct bind? k)).1.isFailure = true := hfailed
    obtain ⟨ρ, hembed⟩ := h.embedding_failed hk hstep
    exact hembed.run False.elim
  | cons st before ih =>
    -- the steps before are the same steps of the same session
    have hnext : ∃ ns', (s.step I st).2.Known False ns' := h.step False.elim
    obtain ⟨ns', h'⟩ := hnext
    exact .cons (.refl _) (ih h' hfailed)

end Traces

/-- Leaving out a construction that fails changes the outcome of no other step. -/
theorem failed_construction_leaves_no_trace {I : Interpretation} {before after : List Step} {bind? : Option String}
    {k : Construction} (hk : k.isPlain = true)
    (hfailed :
      (Session.initial.run I (before ++ .construct bind? k :: after))[before.length]?.any Outcome.isFailure = true) :
    List.Forall₂ Outcome.Alike (Session.initial.run I (before ++ after))
      ((Session.initial.run I (before ++ .construct bind? k :: after)).eraseIdx before.length) := by
  obtain ⟨ns, h⟩ := Session.initial_known False
  exact h.run_failed hk hfailed

/-- A composition that fails at its second function, after the first one has built a type. -/
theorem failed_composition_leaves_no_trace :
    let I := constantInterpretation true
    let before : List Step := [.construct (some "A") (.predicate (.named "f") (some "A")),
      .construct (some "five") (.plain (.ok (.integer 5)))]
    let failing : Step := .construct none (.compose "C" "A" [.suchThat (.named "g"), .operator .union "five"])
    let after : List Step := [.construct (some "B") (.refine (.operator .union "Null") "A"),
      .ask (.supersedes "B" "A"), .ask (.describe "B")]
    (Session.initial.run I (before ++ failing :: after))[2]?.any Outcome.isFailure = true ∧
      List.Forall₂ Outcome.Alike (Session.initial.run I (before ++ after))
        ((Session.initial.run I (before ++ failing :: after)).eraseIdx 2) := by
  intro I before failing after
  have hfailed : (Session.initial.run I (before ++ failing :: after))[2]?.any Outcome.isFailure = true := by
    decide +kernel
  exact ⟨hfailed, failed_construction_leaves_no_trace rfl hfailed⟩

end StructuralTypes
