import StructuralTypes.Proofs.EdgeTruth
import StructuralTypes.Proofs.SearchesOnDemand
import StructuralTypes.Proofs.SimulatedRuns

/-!
# Transparent edges

Questions about edges make nodes, take serial numbers and store what was worked out, and none of that is visible
in the answers to other steps. A session in which no such question is asked embeds both into the session with
some questions and into the session with more of them. What these answer is predicted from the session that
embeds into them.
-/

namespace StructuralTypes

section Extensions

variable {σ α β : Type} {place : σ → Lattice} {ns : List Ty} {s : σ}

/-- A computation extends the lattice on demand, whether it fails or not. -/
def ExtendsOnDemand (place : σ → Lattice) (ns : List Ty) (s : σ) (x : ExceptT Fault (StateM σ) α)
    (Q : List Ty → α → Prop) : Prop :=
  ∃ ns', DemandExtension (place s) ns ns' (place (x s).2) () ∧ ∀ a, (x s).1 = .ok a → Q ns' a

namespace ExtendsOnDemand

variable {x : ExceptT Fault (StateM σ) α} {Q : List Ty → α → Prop} {P : List Ty → β → Prop}

/-- A computation that leaves the lattice as it is. -/
lemma of_eq (h : NodeEnumeration True (place s) ns) (hx : place (x s).2 = place s)
    (hQ : ∀ a, (x s).1 = .ok a → Q ns a) : ExtendsOnDemand place ns s x Q := by
  refine ⟨ns, ?_, hQ⟩
  rw [hx]
  exact .refl h

lemma bind {f : α → ExceptT Fault (StateM σ) β} (hx : ExtendsOnDemand place ns s x Q)
    (hf : ∀ a ns' s₁, x s = (.ok a, s₁) → ns ⊆ ns' → NodeEnumeration True (place s₁) ns' → Q ns' a →
      ExtendsOnDemand place ns' s₁ (f a) P) : ExtendsOnDemand place ns s (x >>= f) P := by
  obtain ⟨ns', hextension, hQ⟩ := hx
  rcases hrun : x s with ⟨fault | a, s₁⟩ <;> rw [hrun] at hextension hQ
  · refine ⟨ns', ?_, ?_⟩ <;> rw [bind_of_error hrun]
    · exact hextension
    · intro b hb
      cases hb
  · obtain ⟨ns'', hextension', hP⟩ := hf a ns' s₁ hrun hextension.nodes hextension.enumeration (hQ a rfl)
    refine ⟨ns'', ?_, ?_⟩ <;> rw [bind_of_ok hrun]
    · exact hextension.trans hextension'
    · exact hP

lemma foldlM {f : β → α → ExceptT Fault (StateM σ) β} {as : List α} {K : List Ty → α → Prop}
    (hK : ∀ ns ns' a, ns ⊆ ns' → K ns a → K ns' a)
    (hf : ∀ b, ∀ a ∈ as, ∀ ns s, NodeEnumeration True (place s) ns → K ns a →
      ExtendsOnDemand place ns s (f b a) fun _ _ => True)
    (h : NodeEnumeration True (place s) ns) (has : ∀ a ∈ as, K ns a) (b : β) :
    ExtendsOnDemand place ns s (as.foldlM f b) fun _ _ => True := by
  induction as generalizing ns s b with
  | nil => exact of_eq h rfl fun _ _ => trivial
  | cons a as ih =>
    obtain ⟨ha, has⟩ := List.forall_mem_cons.mp has
    rw [List.foldlM_cons]
    apply (hf b a List.mem_cons_self ns s h ha).bind
    intro b' ns' s₁ _ hns' h' _
    refine ih (fun b c hc => hf b c (List.mem_cons_of_mem a hc)) h' ?_ b'
    exact fun c hc => hK ns ns' c hns' (has c hc)

end ExtendsOnDemand

variable {l : Lattice}

lemma extendsOnDemand_edges (h : NodeEnumeration True l ns) {r : Referent} (hr : r.Known ns) (d : Direction) :
    ExtendsOnDemand (fun l => l) ns l (r.edges d) fun ns rs => ∀ r ∈ rs, r.Known ns := by
  cases r with
  | plain handle v => exact .of_eq h rfl fun _ ha => by cases ha
  | type t =>
    obtain ⟨ns', _, h', hresults⟩ := computes_edges h (.refl h) hr d
    refine ⟨ns', h', fun rs hrs => ?_⟩
    have hok : (t.edges d l).1 = .ok rs := hrs
    rw [hok] at hresults
    generalize (Attempt.stateless (l.predicted d t) ()).1 = a at hresults
    cases hresults with
    | ok hmatches => exact known_of_matchesPrediction hmatches

lemma extendsOnDemand_explore (d : Direction) (depth : Nat) (g : Reach) {r : Referent} (h : NodeEnumeration True l ns)
    (hr : r.Known ns) : ExtendsOnDemand (fun l => l) ns l (Build.explore d depth g r) fun _ _ => True := by
  induction depth generalizing ns l g r with
  | zero => exact .of_eq h rfl fun _ _ => trivial
  | succ depth ih =>
    have hhash : ExtendsOnDemand (fun l => l) ns l (Build.ofAttempt r.checkHashable) fun _ _ => True :=
      .of_eq h rfl fun _ _ => trivial
    unfold Build.explore
    apply hhash.bind
    intro _ ns₁ l₁ _ hns₁ h₁ _
    by_cases hmet : g.identities.contains r.identity = true
    · rw [if_pos hmet]
      exact .of_eq h₁ rfl fun _ _ => trivial
    · rw [if_neg hmet]
      apply (extendsOnDemand_edges h₁ (hr.mono hns₁) d).bind
      intro nodes ns₂ l₂ _ _ h₂ hnodes
      refine ExtendsOnDemand.foldlM (K := Referent.Known) (fun _ _ _ hns hr => hr.mono hns) ?_ h₂ ?_ _
      · exact fun g r _ ns l h hr => ih g h hr
      · exact fun r hr => hnodes r (List.mem_reverse.mp hr)

lemma extendsOnDemand_reachable (d : Direction) {r : Referent} (h : NodeEnumeration True l ns) (hr : r.Known ns) :
    ExtendsOnDemand (fun l => l) ns l (Build.reachable d r) fun _ _ => True := by
  refine Build.unlimited_induction (P := fun outcome => ∃ ns', DemandExtension l ns ns' outcome.2 () ∧
    ∀ g, outcome.1 = .ok g → True) (fun depth => extendsOnDemand_explore d depth [] h hr) ?_
  exact ⟨ns, .refl h, fun _ _ => trivial⟩

/-- The check of a lattice only works out edges. -/
lemma extendsOnDemand_checkLattice {w : Workbench} (h : NodeEnumeration True w.lattice ns) {root : Referent}
    (hroot : root.Known ns) : ExtendsOnDemand Workbench.lattice ns w (Work.checkLattice root) fun _ _ => True := by
  have hignores : ∀ {γ : Type} {x : Work γ} {ns : List Ty} {w : Workbench}, IgnoresLattice x →
      NodeEnumeration True w.lattice ns →
      ExtendsOnDemand Workbench.lattice ns w x fun _ _ => True := by
    intro γ x ns w hx h
    exact .of_eq h (congrArg (fun p => p.2.lattice) (hx w w.lattice)) fun _ _ => trivial
  have hdirection : ∀ (d : Direction) {ns : List Ty} {w : Workbench}, NodeEnumeration True w.lattice ns →
      root.Known ns →
      ExtendsOnDemand Workbench.lattice ns w (Work.checkDirection root d) fun _ _ => True := by
    intro d ns w h hroot
    have hreach : ExtendsOnDemand Workbench.lattice ns w (Work.ofBuild (Build.reachable d root)) fun _ _ => True :=
      extendsOnDemand_reachable d h hroot
    apply hreach.bind
    intro g ns₁ w₁ _ _ h₁ _
    refine hignores ?_ h₁
    refine (IgnoresLattice.attempt _).bind fun _ => (IgnoresLattice.inform _).bind fun _ => ?_
    exact .forM (fun _ => (IgnoresLattice.attempt _).bind fun _ => .complain _) _
  apply (hdirection .subsets h hroot).bind
  intro _ ns₁ w₁ _ hns₁ h₁ _
  exact hdirection .supersets h₁ (hroot.mono hns₁)

end Extensions

section Probes

variable {I : Interpretation} {α β : Type}

/-- A step that changes neither the names of the session nor what they denote. -/
def KeepsNames (x : Stepping α) : Prop :=
  ∀ s, (x s).2.prelude = s.prelude ∧ (x s).2.bindings = s.bindings ∧ (x s).2.nextHandle = s.nextHandle

namespace KeepsNames

lemma attempt (a : Attempt α) : KeepsNames (Stepping.ofAttempt a) := fun _ => ⟨rfl, rfl, rfl⟩

lemma pure (a : α) : KeepsNames (Pure.pure a) := fun _ => ⟨rfl, rfl, rfl⟩

lemma get : KeepsNames (MonadState.get : Stepping Session) := fun _ => ⟨rfl, rfl, rfl⟩

lemma ofBuild (x : Build α) : KeepsNames (Stepping.ofBuild x) := fun _ => ⟨rfl, rfl, rfl⟩

lemma ofWork (report : Report) (x : Work α) : KeepsNames (Stepping.ofWork report x) := fun _ => ⟨rfl, rfl, rfl⟩

lemma bind {x : Stepping α} {f : α → Stepping β} (hx : KeepsNames x) (hf : ∀ a, KeepsNames (f a)) :
    KeepsNames (x >>= f) := by
  intro s
  have hkept := hx s
  rcases hrun : x s with ⟨fault | a, s₁⟩ <;> rw [hrun] at hkept
  · rw [bind_of_error hrun]
    exact hkept
  · rw [bind_of_ok hrun]
    obtain ⟨hprelude, hbindings, hhandle⟩ := hf a s₁
    exact ⟨hprelude.trans hkept.1, hbindings.trans hkept.2.1, hhandle.trans hkept.2.2⟩

lemma resolve (name : String) : KeepsNames (Stepping.resolve name) := get.bind fun _ => attempt _

lemma putReport (name : String) (report : Report) :
    KeepsNames (modify fun s => { s with reports := putNamed name report s.reports } : Stepping Unit) :=
  fun _ => ⟨rfl, rfl, rfl⟩

lemma withReport (name : String) (work : Work Unit) : KeepsNames (Stepping.withReport name work) := by
  apply get.bind
  intro s
  apply (attempt _).bind
  intro report
  apply (ofWork report work).bind
  intro result
  apply (putReport name result.2).bind
  intro _
  exact (attempt _).bind fun _ => pure _

end KeepsNames

/-- Questions about edges, and what it takes to ask them: whether one type contains another, what the edges
of a type are, and checks with the reports they need. -/
def Step.isProbe : Step → Bool
  | .ask (.supersedes ..) | .ask (.edges ..) | .check .. | .newReport .. => true
  | _ => false

lemma keepsNames_probe {st : Step} (hst : st.isProbe = true) : KeepsNames (Stepping.perform I st) := by
  cases st with
  | ask q =>
    cases q with
    | supersedes sup sub =>
      apply (KeepsNames.resolve sup).bind
      intro above
      apply (KeepsNames.resolve sub).bind
      intro below
      exact (KeepsNames.ofBuild _).bind fun _ => .pure _
    | edges of d =>
      apply (KeepsNames.resolve of).bind
      intro r
      apply (KeepsNames.ofBuild _).bind
      intro nodes
      apply KeepsNames.get.bind
      intro s
      exact (KeepsNames.attempt _).bind fun _ => .pure _
    | _ => cases hst
  | check of report => exact (KeepsNames.resolve of).bind fun _ => .withReport report _
  | newReport name verbose cap? => exact (KeepsNames.putReport name _).bind fun _ => .pure _
  | _ => cases hst

variable {ns : List Ty} {s : Session}

lemma Session.Known.resolve_known (h : s.Known True ns) {name : String} {r : Referent}
    (hr : s.resolve name = .ok r) : r.Known ns := by
  have hself : SessionEmbedding .exact False .refl ns s s := Session.Known.embedding_self h
  have hresolved := related_resolve hself name
  rw [hr] at hresolved
  cases hresolved with
  | ok hrenumbers => exact hrenumbers.1

lemma extendsOnDemand_resolve (h : s.Known True ns) (name : String) {f : Referent → Stepping β} {P : List Ty → β → Prop}
    (hf : ∀ r, r.Known ns → ExtendsOnDemand Session.lattice ns s (f r) P) :
    ExtendsOnDemand Session.lattice ns s (Stepping.resolve name >>= f) P := by
  have hrun : Stepping.resolve name s = (s.resolve name, s) := rfl
  cases hr : s.resolve name with
  | error fault =>
    rw [hr] at hrun
    refine .of_eq h.enumeration ?_ ?_ <;> rw [bind_of_error hrun]
    intro b hb
    cases hb
  | ok r =>
    rw [hr] at hrun
    unfold ExtendsOnDemand
    rw [bind_of_ok hrun]
    exact hf r (h.resolve_known hr)

lemma extendsOnDemand_probe (h : s.Known True ns) {st : Step} (hst : st.isProbe = true) :
    ExtendsOnDemand Session.lattice ns s (Stepping.perform I st) fun _ _ => True := by
  have hrest : ∀ {γ : Type} {x : Stepping γ} {ns : List Ty} {s : Session}, NodeEnumeration True s.lattice ns →
      (x s).2.lattice = s.lattice → ExtendsOnDemand Session.lattice ns s x fun _ _ => True :=
    fun h hx => .of_eq h hx fun _ _ => trivial
  cases st with
  | ask q =>
    cases q with
    | supersedes sup sub =>
      refine extendsOnDemand_resolve h sup fun above habove => extendsOnDemand_resolve h sub fun below hbelow => ?_
      obtain ⟨-, ns', hextension⟩ := supersedes_verdict h.enumeration habove hbelow
      have hsearch : ExtendsOnDemand Session.lattice ns s (Stepping.ofBuild (Build.supersedes above below))
          fun _ _ => True :=
        ⟨ns', hextension, fun _ _ => trivial⟩
      exact hsearch.bind fun _ ns₁ s₁ _ _ h₁ _ => hrest h₁ rfl
    | edges of d =>
      refine extendsOnDemand_resolve h of fun r hr => ?_
      have hedges : ExtendsOnDemand Session.lattice ns s (Stepping.ofBuild (r.edges d))
          fun ns rs => ∀ r ∈ rs, r.Known ns :=
        extendsOnDemand_edges h.enumeration hr d
      apply hedges.bind
      intro nodes ns₁ s₁ _ _ h₁ _
      refine hrest h₁ ?_
      rw [get_bind]
      cases hviews : nodes.mapM s₁.view <;> rfl
    | _ => cases hst
  | check of report =>
    refine extendsOnDemand_resolve h of fun r hr => ?_
    apply (hrest h.enumeration rfl : ExtendsOnDemand _ ns s (get : Stepping Session) _).bind
    intro _ ns₁ s₁ _ hns₁ h₁ _
    apply (hrest h₁ rfl : ExtendsOnDemand _ ns₁ s₁ (Stepping.ofAttempt _) _).bind
    intro found ns₂ s₂ _ hns₂ h₂ _
    have hwork : ExtendsOnDemand Session.lattice ns₂ s₂ (Stepping.ofWork found (Work.checkLattice r))
        fun _ _ => True := by
      obtain ⟨ns₃, hextension, -⟩ := extendsOnDemand_checkLattice
        (w := ⟨s₂.lattice, found, s₂.console, s₂.picks, s₂.calls⟩) h₂
        ((hr.mono hns₁).mono hns₂)
      exact ⟨ns₃, hextension, fun _ _ => trivial⟩
    apply hwork.bind
    intro result ns₃ s₃ _ _ h₃ _
    refine hrest h₃ ?_
    rcases result with ⟨_ | _, _⟩ <;> rfl
  | newReport name verbose cap? => exact hrest h.enumeration rfl
  | _ => cases hst

end Probes

section SessionExtension

variable {I : Interpretation} {ρ : Renumbering} {ns ns' : List Ty} {s s' : Session}

/-- The second session has the same names as the first one, over a lattice that may have been extended on
demand. -/
structure SessionExtension (s s' : Session) : Prop where
  embedded : ∃ ρ ns, SessionEmbedding .exact False ρ ns s.fresh s'.fresh
  ordered : ∃ ns, s'.Known True ns

lemma DemandExtension.size_le {l l' : Lattice} (h : NodeEnumeration True l ns) (h' : DemandExtension l ns ns' l' ()) :
    l.entries.size ≤ l'.entries.size := by
  by_contra hlt
  have hpos : l.entries.size - 1 < ns.length := by
    have hlength := h.length
    omega
  have hget := List.getElem?_eq_getElem hpos
  have hid := h.id_eq _ _ hget
  have hbound := h'.enumeration.id_lt (h'.nodes (List.mem_of_getElem? hget))
  omega

/-- A question about edges extends the second session and leaves the first one as it is. -/
lemma SessionExtension.probe (h : SessionExtension s s') {st : Step} (hst : st.isProbe = true) :
    SessionExtension s (s'.step I st).2 := by
  obtain ⟨ρ, ns, hembed⟩ := h.embedded
  obtain ⟨ns', hordered⟩ := h.ordered
  obtain ⟨ns'', hextension, -⟩ := extendsOnDemand_probe (I := I) hordered.fresh hst
  obtain ⟨hprelude, hbindings, hhandle⟩ := keepsNames_probe (I := I) hst s'.fresh
  have hsize : ρ.id s.lattice.entries.size ≤ (s'.step I st).2.lattice.entries.size := by
    rw [show ρ.id s.lattice.entries.size = s'.lattice.entries.size from hembed.lattice.id_size]
    exact DemandExtension.size_le hordered.enumeration hextension
  have hserial : ρ.serial s.lattice.nextSerial ≤ (s'.step I st).2.lattice.nextSerial := by
    rw [show ρ.serial s.lattice.nextSerial = s'.lattice.nextSerial from hembed.lattice.serial_next]
    exact hextension.serials
  have hlattice := hembed.lattice.resume hsize hserial (fun t _ d rs hrs => hextension.grows d _ rs hrs) (by
    -- the edges of a type that is no container are always stored
    intro t ht hstrict d hnone
    have hleaf : t.isContainer = false := by
      cases hcontainer : t.isContainer with
      | true => exact absurd (hstrict hcontainer) id
      | false => rfl
    obtain ⟨us, hus, -⟩ := (hembed.lattice.enumeration.untouched trivial).settled t ht hleaf d
    rw [hembed.lattice.stored t ht d _ hus] at hnone
    cases hnone)
  have hresumed := hembed.resume hsize hserial hlattice
  refine ⟨⟨_, ns, hlattice, ?_, hresumed.prelude_known, ?_, hresumed.bindings_known, False.elim, False.elim, ?_, rfl,
    rfl⟩, ns'', hextension.enumeration, ?_, ?_⟩
  · exact Eq.trans hprelude hresumed.prelude
  · exact Eq.trans hbindings hresumed.bindings
  · exact Eq.trans hhandle hresumed.nextHandle
  · rw [show (s'.step I st).2.prelude = s'.prelude from hprelude]
    exact hordered.prelude.mono hextension.nodes
  · rw [show (s'.step I st).2.bindings = s'.bindings from hbindings]
    exact fun b hb => (hordered.bindings b hb).mono hextension.nodes

/-- Steps that need no edge that is not there yet. -/
def Step.isPlain : Step → Bool
  | .construct _ k => k.isPlain
  | .ask q => q.isPlain
  | _ => false

lemma stepSimulates_plain {c : Comparison} {strict : Prop} (h : SessionEmbedding c strict ρ ns s s') {st : Step}
    (hst : st.isPlain = true) :
    StepSimulates c strict ρ ns s s' (Stepping.perform I st) (Stepping.perform I st) fun _ => Eq := by
  cases st with
  | construct bind? k => exact stepSimulates_bind (stepSimulates_construct h hst) bind?
  | ask q => exact stepSimulates_ask h hst
  | _ => cases hst

lemma Outcome.eq_of_fields {o o' : Outcome} (hresult : o.result = o'.result) (hconsole : o.console = o'.console)
    (hcalls : o.calls = o'.calls) : o = o' := by
  cases o
  cases o'
  cases hresult
  cases hconsole
  cases hcalls
  rfl

/-- A plain step comes to the same on both sides, and both sides go on. -/
lemma SessionExtension.step (h : SessionExtension s s') {st : Step} (hst : st.isPlain = true) :
    (s'.step I st).1 = (s.step I st).1 ∧ SessionExtension (s.step I st).2 (s'.step I st).2 := by
  obtain ⟨ρ, ns, hembed⟩ := h.embedded
  obtain ⟨ns', hordered⟩ := h.ordered
  have hself : SessionEmbedding .exact False .refl ns' s'.fresh s'.fresh := Session.Known.embedding_self hordered.fresh
  obtain ⟨ns₁, _, hembed', hresults⟩ := stepSimulates_plain (I := I) hembed hst
  obtain ⟨ns₂, _, hself', _⟩ := stepSimulates_plain (I := I) hself hst
  have hresult : (s'.step I st).1.result = (s.step I st).1.result := (eq_of_relatedResults hresults).symm
  refine ⟨?_, ⟨ρ, ns₁, hembed'.fresh⟩, ns₂, hself'.known⟩
  exact Outcome.eq_of_fields hresult hembed'.console hembed'.calls

/-- The predicted answer to the question whether one type contains another. -/
def Session.predictAnswer (s : Session) (sup sub : String) : Attempt Answer := do
  let above ← s.resolve sup
  let below ← s.resolve sub
  return .supersedes (← s.lattice.verdict (above.rank + below.rank + 1) above below)

lemma ask_supersedes (s : Session) (sup sub : String) :
    ∃ l, Stepping.ask I (.supersedes sup sub) s =
      (do
        let above ← s.resolve sup
        let below ← s.resolve sub
        return .supersedes (← (Build.supersedes above below s.lattice).1), { s with lattice := l }) := by
  have hresolve : ∀ name x, s.resolve name = x → Stepping.resolve name s = (x, s) := by
    rintro name _ rfl
    rfl
  rw [Stepping.ask]
  cases hsup : s.resolve sup with
  | error fault =>
    rw [bind_of_error (hresolve sup _ hsup)]
    exact ⟨s.lattice, rfl⟩
  | ok above =>
    rw [bind_of_ok (hresolve sup _ hsup)]
    cases hsub : s.resolve sub with
    | error fault =>
      rw [bind_of_error (hresolve sub _ hsub)]
      exact ⟨s.lattice, rfl⟩
    | ok below =>
      rw [bind_of_ok (hresolve sub _ hsub)]
      have hof : Stepping.ofBuild (Build.supersedes above below) s = ((Build.supersedes above below s.lattice).1,
        { s with lattice := (Build.supersedes above below s.lattice).2 }) := rfl
      refine ⟨(Build.supersedes above below s.lattice).2, ?_⟩
      change _ = ((Build.supersedes above below s.lattice).1 >>= fun answer => Except.ok (Answer.supersedes answer), _)
      cases hanswer : (Build.supersedes above below s.lattice).1 with
      | error fault =>
        rw [hanswer] at hof
        rw [bind_of_error hof]
        rfl
      | ok answer =>
        rw [hanswer] at hof
        rw [bind_of_ok hof]
        rfl

/-- The verdict is the same on both sides. -/
lemma LatticeEmbedding.verdict_eq {l l' : Lattice} (h : LatticeEmbedding .exact False ρ ns l l')
    (h' : NodeEnumeration True l' ns') {sup sub : Referent} (hsup : sup.Known ns) (hsub : sub.Known ns)
    (hsup' : (sup.renumber ρ).Known ns') (hsub' : (sub.renumber ρ).Known ns') :
    l'.verdict ((sup.renumber ρ).rank + (sub.renumber ρ).rank + 1) (sup.renumber ρ) (sub.renumber ρ) =
      l.verdict (sup.rank + sub.rank + 1) sup sub := by
  have hspanned : ∀ {r : Referent} {ns : List Ty}, r.Known ns → r.Spanned ns := by
    intro r ns hr
    cases r with
    | type t => exact .node hr
    | plain => trivial
  have hleaves : l.SameLeafEdges ρ ns l' := by
    intro t ht hleaf d
    exact h.stored?_eq ht (fun hcontainer => by rw [hleaf] at hcontainer; cases hcontainer) d
  let depth := max (sup.rank + sub.rank) ((sup.renumber ρ).rank + (sub.renumber ρ).rank) + 1
  calc l'.verdict ((sup.renumber ρ).rank + (sub.renumber ρ).rank + 1) (sup.renumber ρ) (sub.renumber ρ)
      = l'.verdict depth (sup.renumber ρ) (sub.renumber ρ) :=
        verdict_stable h' (hspanned hsup') (hspanned hsub') (by omega) (by omega)
    _ = l.verdict depth sup sub :=
        (eq_of_relatedResults (related_verdict h.enumeration hleaves depth (hspanned hsup) (hspanned hsub) (.refl _)
          (.refl _))).symm
    _ = l.verdict (sup.rank + sub.rank + 1) sup sub :=
        verdict_stable h.enumeration (hspanned hsup) (hspanned hsub) (by omega) (by omega)

lemma related_resolve_known (h : SessionEmbedding .exact False ρ ns s.fresh s'.fresh) (h' : s'.Known True ns')
    (name : String) :
    RelatedResults .exact (fun r r' => r.RenumbersTo ρ ns r' ∧ r'.Known ns') (s.resolve name) (s'.resolve name) := by
  have hknown : ∀ r', s'.resolve name = .ok r' → r'.Known ns' := fun _ => h'.resolve_known
  have hrelated : RelatedResults .exact (Referent.RenumbersTo ρ ns) (s.resolve name) (s'.resolve name) :=
    related_resolve h name
  generalize s.resolve name = x at hrelated ⊢
  generalize s'.resolve name = y at hrelated hknown ⊢
  cases hrelated with
  | ok hrenumbers => exact .ok ⟨hrenumbers, hknown _ rfl⟩
  | error halike => exact .error halike

/-- The answer to a question about containment does not depend on how far the lattice has been extended. -/
lemma SessionExtension.supersedes (h : SessionExtension s s') (sup sub : String) :
    (s'.step I (.ask (.supersedes sup sub))).1 = ⟨s.predictAnswer sup sub, ⟨"", ""⟩, []⟩ := by
  obtain ⟨ρ, ns, hembed⟩ := h.embedded
  obtain ⟨ns', hordered⟩ := h.ordered
  obtain ⟨l, hrun⟩ := ask_supersedes (I := I) s'.fresh sup sub
  have hanswer : s.predictAnswer sup sub = (Stepping.perform I (.ask (.supersedes sup sub)) s'.fresh).1 := by
    rw [Stepping.perform, hrun]
    apply eq_of_relatedResults
    apply (related_resolve_known hembed hordered sup).bind
    rintro above _ _ ⟨⟨hsup, rfl⟩, hsup'⟩
    apply (related_resolve_known hembed hordered sub).bind
    rintro below _ _ ⟨⟨hsub, rfl⟩, hsub'⟩
    rw [(supersedes_verdict hordered.fresh.enumeration hsup' hsub').1,
      hembed.lattice.verdict_eq hordered.enumeration hsup hsub hsup' hsub']
    apply RelatedResults.bind RelatedResults.of_eq
    rintro answer _ _ rfl
    exact .ok rfl
  refine Outcome.eq_of_fields hanswer.symm ?_ ?_
  · change (Stepping.perform I (.ask (.supersedes sup sub)) s'.fresh).2.console = _
    rw [Stepping.perform, hrun]
    rfl
  · change (Stepping.perform I (.ask (.supersedes sup sub)) s'.fresh).2.calls = _
    rw [Stepping.perform, hrun]
    rfl

end SessionExtension

def Step.asksContainment : Step → Bool
  | .ask (.supersedes ..) => true
  | _ => false

lemma Step.eq_of_asksContainment {st : Step} (h : st.asksContainment = true) :
    ∃ sup sub, st = .ask (.supersedes sup sub) := by
  unfold Step.asksContainment at h
  split at h
  · exact ⟨_, _, rfl⟩
  · cases h

/-- A step of a session, or one that somebody put in between. -/
inductive Entry where
  | own (st : Step)
  | inserted (st : Step)

namespace Entry

def step : Entry → Step
  | own st => st
  | inserted st => st

def own? : Entry → Option Step
  | own st => some st
  | inserted _ => none

/-- The session itself builds types without fetching edges and asks about their members, structure and
containment. What is put in between asks about edges. -/
def isFitting : Entry → Bool
  | own st => st.isPlain || st.asksContainment
  | inserted st => st.isProbe

/-- The outcomes of the steps of the session itself. -/
def ownOutcomes : List Entry → List Outcome → List Outcome
  | own _ :: entries, o :: os => o :: ownOutcomes entries os
  | inserted _ :: entries, _ :: os => ownOutcomes entries os
  | _, _ => []

end Entry

section Runs

variable {I : Interpretation} {s s₁ s₂ : Session}

/-- Two sessions that extend the same session, one with questions put in between. -/
lemma SessionExtension.run (h₁ : SessionExtension s s₁) (h₂ : SessionExtension s s₂) {entries : List Entry}
    (hentries : ∀ e ∈ entries, e.isFitting = true) :
    Entry.ownOutcomes entries (s₂.run I (entries.map Entry.step)) = s₁.run I (entries.filterMap Entry.own?) := by
  induction entries generalizing s s₁ s₂ with
  | nil => rfl
  | cons e entries ih =>
    obtain ⟨he, hrest⟩ := List.forall_mem_cons.mp hentries
    cases e with
    | inserted st => exact ih h₁ (h₂.probe he) hrest
    | own st =>
      rcases Bool.or_eq_true_iff.mp he with hplain | hasks
      · -- the session that both of them extend takes the step as well
        obtain ⟨houtcome₁, h₁'⟩ := h₁.step (I := I) hplain
        obtain ⟨houtcome₂, h₂'⟩ := h₂.step (I := I) hplain
        exact congrArg₂ List.cons (houtcome₂.trans houtcome₁.symm) (ih h₁' h₂' hrest)
      · -- the session that both of them extend stays as it is
        obtain ⟨sup, sub, rfl⟩ := Step.eq_of_asksContainment hasks
        have houtcome : (s₂.step I (.ask (.supersedes sup sub))).1 = (s₁.step I (.ask (.supersedes sup sub))).1 := by
          rw [h₁.supersedes, h₂.supersedes]
        have h₁' : SessionExtension s (s₁.step I (.ask (.supersedes sup sub))).2 := h₁.probe rfl
        have h₂' : SessionExtension s (s₂.step I (.ask (.supersedes sup sub))).2 := h₂.probe rfl
        exact congrArg₂ List.cons houtcome (ih h₁' h₂' hrest)

lemma Session.initial_sessionExtension : SessionExtension Session.initial Session.initial := by
  obtain ⟨ns, h⟩ := Session.initial_known True
  have hself : SessionEmbedding .exact False .refl ns Session.initial.fresh Session.initial.fresh :=
    Session.Known.embedding_self h.fresh
  exact ⟨⟨_, ns, hself⟩, ns, h⟩

/-- Questions about edges that are put in between the steps of a session change the outcome of none of them. -/
theorem lazy_edges_transparent {entries : List Entry} (hentries : ∀ e ∈ entries, e.isFitting = true) :
    Entry.ownOutcomes entries (Session.initial.run I (entries.map Entry.step)) =
      Session.initial.run I (entries.filterMap Entry.own?) :=
  Session.initial_sessionExtension.run Session.initial_sessionExtension hentries

/-- Edges of a container are worked out before it gets another name, or only after that. -/
theorem lazy_edges_transparent_boxes :
    let I := constantInterpretation true
    let entries : List Entry := [.own (.construct (some "Box") (.refine .arrayOf "Integer")),
      .inserted (.ask (.edges "Box" .supersets)), .inserted (.newReport "report" false none),
      .inserted (.check "Box" "report"), .own (.construct (some "Crate") (.refine (.withAlias "Crate") "Box")),
      .inserted (.ask (.supersedes "Crate" "Box")),
      .own (.construct (some "Both") (.refine (.operator .union "Crate") "Box")),
      .own (.ask (.supersedes "Array" "Crate")), .own (.ask (.describe "Both"))]
    (∀ e ∈ entries, e.isFitting = true) ∧
      Entry.ownOutcomes entries (Session.initial.run I (entries.map Entry.step)) =
        Session.initial.run I (entries.filterMap Entry.own?) := by
  intro I entries
  have hentries : ∀ e ∈ entries, e.isFitting = true := by decide
  exact ⟨hentries, lazy_edges_transparent hentries⟩

end Runs

end StructuralTypes
