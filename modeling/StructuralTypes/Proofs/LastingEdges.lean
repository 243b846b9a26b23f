import StructuralTypes.Proofs.FailedConstructions

/-!
# Edges that last

Apart from overwriting an edge, nothing that happens in a session changes an edge that is stored, whether it
succeeds or not: constructors add nodes, questions about edges fill in what was not worked out yet, and what is
said goes to reports and the console. Only a construction changes what a name denotes.
-/

namespace StructuralTypes

/-- Whether it fails or not, a computation leads from a state to one that is related to it. -/
def RelatesStates {σ α : Type} (R : σ → σ → Prop) (x : ExceptT Fault (StateM σ) α) : Prop := ∀ s, R s (x s).2

namespace RelatesStates

variable {σ α β : Type} {R : σ → σ → Prop} {x : ExceptT Fault (StateM σ) α}

lemma get_bind {f : σ → ExceptT Fault (StateM σ) β} (hf : ∀ s, RelatesStates R (f s)) :
    RelatesStates R (MonadState.get >>= f) :=
  fun s => hf s s

variable [IsPreorder σ R]

lemma of_eq (h : ∀ s, (x s).2 = s) : RelatesStates R x := by
  intro s
  rw [h s]
  exact refl_of R s

lemma pure (a : α) : RelatesStates R (Pure.pure a) := of_eq fun _ => rfl

lemma throw (fault : Fault) : RelatesStates R (throw fault : ExceptT Fault (StateM σ) α) := of_eq fun _ => rfl

lemma bind {f : α → ExceptT Fault (StateM σ) β} (hx : RelatesStates R x) (hf : ∀ a, RelatesStates R (f a)) :
    RelatesStates R (x >>= f) := by
  intro s
  have hfirst := hx s
  rcases hrun : x s with ⟨fault | a, s₁⟩ <;> rw [hrun] at hfirst
  · rw [bind_of_error hrun]
    exact hfirst
  · rw [bind_of_ok hrun]
    exact trans_of R hfirst (hf a s₁)

lemma tryCatch {f : Fault → ExceptT Fault (StateM σ) α} (hx : RelatesStates R x)
    (hf : ∀ fault, RelatesStates R (f fault)) : RelatesStates R (MonadExcept.tryCatch x f) := by
  intro s
  have hfirst := hx s
  rw [tryCatch_apply]
  rcases hrun : x s with ⟨fault | a, s₁⟩ <;> rw [hrun] at hfirst
  · exact trans_of R hfirst (hf fault s₁)
  · exact hfirst

lemma mapM {f : α → ExceptT Fault (StateM σ) β} (hf : ∀ a, RelatesStates R (f a)) (as : List α) :
    RelatesStates R (as.mapM f) := by
  induction as with
  | nil => exact pure _
  | cons a as ih =>
    rw [List.mapM_cons]
    exact (hf a).bind fun _ => ih.bind fun _ => pure _

lemma foldlM {f : β → α → ExceptT Fault (StateM σ) β} (hf : ∀ b a, RelatesStates R (f b a)) (as : List α) (b : β) :
    RelatesStates R (as.foldlM f b) := by
  induction as generalizing b with
  | nil => exact pure b
  | cons a as ih =>
    rw [List.foldlM_cons]
    exact (hf b a).bind ih

lemma forM {f : α → ExceptT Fault (StateM σ) PUnit} (hf : ∀ a, RelatesStates R (f a)) (as : List α) :
    RelatesStates R (as.forM f) := by
  induction as with
  | nil => exact pure _
  | cons a as ih => exact (hf a).bind fun _ => ih

lemma anyM {f : α → ExceptT Fault (StateM σ) Bool} (hf : ∀ a, RelatesStates R (f a)) (as : List α) :
    RelatesStates R (as.anyM f) := by
  induction as with
  | nil => exact pure false
  | cons a as ih =>
    apply (hf a).bind
    intro found
    cases found with
    | true => exact pure true
    | false => exact ih

end RelatesStates

/-- The edges that are stored in one state are stored in the other. -/
def Growth {σ : Type} (place : σ → Lattice) (s s' : σ) : Prop := (place s).Grows (place s')

instance {σ : Type} (place : σ → Lattice) : IsPreorder σ (Growth place) where
  refl s := .refl (place s)
  trans _ _ _ h h' := h.trans h'

/-- A computation that changes no edge that is stored. -/
abbrev Growing {σ α : Type} (place : σ → Lattice) (x : ExceptT Fault (StateM σ) α) : Prop :=
  RelatesStates (Growth place) x

section Lattices

lemma Lattice.Extended.grows {l l' : Lattice} (h : l.Extended l') : l.Grows l' := by
  intro d id rs hrs
  have hlt : id < l.entries.size := by
    by_contra hge
    rw [Lattice.stored?, Array.getElem?_eq_none (Nat.le_of_not_lt hge)] at hrs
    cases hrs
  rw [Lattice.stored?, h.entry_eq id hlt]
  exact hrs

lemma Extending.grows_of_run {α : Type} {x : Build α} (h : Extending x) {l l' : Lattice} {a : Attempt α}
    (hrun : x l = (a, l')) : l.Grows l' := by
  have hextended := h l
  rw [hrun] at hextended
  exact hextended.grows

lemma Extending.growing {α : Type} {x : Build α} (h : Extending x) : Growing (fun l => l) x := fun l => (h l).grows

lemma growing_kept (d : Direction) (id : Nat) {work : Build (List Referent)} (hwork : Growing (fun l => l) work) :
    Growing (fun l => l) (Build.kept d id work) := by
  intro l
  have hgrows := hwork l
  cases hstored : l.stored? d id with
  | some rs =>
    rw [Build.kept_of_stored hstored]
    exact .refl l
  | none =>
    rcases hrun : work l with ⟨fault | rs, l'⟩ <;> rw [hrun] at hgrows
    · rw [Build.kept_of_error hstored hrun]
      exact hgrows
    · rw [Build.kept_of_ok hstored hrun]
      -- what is filled in here was not stored before
      intro d' id' ss hss
      rw [Lattice.stored?_store, if_neg]
      · exact hgrows d' id' ss hss
      · rintro ⟨rfl, rfl, -⟩
        rw [hstored] at hss
        cases hss

lemma growing_edges (d : Direction) (t : Ty) : Growing (fun l => l) (t.edges d) := by
  have hcontainer : ∀ (o : Referent) (extractor : Fn) (i : Referent), Growing (fun l => l)
      (do return Referent.type (← Build.container o extractor i)) :=
    fun o extractor i => (extending_container o extractor i).growing.bind fun _ => .pure _
  induction t generalizing d with
  | unary label outer extractor inner iho ihi =>
    cases d with
    | subsets =>
      rw [Ty.edges]
      apply growing_kept
      apply (iho .subsets).bind
      intro outers
      apply (ihi .subsets).bind
      intro inners
      refine (RelatesStates.mapM (fun o => ?_) _).bind fun _ => .pure _
      exact .mapM (fun i => hcontainer o extractor i) _
    | supersets =>
      rw [Ty.edges]
      apply growing_kept
      apply (ihi .supersets).bind
      intro inners
      exact (RelatesStates.mapM (fun i => hcontainer (.type outer) extractor i) _).bind fun _ => .pure _
  | _ => cases d <;> exact growing_kept _ _ (.pure _)

lemma growing_referent_edges (d : Direction) (r : Referent) : Growing (fun l => l) (r.edges d) := by
  have hexpect : Growing (fun l => l) (Build.ofAttempt (r.expect d.feature)) := .of_eq fun _ => rfl
  exact hexpect.bind (growing_edges d)

lemma growing_search (depth : Nat) (sup sub : Referent) :
    Growing Search.lattice (Searching.supersedes depth sup sub) := by
  have hattempt : ∀ {α : Type} (a : Attempt α), Growing Search.lattice (Searching.ofAttempt a) :=
    fun _ => .of_eq fun _ => rfl
  have hedges : ∀ (r : Referent) (d : Direction), Growing Search.lattice (Searching.ofBuild (r.edges d)) :=
    fun r d s => growing_referent_edges d r s.lattice
  induction depth generalizing sup sub with
  | zero => exact .of_eq fun _ => rfl
  | succ depth ih =>
    have hsettle : Growing Search.lattice (Searching.settle (Searching.supersedes depth) sup sub) := by
      apply (hattempt _).bind
      intro equal
      split
      · exact .pure _
      · apply (hedges sup .subsets).bind
        intro below
        apply (RelatesStates.anyM (fun s => ih s sub) below).bind
        intro found
        split
        · exact .pure _
        · apply (hedges sub .supersets).bind
          intro above
          exact .anyM (fun s => ih sup s) above
    rw [Searching.supersedes]
    apply (hattempt _).bind
    intro _
    apply (hattempt _).bind
    intro _
    apply RelatesStates.get_bind
    intro s
    split
    · exact .pure _
    · apply RelatesStates.get_bind
      intro s'
      have hthrow : Growing Search.lattice (throw (.cyclicLattice sup sub) : Searching PUnit) := .throw _
      have hstart : ∀ pair, Growing Search.lattice (Searching.start pair) := fun _ s => .refl s.lattice
      have hfinish : ∀ pair answer, Growing Search.lattice (Searching.finish pair answer) :=
        fun _ _ s => .refl s.lattice
      have hrest := fun pair => (hstart pair).bind fun _ => hsettle.bind fun answer =>
        (hfinish pair answer).bind fun _ => RelatesStates.pure answer
      split
      · exact hthrow.bind fun _ => hrest _
      · exact hrest _

lemma growing_unlimited {α : Type} {run : Nat → Build α} (h : ∀ depth, Growing (fun l => l) (run depth)) :
    Growing (fun l => l) (Build.unlimited run) := fun l =>
  Build.unlimited_induction (P := fun outcome => l.Grows outcome.2) (fun depth => h depth l) (.refl l)

lemma growing_supersedes (sup sub : Referent) : Growing (fun l => l) (Build.supersedes sup sub) :=
  growing_unlimited fun depth l => growing_search depth sup sub ⟨l, [], []⟩

lemma growing_explore (d : Direction) (depth : Nat) (g : Reach) (r : Referent) :
    Growing (fun l => l) (Build.explore d depth g r) := by
  induction depth generalizing g r with
  | zero => exact .of_eq fun _ => rfl
  | succ depth ih =>
    have hhash : Growing (fun l => l) (Build.ofAttempt r.checkHashable) := .of_eq fun _ => rfl
    rw [Build.explore]
    apply hhash.bind
    intro _
    split
    · exact .pure _
    · apply (growing_referent_edges d r).bind
      intro nodes
      exact .foldlM ih _ _

lemma growing_reachable (d : Direction) (root : Referent) : Growing (fun l => l) (Build.reachable d root) :=
  growing_unlimited fun depth => growing_explore d depth [] root

end Lattices

section Workbenches

variable {α : Type}

lemma IgnoresLattice.growing {x : Work α} (h : IgnoresLattice x) : Growing Workbench.lattice x := by
  intro w
  have hkept : (x w).2.lattice = w.lattice := congrArg (fun p => p.2.lattice) (h w w.lattice)
  unfold Growth
  rw [hkept]
  exact .refl _

lemma Growing.work {x : Build α} (h : Growing (fun l => l) x) : Growing Workbench.lattice (Work.ofBuild x) :=
  fun w => h w.lattice

lemma growing_checkLattice (root : Referent) : Growing Workbench.lattice (Work.checkLattice root) := by
  have hdirection : ∀ d, Growing Workbench.lattice (Work.checkDirection root d) := by
    intro d
    apply (growing_reachable d root).work.bind
    intro g
    apply IgnoresLattice.growing
    refine (IgnoresLattice.attempt _).bind fun _ => (IgnoresLattice.inform _).bind fun _ => ?_
    exact .forM (fun _ => (IgnoresLattice.attempt _).bind fun _ => .complain _) _
  exact (hdirection .subsets).bind fun _ => hdirection .supersets

namespace CommandLine

variable (env : Environment)

lemma growing_answerSupersedes (sup sub : Ty) : Growing Workbench.lattice (answerSupersedes sup sub) := by
  apply (IgnoresLattice.attempt _).growing.bind
  intro supName
  apply (IgnoresLattice.attempt _).growing.bind
  intro subName
  apply (growing_supersedes _ _).work.bind
  intro answer
  exact (IgnoresLattice.sayLine _).growing

lemma growing_compareBoth (target other : Ty) : Growing Workbench.lattice (compareBoth target other) := by
  rw [compareBoth_eq]
  apply RelatesStates.tryCatch
  · apply (growing_answerSupersedes target other).bind
    intro _
    exact (growing_answerSupersedes other target).bind fun _ => .pure _
  · intro fault
    cases fault with
    | cyclicLattice sup sub =>
      apply IgnoresLattice.growing
      exact (IgnoresLattice.attempt _).bind fun _ => (IgnoresLattice.complain _).bind fun _ =>
        IgnoresLattice.complainToConsole.bind fun _ => .pure _
    | _ => exact .of_eq fun _ => rfl

lemma growing_checkTypes (types : List Ty) : Growing Workbench.lattice (checkTypes types) := by
  apply (RelatesStates.forM (fun t => growing_checkLattice (.type t)) types).bind
  intro _
  apply RelatesStates.get_bind
  intro w
  split
  · exact (IgnoresLattice.complainToConsole.bind fun _ => .pure _).growing
  · exact ((IgnoresLattice.warnLine _).bind fun _ => .pure _).growing

lemma growing_answerRest (args : Arguments) (target : Ty) (other? : Option Ty) (members : List (String × Value)) :
    Growing Workbench.lattice (answerRest env args target other? members) := by
  have hchecks : Growing Workbench.lattice
      (if 0 < args.checks then checkTypes (target :: other?.toList) else return true) := by
    split
    · exact growing_checkTypes _
    · exact .pure _
  apply (IgnoresLattice.forM (ignoresLattice_answerMember target) members).growing.bind
  intro _
  cases other? with
  | none => exact hchecks
  | some other =>
    apply (growing_compareBoth target other).bind
    intro compared
    cases compared with
    | false => exact .pure _
    | true => exact hchecks

lemma growing_answer (args : Arguments) (target : Ty) (other? : Option Ty) (members : List (String × Value)) :
    Growing Workbench.lattice (answer env args target other? members) := by
  unfold answer
  apply (IgnoresLattice.attempt _).growing.bind
  intro name
  apply (IgnoresLattice.attempt _).growing.bind
  intro canonicalName
  apply (IgnoresLattice.sayLine _).growing.bind
  intro _
  by_cases houtline : args.outline = true
  · rw [if_pos houtline]
    apply (IgnoresLattice.attempt _).growing.bind
    intro text
    exact (IgnoresLattice.sayLine text).growing.bind fun _ => growing_answerRest env args target other? members
  · rw [if_neg houtline]
    exact growing_answerRest env args target other? members

lemma growing_resolve (text : String) : Growing Workbench.lattice (resolve env text) := by
  have hrefuse : ∀ complaint, Growing Workbench.lattice (do
      Work.complain complaint
      return (none : Option Ty)) := fun complaint => ((IgnoresLattice.complain complaint).bind fun _ => .pure _).growing
  unfold resolve
  dsimp only
  split
  · split
    · exact .pure _
    · exact hrefuse _
  · apply (IgnoresLattice.attempt _).growing.bind
    intro found
    rcases found with why | t | className
    · exact hrefuse _
    · exact .pure _
    · exact hrefuse _

lemma growing_inspectRest (args : Arguments) (target? other? : Option Ty) :
    Growing Workbench.lattice (inspectRest env args target? other?) := by
  have hcomplaint : Growing Workbench.lattice (do
      Work.complainToConsole
      return false) := (IgnoresLattice.complainToConsole.bind fun _ => .pure _).growing
  apply (IgnoresLattice.readMembers args.members).growing.bind
  intro members
  cases target? with
  | none => exact hcomplaint
  | some target =>
    apply RelatesStates.get_bind
    intro w
    split
    · exact hcomplaint
    · exact growing_answer env args target other? members

lemma growing_inspect (args : Arguments) : Growing Workbench.lattice (inspect env args) := by
  unfold inspect
  apply (growing_resolve env args.target).bind
  intro target?
  cases args.other? with
  | none => exact growing_inspectRest env args target? none
  | some text =>
    dsimp only
    by_cases hempty : text.isEmpty = true
    · rw [if_pos hempty]
      exact growing_inspectRest env args target? none
    · rw [if_neg hempty]
      exact (growing_resolve env text).bind (growing_inspectRest env args target?)

/-- The command line works out edges and overwrites none. -/
lemma growing_execute (args : List String) : Growing Workbench.lattice (execute env args) := by
  have hrun : ∀ arguments, Growing Workbench.lattice (run env arguments) := by
    intro arguments
    rw [run_eq]
    have hreport : IgnoresLattice (modify fun w => { w with
        report := .new (1 < arguments.checks) (some issueCap) } : Work Unit) := fun _ _ => rfl
    apply hreport.growing.bind
    intro _
    apply RelatesStates.tryCatch
    · exact (growing_inspect env arguments).bind fun _ => .pure _
    · intro fault
      cases fault with
      | tooManyIssues =>
        exact (IgnoresLattice.complainToConsole.bind fun _ => (IgnoresLattice.warnLine _).bind fun _ => .pure _).growing
      | _ => exact .of_eq fun _ => rfl
  unfold execute
  split
  · exact ((IgnoresLattice.sayLine _).bind fun _ => .pure _).growing
  · rcases parse args with (misuse | _) | arguments
    · exact ((IgnoresLattice.warnLine _).bind fun _ => (IgnoresLattice.warnLine _).bind fun _ => .pure _).growing
    · exact ((IgnoresLattice.sayLine _).bind fun _ => .pure _).growing
    · exact hrun arguments

end CommandLine

end Workbenches

section Sessions

variable {α β : Type} {I : Interpretation}

/-- Names denote what they denoted before, and the edges that were stored are stored. -/
def Session.Persists (s s' : Session) : Prop := s'.scope = s.scope ∧ s.lattice.Grows s'.lattice

instance : IsPreorder Session Session.Persists where
  refl s := ⟨rfl, .refl s.lattice⟩
  trans _ _ _ h h' := ⟨h'.1.trans h.1, h.2.trans h'.2⟩

/-- A step that gives no name and changes no edge that is stored. -/
abbrev Persisting (x : Stepping α) : Prop := RelatesStates Session.Persists x

namespace Persisting

lemma attempt (a : Attempt α) : Persisting (Stepping.ofAttempt a) := .of_eq fun _ => rfl

lemma ofBuild {x : Build α} (hx : Growing (fun l => l) x) : Persisting (Stepping.ofBuild x) :=
  fun s => ⟨rfl, hx s.lattice⟩

lemma ofWork (report : Report) {x : Work α} (hx : Growing Workbench.lattice x) :
    Persisting (Stepping.ofWork report x) :=
  fun s => ⟨rfl, hx ⟨s.lattice, report, s.console, s.picks, s.calls⟩⟩

lemma resolve (name : String) : Persisting (Stepping.resolve name) := RelatesStates.get_bind fun _ => attempt _

lemma putReport (name : String) (report : Report) :
    Persisting (modify fun s => { s with reports := putNamed name report s.reports } : Stepping Unit) :=
  fun _ => ⟨rfl, .refl _⟩

lemma withReport (name : String) {work : Work Unit} (hwork : Growing Workbench.lattice work) :
    Persisting (Stepping.withReport name work) := by
  apply RelatesStates.get_bind
  intro s
  apply (attempt _).bind
  intro report
  apply (ofWork report hwork).bind
  intro result
  apply (putReport name result.2).bind
  intro _
  exact (attempt _).bind fun _ => .pure _

end Persisting

lemma Adding.persisting {x : Stepping α} (h : Adding x) : Persisting x := by
  intro s
  obtain ⟨l', hl', hs⟩ := h s
  rw [hs]
  exact ⟨rfl, hl'.grows⟩

/-- A construction on its own gives no name. -/
lemma persisting_construct (k : Construction) : Persisting (Stepping.construct k) := by
  by_cases hother : k.isPlain = true ∧ ∀ written, k ≠ .plain written
  · exact (adding_construct hother.1 hother.2).persisting
  · cases k with
    | edge of d index =>
      apply (Persisting.resolve of).bind
      intro r
      apply (Persisting.ofBuild (growing_referent_edges d r)).bind
      intro nodes
      exact Persisting.attempt _
    | plain written =>
      apply (Persisting.attempt _).bind
      intro v s
      exact ⟨rfl, .refl _⟩
    | _ => exact absurd ⟨rfl, by simp⟩ hother

lemma persisting_ask (q : Question) : Persisting (Stepping.ask I q) := by
  cases q with
  | has of written =>
    apply (Persisting.resolve of).bind
    intro r
    apply (Persisting.attempt _).bind
    intro t
    apply (Persisting.attempt _).bind
    intro v
    have hcalls : Persisting (modify fun s => { s with calls := s.calls ++ (t.has I v).calls } : Stepping Unit) :=
      fun _ => ⟨rfl, .refl _⟩
    apply hcalls.bind
    intro _
    exact (Persisting.attempt _).bind fun _ => .pure _
  | equals left right =>
    apply (Persisting.resolve left).bind
    intro l
    apply (Persisting.attempt _).bind
    intro _
    apply (Persisting.resolve right).bind
    intro r
    exact (Persisting.attempt _).bind fun _ => .pure _
  | same left right => exact (Persisting.resolve left).bind fun _ => (Persisting.resolve right).bind fun _ => .pure _
  | supersedes sup sub =>
    apply (Persisting.resolve sup).bind
    intro above
    apply (Persisting.resolve sub).bind
    intro below
    exact (Persisting.ofBuild (growing_supersedes above below)).bind fun _ => .pure _
  | describe of =>
    apply (Persisting.resolve of).bind
    intro r
    apply RelatesStates.get_bind
    intro s
    exact (Persisting.attempt _).bind fun _ => .pure _
  | edges of d =>
    apply (Persisting.resolve of).bind
    intro r
    apply (Persisting.ofBuild (growing_referent_edges d r)).bind
    intro nodes
    apply RelatesStates.get_bind
    intro s
    exact (Persisting.attempt _).bind fun _ => .pure _
  | outline of indent =>
    apply (Persisting.resolve of).bind
    intro r
    exact (Persisting.attempt _).bind fun _ => .pure _

/-- Steps that construct nothing and overwrite nothing. -/
lemma persisting_perform {st : Step} (hst : st.overwrites = false) (hk : ∀ bind? k, st ≠ .construct bind? k) :
    Persisting (Stepping.perform I st) := by
  cases st with
  | construct bind? k => exact absurd rfl (hk bind? k)
  | setEdges => cases hst
  | ask q => exact persisting_ask q
  | setPicks picks =>
    have hset : Persisting (modify fun s => { s with picks } : Stepping Unit) := fun _ => ⟨rfl, .refl _⟩
    exact hset.bind fun _ => .pure _
  | newReport name verbose cap? => exact (Persisting.putReport name _).bind fun _ => .pure _
  | raise report g =>
    have hword : Persisting (Stepping.word g) := by
      cases g with
      | complaint => exact .pure _
      | noSuchType => exact .pure _
      | badMember => exact .pure _
      | notAType text found => exact (Persisting.attempt _).bind fun _ => .pure _
      | cyclicLattice edge cycle =>
        exact (RelatesStates.mapM Persisting.resolve cycle).bind fun _ => Persisting.attempt _
    apply RelatesStates.get_bind
    intro s
    apply (Persisting.attempt _).bind
    intro _
    apply hword.bind
    intro c
    exact Persisting.withReport report (IgnoresLattice.complain c).growing
  | inform report words => exact Persisting.withReport report (IgnoresLattice.inform _).growing
  | stateOf report =>
    apply RelatesStates.get_bind
    intro s
    exact (Persisting.attempt _).bind fun _ => .pure _
  | complain report => exact Persisting.withReport report IgnoresLattice.complainToConsole.growing
  | assertNoIssues report message => exact Persisting.withReport report (IgnoresLattice.assertNoIssues message).growing
  | check of report => exact (Persisting.resolve of).bind fun r => Persisting.withReport report (growing_checkLattice r)
  | commandLine arguments =>
    apply RelatesStates.get_bind
    intro s
    apply (Persisting.ofWork _ (CommandLine.growing_execute _ arguments)).bind
    intro result
    exact (Persisting.attempt _).bind fun _ => .pure _

end Sessions

end StructuralTypes
