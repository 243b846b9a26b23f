import StructuralTypes.Proofs.CanonicalSessions
import StructuralTypes.Proofs.CappedReports

/-!
# The history of a report

A session adds complaints to a report by name, directly or through checks of the lattice, with any other steps in
between and going on after every fault. Over the whole history the report holds what was added, and adding stops a step
once at most: at the complaint whose number is the cap.
-/

namespace StructuralTypes

lemma lookup_cons_of_ne {α : Type} {key first : String} (h : key ≠ first) (a : α) (xs : List (String × α)) :
    ((first, a) :: xs).lookup key = xs.lookup key := by
  rw [List.lookup_cons, beq_false_of_ne h]

lemma lookup_putNamed {α : Type} (name key : String) (a : α) (xs : List (String × α)) :
    (putNamed name a xs).lookup key = if key = name then some a else xs.lookup key := by
  induction xs with
  | nil =>
    by_cases hkey : key = name
    · simp [putNamed, hkey]
    · rw [putNamed, lookup_cons_of_ne hkey, if_neg hkey]
  | cons x xs ih =>
    obtain ⟨first, b⟩ := x
    rw [putNamed]
    by_cases hfirst : first = name
    · subst hfirst
      by_cases hkey : key = first
      · simp [hkey]
      · simp [hkey, lookup_cons_of_ne hkey]
    · by_cases hkey : key = first
      · simp [hkey, hfirst]
      · rw [if_neg hfirst, lookup_cons_of_ne hkey, lookup_cons_of_ne hkey, ih]

namespace Session

/-- The complaints in a report of the session, or none if there is no such report. -/
def issues (s : Session) (name : String) : List Complaint := ((s.reports.lookup name).map Report.issues).getD []

/-- The session with the cap of one of its reports lifted. -/
def uncapped (s : Session) (name : String) : Session :=
  { s with reports := s.reports.map fun entry => (entry.1, if entry.1 = name then entry.2.uncapped else entry.2) }

lemma issues_of_lookup {s : Session} {name : String} {r : Report} (h : s.reports.lookup name = some r) :
    s.issues name = r.issues := by
  rw [issues, h]
  rfl

lemma lookup_uncapped {s : Session} {name : String} {r : Report} (h : s.reports.lookup name = some r) :
    (s.uncapped name).reports.lookup name = some r.uncapped := by
  unfold uncapped
  dsimp only
  generalize s.reports = reports at h
  induction reports with
  | nil => cases h
  | cons entry rest ih =>
    obtain ⟨key, found⟩ := entry
    by_cases hkey : name = key
    · subst hkey
      simp only [List.lookup_cons_self, Option.some.injEq] at h
      simp [h]
    · rw [lookup_cons_of_ne hkey] at h
      rw [List.map_cons, lookup_cons_of_ne hkey]
      exact ih h

end Session

/-- Whether the step was stopped by a complaint that reached a cap. -/
def Outcome.isStopped (o : Outcome) : Bool :=
  match o.result with
  | .error .tooManyIssues => true
  | _ => false

lemma Outcome.isStopped_iff {o : Outcome} : o.isStopped = true ↔ o.result = .error .tooManyIssues := by
  unfold isStopped
  split
  · rename_i h
    exact iff_of_true rfl h
  · rename_i h
    exact iff_of_false Bool.false_ne_true h

namespace Step

/-- Whether a step puts a new report in the place of the one with this name. -/
def renews (name : String) : Step → Bool
  | .newReport report _ _ => report = name
  | _ => false

/-- Whether a step is there to add complaints to the report with this name. -/
def addsTo (name : String) : Step → Bool
  | .raise report _ | .check _ report => report = name
  | _ => false

end Step

section OtherReports

variable {α : Type} {I : Interpretation} {name : String}

/-- The report with this name is the same in both sessions. -/
def Session.KeepsReport (name : String) (s s' : Session) : Prop := s'.reports.lookup name = s.reports.lookup name

instance (name : String) : IsPreorder Session (Session.KeepsReport name) where
  refl _ := rfl
  trans _ _ _ h h' := Eq.trans h' h

/-- A step that leaves the report with this name alone. -/
abbrev PreservesReport (name : String) (x : Stepping α) : Prop := RelatesStates (Session.KeepsReport name) x

namespace PreservesReport

lemma attempt (a : Attempt α) : PreservesReport name (Stepping.ofAttempt a) := fun _ => rfl

lemma ofBuild (x : Build α) : PreservesReport name (Stepping.ofBuild x) := fun _ => rfl

lemma ofWork (report : Report) (x : Work α) : PreservesReport name (Stepping.ofWork report x) := fun _ => rfl

lemma resolve (key : String) : PreservesReport name (Stepping.resolve key) := fun _ => rfl

lemma construct (k : Construction) : PreservesReport name (Stepping.construct k) := by
  have hbuilt : ∀ x : Build Ty, PreservesReport name (do return Referent.type (← Stepping.ofBuild x)) :=
    fun x => (ofBuild x).bind fun _ => .pure _
  cases k with
  | predicate pred name? => exact hbuilt _
  | bare => exact hbuilt _
  | fetch of => exact resolve of
  | refine refinement operand =>
    apply RelatesStates.get_bind
    intro s
    apply (attempt _).bind
    intro f
    exact (resolve operand).bind fun r => hbuilt (f r)
  | compose title base refinements =>
    apply (resolve base).bind
    intro r
    apply RelatesStates.get_bind
    intro s
    exact (attempt _).bind fun fs => hbuilt _
  | plain written =>
    apply (attempt _).bind
    intro v s
    exact rfl
  | edge of d index => exact (resolve of).bind fun r => (ofBuild _).bind fun nodes => attempt _
  | operand of index =>
    apply (resolve of).bind
    intro r
    exact (attempt _).bind fun operands => (attempt _).bind fun t => .pure _

lemma ask (q : Question) : PreservesReport name (Stepping.ask I q) := by
  cases q with
  | has of written =>
    apply (resolve of).bind
    intro r
    apply (attempt _).bind
    intro t
    apply (attempt _).bind
    intro v
    have hcalls : PreservesReport name
        (modify fun s => { s with calls := s.calls ++ (t.has I v).calls } : Stepping Unit) :=
      fun _ => rfl
    exact hcalls.bind fun _ => (attempt _).bind fun _ => .pure _
  | equals left right =>
    apply (resolve left).bind
    intro l
    apply (attempt _).bind
    intro _
    exact (resolve right).bind fun r => (attempt _).bind fun _ => .pure _
  | same left right => exact (resolve left).bind fun _ => (resolve right).bind fun _ => .pure _
  | supersedes sup sub =>
    apply (resolve sup).bind
    intro above
    exact (resolve sub).bind fun below => (ofBuild _).bind fun _ => .pure _
  | describe of => exact (resolve of).bind fun r => RelatesStates.get_bind fun s => (attempt _).bind fun _ => .pure _
  | edges of d =>
    apply (resolve of).bind
    intro r
    exact (ofBuild _).bind fun nodes => RelatesStates.get_bind fun s => (attempt _).bind fun _ => .pure _
  | outline of indent => exact (resolve of).bind fun r => (attempt _).bind fun _ => .pure _

lemma putReport {report : String} (hname : report ≠ name) (r : Report) :
    PreservesReport name (modify fun s => { s with reports := putNamed report r s.reports } : Stepping Unit) := by
  intro s
  change (putNamed report r s.reports).lookup name = s.reports.lookup name
  rw [lookup_putNamed, if_neg hname.symm]

/-- Work with another report. -/
lemma withOther {report : String} (hname : report ≠ name) (work : Work Unit) :
    PreservesReport name (Stepping.withReport report work) := by
  apply RelatesStates.get_bind
  intro s
  apply (attempt _).bind
  intro r
  apply (ofWork r work).bind
  intro result
  exact (putReport hname result.2).bind fun _ => (attempt _).bind fun _ => .pure _

end PreservesReport

variable {s : Session} {r : Report}

/-- What work with a report starts from. -/
def Session.bench (s : Session) (r : Report) : Workbench := ⟨s.lattice, r, s.console, s.picks, s.calls⟩

@[simp] lemma Session.report_bench (s : Session) (r : Report) : (s.bench r).report = r := rfl

lemma withReport_apply (h : s.reports.lookup name = some r) (work : Work Unit) :
    Stepping.withReport name work s =
      ((work (s.bench r)).1.map fun _ => Answer.done,
        let w := (work (s.bench r)).2
        { s with
          lattice := w.lattice
          console := w.console
          picks := w.picks
          calls := w.calls
          reports := putNamed name w.report s.reports }) := by
  unfold Stepping.withReport
  rw [get_bind]
  have hfound : s.resolveReport name = .ok r := by rw [Session.resolveReport, h]
  have hreport : Stepping.ofAttempt (s.resolveReport name) s = (.ok r, s) := by rw [hfound]; rfl
  rw [bind_of_ok hreport]
  have hwork : Stepping.ofWork r work s = (.ok ((work (s.bench r)).1, (work (s.bench r)).2.report),
      let w := (work (s.bench r)).2
      { s with lattice := w.lattice, console := w.console, picks := w.picks, calls := w.calls }) := rfl
  rw [bind_of_ok hwork]
  cases (work (s.bench r)).1 <;> rfl

/-- Work that does not change the report that it is given. -/
lemma PreservesReport.withReport (report : String) {work : Work Unit} (hwork : ∀ w, (work w).2.report = w.report) :
    PreservesReport name (Stepping.withReport report work) := by
  by_cases hname : report = name
  · subst hname
    intro s
    cases hlookup : s.reports.lookup report with
    | none =>
      have hmissing : s.resolveReport report = .error (.unbound report) := by rw [Session.resolveReport, hlookup]
      unfold Stepping.withReport
      rw [get_bind, hmissing]
      rfl
    | some r =>
      rw [withReport_apply hlookup]
      change (putNamed report _ s.reports).lookup report = s.reports.lookup report
      rw [lookup_putNamed, if_pos rfl, hwork, hlookup, Session.report_bench]
  · exact withOther hname work

lemma word_fresh (g : Grievance) (s : Session) :
    Stepping.word g s.fresh = ((Stepping.word g s).1, s.fresh) := by
  have hnames : ∀ (cycle : List String) (s : Session), cycle.mapM Stepping.resolve s = (cycle.mapM s.resolve, s) := by
    intro cycle s
    induction cycle with
    | nil => rfl
    | cons key cycle ih =>
      rw [List.mapM_cons, List.mapM_cons]
      have hfirst : Stepping.resolve key s = (s.resolve key, s) := rfl
      cases hkey : s.resolve key with
      | error fault =>
        rw [hkey] at hfirst
        rw [bind_of_error hfirst]
        rfl
      | ok r =>
        rw [hkey] at hfirst
        rw [bind_of_ok hfirst]
        cases hrest : cycle.mapM s.resolve with
        | error fault =>
          rw [hrest] at ih
          rw [bind_of_error ih]
          rfl
        | ok rs =>
          rw [hrest] at ih
          rw [bind_of_ok ih]
          rfl
  cases g with
  | complaint c => rfl
  | noSuchType text why => rfl
  | badMember text why => rfl
  | notAType text found => cases found <;> rfl
  | cyclicLattice edge cycle =>
    have hsame : cycle.mapM s.fresh.resolve = cycle.mapM s.resolve := rfl
    rw [Stepping.word, bind_apply, bind_apply, hnames, hnames, hsame]
    cases cycle.mapM s.resolve <;> rfl

lemma preservesReport_perform {st : Step} (hrenews : st.renews name = false) (hadds : st.addsTo name = false) :
    PreservesReport name (Stepping.perform I st) := by
  cases st with
  | construct bind? k =>
    apply (PreservesReport.construct k).bind
    intro r s
    cases bind? <;> cases r <;> exact rfl
  | ask q => exact PreservesReport.ask q
  | setEdges of d targets =>
    apply (PreservesReport.resolve of).bind
    intro r
    apply (RelatesStates.mapM PreservesReport.resolve targets).bind
    intro nodes
    apply (PreservesReport.attempt _).bind
    intro t s
    exact rfl
  | setPicks picks => exact fun _ => rfl
  | newReport report verbose cap? =>
    have hname : report ≠ name := by simpa [Step.renews] using hrenews
    exact (PreservesReport.putReport hname _).bind fun _ => .pure _
  | raise report g =>
    have hname : report ≠ name := by simpa [Step.addsTo] using hadds
    have hword : PreservesReport name (Stepping.word g) := by
      cases g with
      | complaint => exact .pure _
      | noSuchType => exact .pure _
      | badMember => exact .pure _
      | notAType text found => exact (PreservesReport.attempt _).bind fun _ => .pure _
      | cyclicLattice edge cycle =>
        exact (RelatesStates.mapM PreservesReport.resolve cycle).bind fun _ => PreservesReport.attempt _
    apply RelatesStates.get_bind
    intro s
    apply (PreservesReport.attempt _).bind
    intro _
    exact hword.bind fun k => PreservesReport.withOther hname _
  | inform report words =>
    refine PreservesReport.withReport report fun w => ?_
    unfold Work.inform
    rw [get_bind]
    split <;> rfl
  | stateOf report => exact RelatesStates.get_bind fun s => (PreservesReport.attempt _).bind fun _ => .pure _
  | complain report =>
    refine PreservesReport.withReport report fun w => ?_
    rw [complainToConsole_apply]
  | assertNoIssues report message =>
    refine PreservesReport.withReport report fun w => ?_
    unfold Work.assertNoIssues
    rw [get_bind]
    split
    · rw [bind_of_ok (complainToConsole_apply w)]
      rfl
    · rfl
  | check of report =>
    have hname : report ≠ name := by simpa [Step.addsTo] using hadds
    exact (PreservesReport.resolve of).bind fun r => PreservesReport.withOther hname _
  | commandLine arguments =>
    apply RelatesStates.get_bind
    intro s
    exact (PreservesReport.ofWork _ _).bind fun result => (PreservesReport.attempt _).bind fun _ => .pure _

end OtherReports

section StepAdditions

variable {I : Interpretation} {name : String} {s : Session} {r : Report} {st : Step}

/-- What a step does to a report: it brings up complaints, of which the report takes those up to the cap. -/
structure Session.StepAdditions (I : Interpretation) (name : String) (s : Session) (st : Step) (r : Report)
    (ks : List Complaint) : Prop where
  report : (s.step I st).2.reports.lookup name = some (r.addAll (r.taken ks))
  stopped : st.addsTo name = true → ks ≠ [] → ((s.step I st).1.isStopped = true ↔ ¬r.HasRoom ks.length)
  unchanged : st.addsTo name = false → ks = []
  worded : ∀ g, st = .raise name g → ks = (Stepping.word g s).1.toOption.toList
  checked : ∀ of, st = .check of name →
    ((s.uncapped name).step I st).2.issues name = r.issues ++ ks ∧
      ((s.step I st).1.isStopped = true ↔ ¬r.HasRoom ks.length) ∧
      (r.HasRoom ks.length → (s.step I st).1.result = ((s.uncapped name).step I st).1.result)

/-- A step that ends before it adds anything. -/
lemma Session.lookup_of_failed {fault : Fault} (h : s.reports.lookup name = some r)
    (hrun : Stepping.perform I st s.fresh = (.error fault, s.fresh)) :
    (s.step I st).2.reports.lookup name = some r ∧ (s.step I st).1.result = .error fault := by
  have hafter : (s.step I st).2 = s.fresh := congrArg Prod.snd hrun
  exact ⟨by rw [hafter]; exact h, congrArg Prod.fst hrun⟩

/-- Work with the report, with a cap and without one. -/
lemma Session.stepAdditions_of_work (h : s.reports.lookup name = some r) {work : Work Unit} (hwork : RespectsCap work)
    (hrun : Stepping.perform I st s.fresh = Stepping.withReport name work s.fresh) :
    ∃ ks, (work (s.fresh.bench r).uncapped).2.report = r.uncapped.addAll ks ∧
      (s.step I st).2.reports.lookup name = some (r.addAll (r.taken ks)) ∧
      ((s.step I st).1.isStopped = true ↔ ¬r.HasRoom ks.length) ∧
      (r.HasRoom ks.length → (s.step I st).1.result =
        (work (s.fresh.bench r).uncapped).1.map fun _ => Answer.done) := by
  have hreport : s.fresh.reports.lookup name = some r := h
  rw [withReport_apply hreport] at hrun
  obtain ⟨ks, hfree, htaken, hstopped, hsame⟩ := hwork.outcome (s.fresh.bench r)
  rw [Session.report_bench] at hfree htaken hstopped hsame
  have hresult : (s.step I st).1.result =
      (work (s.fresh.bench r)).1.map fun _ => Answer.done := congrArg Prod.fst hrun
  have hafter : (s.step I st).2.reports =
      putNamed name (work (s.fresh.bench r)).2.report s.reports :=
    congrArg (fun run => run.2.reports) hrun
  refine ⟨ks, hfree, ?_, ?_, fun hroom => ?_⟩
  · rw [hafter, lookup_putNamed, if_pos rfl, htaken]
  · rw [Outcome.isStopped_iff, hresult, ← hstopped]
    cases (work (s.fresh.bench r)).1 <;> simp [Except.map]
  · rw [hresult, hsame hroom]

lemma Session.stepAdditions_raise (h : s.reports.lookup name = some r) (g : Grievance) :
    ∃ ks, s.StepAdditions I name (.raise name g) r ks := by
  have hfound : s.resolveReport name = .ok r := by rw [Session.resolveReport, h]
  have hreport : Stepping.ofAttempt (s.fresh.resolveReport name) s.fresh = (.ok r, s.fresh) :=
    congrArg (·, s.fresh) hfound
  have hstart : Stepping.perform I (.raise name g) s.fresh =
      (Stepping.word g >>= fun k => Stepping.withReport name (Work.complain k)) s.fresh := by
    rw [Stepping.perform, get_bind, bind_of_ok hreport]
  have hword := word_fresh g s
  cases hk : (Stepping.word g s).1 with
  | error fault =>
    rw [hk] at hword
    rw [bind_of_error hword] at hstart
    obtain ⟨hsame, hresult⟩ := lookup_of_failed h hstart
    refine ⟨[], ?_, fun _ hne => absurd rfl hne, fun _ => rfl, ?_, ?_⟩
    · rw [Report.taken_of_room r.hasRoom_zero, Report.addAll_nil]
      exact hsame
    · rintro g' ⟨⟩
      rw [hk]
      rfl
    · rintro of ⟨⟩
  | ok k =>
    rw [hk] at hword
    rw [bind_of_ok hword] at hstart
    obtain ⟨ks, hfree, hafter, hstopped, -⟩ := stepAdditions_of_work h (.complain k) hstart
    have hcomplained := Work.complain_of_room (w := (s.fresh.bench r).uncapped) (n := 0)
      (fun cap hcap => by cases hcap) k
    rw [hcomplained] at hfree
    have hks : ks = [k] := (List.append_cancel_left (congrArg Report.issues hfree)).symm
    subst hks
    refine ⟨[k], hafter, fun _ _ => hstopped, ?_, ?_, ?_⟩
    · intro hadds
      simp [Step.addsTo] at hadds
    · rintro g' ⟨⟩
      rw [hk]
      rfl
    · rintro of ⟨⟩

lemma Session.stepAdditions_check (h : s.reports.lookup name = some r) (of : String) :
    ∃ ks, s.StepAdditions I name (.check of name) r ks := by
  have hlifted := lookup_uncapped h
  have hresolve : ∀ s : Session, Stepping.resolve of s.fresh = (s.resolve of, s.fresh) := fun _ => rfl
  have hsame : (s.uncapped name).resolve of = s.resolve of := rfl
  have hnamed := hresolve s
  have hnamed' := hresolve (s.uncapped name)
  rw [hsame] at hnamed'
  cases hroot : s.resolve of with
  | error fault =>
    rw [hroot] at hnamed hnamed'
    have hfailed : Stepping.perform I (.check of name) s.fresh = (.error fault, s.fresh) := bind_of_error hnamed
    have hfailed' : Stepping.perform I (.check of name) (s.uncapped name).fresh =
        (.error fault, (s.uncapped name).fresh) := bind_of_error hnamed'
    obtain ⟨hkept, hresult⟩ := lookup_of_failed h hfailed
    obtain ⟨hkept', hresult'⟩ := lookup_of_failed hlifted hfailed'
    have hunbound : fault ≠ .tooManyIssues := by
      rintro rfl
      unfold Session.resolve at hroot
      split at hroot <;> cases hroot
    refine ⟨[], ?_, fun _ hne => absurd rfl hne, fun _ => rfl, ?_, ?_⟩
    · rw [Report.taken_of_room r.hasRoom_zero, Report.addAll_nil]
      exact hkept
    · rintro g ⟨⟩
    · rintro of' ⟨⟩
      refine ⟨?_, ?_, fun _ => hresult.trans hresult'.symm⟩
      · rw [issues_of_lookup hkept', List.append_nil]
        rfl
      · rw [Outcome.isStopped_iff, hresult]
        exact iff_of_false (fun heq => hunbound (Except.error.inj heq)) fun hfull => hfull r.hasRoom_zero
  | ok root =>
    rw [hroot] at hnamed hnamed'
    have hrun : Stepping.perform I (.check of name) s.fresh =
        Stepping.withReport name (Work.checkLattice root) s.fresh := bind_of_ok hnamed
    have hrun' : Stepping.perform I (.check of name) (s.uncapped name).fresh =
        Stepping.withReport name (Work.checkLattice root) (s.uncapped name).fresh := bind_of_ok hnamed'
    have hreport' : (s.uncapped name).fresh.reports.lookup name = some r.uncapped := hlifted
    rw [withReport_apply hreport'] at hrun'
    obtain ⟨ks, hfree, hafter, hstopped, hanswer⟩ := stepAdditions_of_work h (.checkLattice root) hrun
    refine ⟨ks, hafter, fun _ _ => hstopped, ?_, ?_, ?_⟩
    · intro hadds
      simp [Step.addsTo] at hadds
    · rintro g ⟨⟩
    · rintro of' ⟨⟩
      have hlookup : ((s.uncapped name).step I (.check of name)).2.reports.lookup name =
          some (r.uncapped.addAll ks) := by
        have hreports := congrArg (fun run => run.2.reports) hrun'
        change (Stepping.perform I (.check of name) (s.uncapped name).fresh).2.reports.lookup name = _
        rw [hreports, lookup_putNamed, if_pos rfl]
        exact congrArg some hfree
      exact ⟨by rw [issues_of_lookup hlookup]; rfl, hstopped, fun hroom =>
        (hanswer hroom).trans (congrArg Prod.fst hrun').symm⟩

/-- Every step adds complaints to a report that it does not renew, if only none. -/
lemma Session.exists_stepAdditions (h : s.reports.lookup name = some r) (hrenews : st.renews name = false) :
    ∃ ks, s.StepAdditions I name st r ks := by
  by_cases hadds : st.addsTo name = true
  · cases st with
    | raise report g =>
      obtain rfl : report = name := by simpa [Step.addsTo] using hadds
      exact stepAdditions_raise h g
    | check of report =>
      obtain rfl : report = name := by simpa [Step.addsTo] using hadds
      exact stepAdditions_check h of
    | _ => cases hadds
  · have hspared : st.addsTo name = false := by simpa using hadds
    have hkept : (s.step I st).2.reports.lookup name = s.fresh.reports.lookup name :=
      preservesReport_perform (I := I) hrenews hspared s.fresh
    refine ⟨[], ?_, fun hadds' => absurd hadds' hadds, fun _ => rfl, ?_, ?_⟩
    · rw [Report.taken_of_room r.hasRoom_zero, Report.addAll_nil, hkept]
      exact h
    · rintro g rfl
      simp [Step.addsTo] at hspared
    · rintro of rfl
      simp [Step.addsTo] at hspared

end StepAdditions

section Histories

/-- A complaint added to a report, and whether adding it stopped the step. -/
structure Addition where
  complaint : Complaint
  stops : Bool
deriving DecidableEq

/-- The complaints that one step added: only the last of them can have stopped it. -/
def Addition.series (stopped : Bool) (ks : List Complaint) : List Addition :=
  ks.mapIdx fun i k => ⟨k, stopped && i + 1 == ks.length⟩

/-- What steps add to the report with this name, in order. -/
def Session.additions (I : Interpretation) (name : String) : Session → List Step → List Addition
  | _, [] => []
  | s, st :: rest =>
    Addition.series (s.step I st).1.isStopped (((s.step I st).2.issues name).drop (s.issues name).length)
      ++ additions I name (s.step I st).2 rest

/-- What a step may do to the report with this name under a cap. -/
structure Session.Obeys (I : Interpretation) (name : String) (cap? : Option Int) (s : Session) (st : Step) : Prop where
  /-- Only a step that is there to add to the report changes it. -/
  idle : st.addsTo name = false → (s.step I st).2.issues name = s.issues name
  /-- A grievance that can be put in words is added, the one that reaches the cap included. -/
  raised : ∀ g, st = .raise name g →
    (s.step I st).2.issues name = s.issues name ++ (Stepping.word g s).1.toOption.toList
  raised_stopped : ∀ g k, st = .raise name g → (Stepping.word g s).1 = .ok k →
    ((s.step I st).1.isStopped = true ↔ cap? = some ((s.issues name).length + 1 : Int))
  /-- A check that is not stopped does what it does without a cap. -/
  checked : ∀ of, st = .check of name → (s.step I st).1.isStopped = false →
    (s.step I st).2.issues name = ((s.uncapped name).step I st).2.issues name ∧
      (s.step I st).1.result = ((s.uncapped name).step I st).1.result
  /-- A check that is stopped adds what it adds without a cap up to the complaint that reaches it. -/
  checked_stopped : ∀ of, st = .check of name → (s.step I st).1.isStopped = true →
    ∃ cap : Int, cap? = some cap ∧ (s.issues name).length < cap ∧
      cap ≤ (((s.uncapped name).step I st).2.issues name).length ∧
      (s.step I st).2.issues name = (((s.uncapped name).step I st).2.issues name).take cap.toNat

variable {I : Interpretation} {name : String} {s : Session} {r : Report} {st : Step} {ks : List Complaint}

lemma Addition.map_series (stopped : Bool) (ks : List Complaint) : (series stopped ks).map complaint = ks := by
  apply List.ext_getElem?
  intro i
  simp only [series, List.getElem?_map, List.getElem?_mapIdx, Option.map_map]
  exact Option.map_id'

lemma Session.StepAdditions.issues (h : s.StepAdditions I name st r ks) :
    (s.step I st).2.issues name = r.issues ++ r.taken ks := issues_of_lookup h.report

/-- The complaint that stops a step is the one whose number is the cap. -/
lemma Session.StepAdditions.stops_iff (h : s.StepAdditions I name st r ks) {i : Nat} {e : Addition}
    (he : (Addition.series (s.step I st).1.isStopped (r.taken ks))[i]? = some e) :
    e.stops = true ↔ r.cap? = some ((r.issues.length + i : Nat) + 1 : Int) := by
  simp only [Addition.series, List.getElem?_mapIdx, Option.map_eq_some_iff] at he
  obtain ⟨k, hk, rfl⟩ := he
  obtain ⟨hi, -⟩ := List.getElem?_eq_some_iff.mp hk
  have hne : ks ≠ [] := by
    rintro rfl
    rw [Report.taken_of_room r.hasRoom_zero] at hi
    exact absurd hi (Nat.not_lt_zero i)
  have hadds : st.addsTo name = true := by
    by_contra hadds
    exact hne (h.unchanged (by simpa using hadds))
  have hstopped := h.stopped hadds hne
  simp only [Bool.and_eq_true, beq_iff_eq]
  by_cases hroom : r.HasRoom ks.length
  · rw [Report.taken_of_room hroom] at hi
    refine iff_of_false (fun hstop => hstopped.mp hstop.1 hroom) fun hcap => ?_
    have := hroom _ hcap
    omega
  · obtain ⟨cap, hcap, hlow, hhigh⟩ := Report.not_hasRoom_iff.mp hroom
    have hfull := Report.length_taken_of_full hcap hlow hhigh
    rw [hcap, Option.some.injEq, hstopped, and_iff_right hroom]
    omega

lemma Session.StepAdditions.obeys (hreport : s.reports.lookup name = some r) (h : s.StepAdditions I name st r ks) :
    s.Obeys I name r.cap? st := by
  have hheld := issues_of_lookup hreport
  refine ⟨fun hspared => ?_, fun g hg => ?_, fun g k hg hk => ?_, fun of hof hpassed => ?_, fun of hof hstop => ?_⟩
  · rw [h.issues, hheld, h.unchanged hspared, Report.taken_of_room r.hasRoom_zero, List.append_nil]
  · rw [h.issues, hheld, h.worded g hg]
    cases (Stepping.word g s).1 with
    | error fault => exact congrArg (r.issues ++ ·) (Report.taken_of_room r.hasRoom_zero)
    | ok k => exact congrArg (r.issues ++ ·) (r.taken_singleton k)
  · obtain rfl : ks = [k] := by simp [h.worded g hg, hk, Except.toOption]
    rw [h.stopped (by simp [hg, Step.addsTo]) (List.cons_ne_nil k []), hheld]
    exact Report.not_hasRoom_one_iff
  · obtain ⟨hfree, hstopped, hsame⟩ := h.checked of hof
    have hroom : r.HasRoom ks.length := by
      by_contra hfull
      rw [hstopped.mpr hfull] at hpassed
      cases hpassed
    exact ⟨by rw [h.issues, hfree, Report.taken_of_room hroom], hsame hroom⟩
  · obtain ⟨hfree, hstopped, -⟩ := h.checked of hof
    obtain ⟨cap, hcap, hlow, hhigh⟩ := Report.not_hasRoom_iff.mp (hstopped.mp hstop)
    refine ⟨cap, hcap, by rwa [hheld], ?_, ?_⟩
    · rw [hfree, List.length_append]
      exact_mod_cast hhigh
    · rw [h.issues, hfree, List.take_append, List.take_of_length_le (by omega)]
      simp only [Report.taken, hcap, if_pos hlow]
      congr 2
      omega

lemma Session.StepAdditions.additions_cons (hreport : s.reports.lookup name = some r)
    (h : s.StepAdditions I name st r ks) (rest : List Step) :
    s.additions I name (st :: rest) =
      Addition.series (s.step I st).1.isStopped (r.taken ks) ++ (s.step I st).2.additions I name rest := by
  rw [Session.additions, h.issues, issues_of_lookup hreport, List.drop_left]

/-- What steps add to a report, one after another. -/
lemma Session.history {steps : List Step} (hreport : s.reports.lookup name = some r)
    (hsteps : ∀ st ∈ steps, st.renews name = false) :
    ∃ ks, (s.after I steps).reports.lookup name = some (r.addAll ks) ∧
      ks = (s.additions I name steps).map Addition.complaint ∧
      ∀ k e, (s.additions I name steps)[k]? = some e →
        (e.stops = true ↔ r.cap? = some ((r.issues.length + k : Nat) + 1 : Int)) := by
  induction steps generalizing s r with
  | nil =>
    refine ⟨[], ?_, rfl, fun k e he => ?_⟩
    · rw [Report.addAll_nil]
      exact hreport
    · simp [Session.additions] at he
  | cons st steps ih =>
    obtain ⟨hst, hrest⟩ := List.forall_mem_cons.mp hsteps
    obtain ⟨new, hstep⟩ := exists_stepAdditions (I := I) hreport hst
    obtain ⟨ks, hafter, hks, hstops⟩ := ih hstep.report hrest
    refine ⟨r.taken new ++ ks, ?_, ?_, fun k e he => ?_⟩
    · rw [← Report.addAll_addAll]
      exact hafter
    · rw [hstep.additions_cons hreport, List.map_append, Addition.map_series, hks]
    · rw [hstep.additions_cons hreport] at he
      have hlength : (Addition.series (s.step I st).1.isStopped (r.taken new)).length = (r.taken new).length :=
        List.length_mapIdx
      by_cases hk : k < (r.taken new).length
      · rw [List.getElem?_append_left (by omega)] at he
        exact hstep.stops_iff he
      · rw [List.getElem?_append_right (by omega), hlength] at he
        rw [hstops _ e he, Report.cap?_addAll, Report.issues_addAll, List.length_append]
        have hcount : r.issues.length + (r.taken new).length + (k - (r.taken new).length) = r.issues.length + k := by
          omega
        rw [hcount]

lemma Session.lookup_newReport (I : Interpretation) (s : Session) (name : String) (verbose : Bool)
    (cap? : Option Int) :
    (s.step I (.newReport name verbose cap?)).2.reports.lookup name = some (Report.new verbose cap?) := by
  change (putNamed name (Report.new verbose cap?) s.reports).lookup name = _
  rw [lookup_putNamed, if_pos rfl]

end Histories

/-- Over every run of steps a report holds what was added to it, in order; adding the `k`-th complaint stops a step
exactly if `k` is the cap, which happens once at most; and each step adds what it would add without the cap, except
that a check is left where it reaches the cap. -/
theorem Session.cap_stops_once (I : Interpretation) (s : Session) (name : String) (verbose : Bool) (cap? : Option Int)
    {steps : List Step} (hsteps : ∀ st ∈ steps, st.renews name = false) :
    let start := (s.step I (.newReport name verbose cap?)).2
    let additions := start.additions I name steps
    (start.after I steps).issues name = additions.map Addition.complaint ∧
      (∀ (k : Nat) (e : Addition), additions[k]? = some e → (e.stops = true ↔ cap? = some (k + 1 : Int))) ∧
      (∀ (j k : Nat) (d e : Addition), additions[j]? = some d → additions[k]? = some e →
        d.stops = true → e.stops = true → j = k) ∧
      ∀ before st after, steps = before ++ st :: after → (start.after I before).Obeys I name cap? st := by
  intro start additions
  have hstart := lookup_newReport I s name verbose cap?
  obtain ⟨ks, hafter, hks, hstops⟩ := history (I := I) hstart hsteps
  have hcap : ∀ (k : Nat) (e : Addition), additions[k]? = some e → (e.stops = true ↔ cap? = some (k + 1 : Int)) := by
    intro k e he
    have := hstops k e he
    simpa [Report.new] using this
  refine ⟨?_, hcap, fun j k d e hd he hj hk => ?_, fun before st after hsplit => ?_⟩
  · rw [issues_of_lookup hafter, Report.issues_addAll, hks]
    rfl
  · have hsame := ((hcap j d hd).mp hj).symm.trans ((hcap k e he).mp hk)
    have := Option.some.inj hsame
    omega
  · rw [hsplit] at hsteps
    obtain ⟨hbefore, hrest⟩ := List.forall_mem_append.mp hsteps
    obtain ⟨ks', hnow, -⟩ := history (I := I) hstart hbefore
    obtain ⟨new, hstep⟩ := exists_stepAdditions (I := I) hnow (hrest st List.mem_cons_self)
    exact hstep.obeys hnow

/-- A check of a type that is below and above itself reaches a cap of two with its first complaint; a second check
passes. -/
theorem Session.cap_stops_once_midway :
    let I := constantInterpretation true
    let start := (Session.initial.step I (.newReport "R" false (some 2))).2
    let before : List Step := [.construct (some "A") (.predicate (.named "f") (some "A")),
      .setEdges "A" .subsets ["A"], .setEdges "A" .supersets ["A"], .raise "R" (.noSuchType "B" "unbound")]
    let steps := before ++ [.check "A" "R", .check "A" "R"]
    (∀ st ∈ steps, st.renews "R" = false) ∧
      (start.additions I "R" steps).map Addition.stops = [false, true, false, false] ∧
      (start.after I steps).issues "R" = (start.additions I "R" steps).map Addition.complaint ∧
      (start.after I before).Obeys I "R" (some 2) (.check "A" "R") := by
  intro I start before steps
  have hsteps : ∀ st ∈ steps, st.renews "R" = false := by decide
  obtain ⟨hissues, -, -, hobeys⟩ := Session.cap_stops_once I Session.initial "R" false (some 2) hsteps
  exact ⟨hsteps, by decide +kernel, hissues, hobeys before _ _ rfl⟩

end StructuralTypes
