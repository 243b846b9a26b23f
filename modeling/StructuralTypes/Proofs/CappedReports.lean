import StructuralTypes.Proofs.CycleReports
import StructuralTypes.Proofs.LastingEdges

/-!
# Reports with a cap

Work adds its complaints one at a time, and the one that reaches the cap stays in the report and stops the work. So
work with a cap does what it would do without one, up to the complaint that reaches the cap.
-/

namespace StructuralTypes

namespace Report

/-- The report with its cap lifted. -/
def uncapped (r : Report) : Report := { r with cap? := none }

/-- What a report takes of further complaints: all up to the one that reaches the cap. -/
def taken (r : Report) (ks : List Complaint) : List Complaint :=
  match r.cap? with
  | some cap => if r.issues.length < cap then ks.take (cap - r.issues.length).toNat else ks
  | none => ks

variable {r : Report} {ks ks' : List Complaint}

@[simp] lemma addAll_nil (r : Report) : r.addAll [] = r := by simp [addAll]

@[simp] lemma issues_addAll (r : Report) (ks : List Complaint) : (r.addAll ks).issues = r.issues ++ ks := rfl

@[simp] lemma cap?_addAll (r : Report) (ks : List Complaint) : (r.addAll ks).cap? = r.cap? := rfl

lemma uncapped_addAll (r : Report) (ks : List Complaint) : (r.addAll ks).uncapped = r.uncapped.addAll ks := rfl

lemma hasRoom_zero (r : Report) : r.HasRoom 0 := by
  intro cap _
  omega

/-- A report without room has a cap that one of the further complaints reaches. -/
lemma not_hasRoom_iff {count : Nat} : ¬r.HasRoom count ↔
    ∃ cap : Int, r.cap? = some cap ∧ r.issues.length < cap ∧ cap ≤ r.issues.length + count := by
  constructor
  · intro h
    by_contra hnone
    refine h fun cap hcap => ?_
    by_contra hreached
    exact hnone ⟨cap, hcap, by omega, by omega⟩
  · rintro ⟨cap, hcap, hlow, hhigh⟩ h
    have := h cap hcap
    omega

lemma hasRoom_append :
    r.HasRoom (ks ++ ks').length ↔ r.HasRoom ks.length ∧ (r.addAll ks).HasRoom ks'.length := by
  constructor
  · intro h
    refine ⟨fun cap hcap => ?_, HasRoom.addAll (by rwa [List.length_append] at h)⟩
    have := h cap hcap
    simp only [List.length_append] at this
    omega
  · rintro ⟨hfirst, hsecond⟩ cap hcap
    have := hfirst cap hcap
    have := hsecond cap hcap
    simp only [issues_addAll, List.length_append] at *
    omega

lemma taken_of_room (h : r.HasRoom ks.length) : r.taken ks = ks := by
  unfold taken
  split
  · rename_i cap hcap
    have := h cap hcap
    split
    · exact List.take_of_length_le (by omega)
    · rfl
  · rfl

/-- A report takes the complaint that reaches the cap. -/
lemma taken_singleton (r : Report) (k : Complaint) : r.taken [k] = [k] := by
  unfold taken
  split
  · split
    · exact List.take_of_length_le (by rw [List.length_singleton]; omega)
    · rfl
  · rfl

lemma not_hasRoom_one_iff : ¬r.HasRoom 1 ↔ r.cap? = some (r.issues.length + 1 : Int) := by
  rw [not_hasRoom_iff]
  constructor
  · rintro ⟨cap, hcap, hlow, hhigh⟩
    rw [hcap, Option.some.injEq]
    push_cast at hhigh
    omega
  · intro hcap
    exact ⟨_, hcap, by omega, by push_cast; omega⟩

lemma taken_append_of_room (h : r.HasRoom ks.length) : r.taken (ks ++ ks') = ks ++ (r.addAll ks).taken ks' := by
  unfold taken
  simp only [cap?_addAll, issues_addAll, List.length_append]
  split
  · rename_i cap hcap
    rcases h cap hcap with hpast | hbelow
    · rw [if_neg (by omega), if_neg (by omega)]
    · rw [if_pos (by omega), if_pos (by omega), List.take_append, List.take_of_length_le (by omega)]
      congr 2
      omega
  · rfl

lemma taken_append_of_full (h : ¬r.HasRoom ks.length) : r.taken (ks ++ ks') = r.taken ks := by
  obtain ⟨cap, hcap, hlow, hhigh⟩ := not_hasRoom_iff.mp h
  simp only [taken, hcap, if_pos hlow]
  exact List.take_append_of_le_length (by omega)

/-- What a report takes of complaints that reach the cap fills it up to the cap. -/
lemma length_taken_of_full {cap : Int} (hcap : r.cap? = some cap) (hlow : r.issues.length < cap)
    (hhigh : cap ≤ r.issues.length + ks.length) : (r.issues.length + (r.taken ks).length : Int) = cap := by
  simp only [taken, hcap, if_pos hlow, List.length_take]
  omega

end Report

section Causes

variable {α β : Type}

/-- No cap is the cause where the attempt fails. -/
def Attempt.Unstopped (a : Attempt α) : Prop := a ≠ .error .tooManyIssues

/-- No cap is the cause where the computation fails. -/
def Unstopped {σ : Type} (x : ExceptT Fault (StateM σ) α) : Prop := ∀ s, Attempt.Unstopped (x s).1

namespace Attempt.Unstopped

lemma ok (a : α) : Attempt.Unstopped (.ok a) := fun h => by cases h

lemma bind {a : Attempt α} {f : α → Attempt β} (ha : a.Unstopped) (hf : ∀ b, (f b).Unstopped) :
    Attempt.Unstopped (a >>= f) := by
  cases a with
  | error fault => exact fun h => ha (congrArg Except.error (Except.error.inj h))
  | ok b => exact hf b

lemma mapM {f : α → Attempt β} (hf : ∀ a, (f a).Unstopped) (as : List α) : Attempt.Unstopped (as.mapM f) := by
  induction as with
  | nil => exact ok _
  | cons a as ih =>
    rw [List.mapM_cons]
    exact (hf a).bind fun _ => ih.bind fun _ => ok _

lemma names (t : Ty) : t.names.Unstopped := by
  unfold Ty.names
  split <;> exact fun h => by cases h

lemma name (t : Ty) : t.name.Unstopped := by
  apply (names t).bind
  intro names
  split <;> exact fun h => by cases h

lemma canonicalName (t : Ty) : t.canonicalName.Unstopped := by
  apply (names t).bind
  intro names
  split <;> exact fun h => by cases h

lemma firstDoc (t : Ty) : t.firstDoc.Unstopped := by
  have hdocs : t.docs.Unstopped := by
    unfold Ty.docs
    split <;> exact fun h => by cases h
  apply hdocs.bind
  intro docs
  split <;> exact fun h => by cases h

lemma expect (feature : Feature) (r : Referent) : (r.expect feature).Unstopped := by
  cases r <;> exact fun h => by cases h

lemma checkHashable (r : Referent) : r.checkHashable.Unstopped := by
  cases r with
  | type t => exact ok _
  | plain handle v =>
    rw [Referent.checkHashable, Value.checkHashable]
    split <;> exact fun h => by cases h

lemma display (r : Referent) : r.display.Unstopped := by
  cases r with
  | type t => exact name t
  | plain handle v => exact ok _

lemma cyclicLattice (edge : String) (cycle : List Referent) : (Complaint.cyclicLattice edge cycle).Unstopped :=
  (mapM display cycle).bind fun _ => ok _

end Attempt.Unstopped

namespace Unstopped

lemma pure {σ : Type} (a : α) : Unstopped (Pure.pure a : ExceptT Fault (StateM σ) α) := fun _ => .ok a

lemma bind {σ : Type} {x : ExceptT Fault (StateM σ) α} {f : α → ExceptT Fault (StateM σ) β} (hx : Unstopped x)
    (hf : ∀ a, Unstopped (f a)) : Unstopped (x >>= f) := by
  intro s
  have hfirst := hx s
  rcases hrun : x s with ⟨fault | a, s'⟩ <;> rw [hrun] at hfirst
  · rw [bind_of_error hrun]
    exact fun h => hfirst (congrArg Except.error (Except.error.inj h))
  · rw [bind_of_ok hrun]
    exact hf a s'

lemma mapM {σ : Type} {f : α → ExceptT Fault (StateM σ) β} (hf : ∀ a, Unstopped (f a)) (as : List α) :
    Unstopped (as.mapM f) := by
  induction as with
  | nil => exact pure _
  | cons a as ih =>
    rw [List.mapM_cons]
    exact (hf a).bind fun _ => ih.bind fun _ => pure _

lemma foldlM {σ : Type} {f : β → α → ExceptT Fault (StateM σ) β} (hf : ∀ b a, Unstopped (f b a)) (as : List α)
    (b : β) : Unstopped (as.foldlM f b) := by
  induction as generalizing b with
  | nil => exact pure b
  | cons a as ih =>
    rw [List.foldlM_cons]
    exact (hf b a).bind ih

lemma attempt {a : Attempt α} (ha : a.Unstopped) : Unstopped (Build.ofAttempt a) := fun _ => ha

lemma container (outer : Referent) (extractor : Fn) (inner : Referent) :
    Unstopped (Build.container outer extractor inner) := by
  have hserial : Unstopped Build.takeSerial := fun _ => .ok _
  have hregister : Unstopped (Build.register .pending) := fun _ => .ok _
  apply hserial.bind
  intro serial
  apply (attempt (.expect _ outer)).bind
  intro outerType
  apply (attempt (.canonicalName outerType)).bind
  intro outerName
  apply (attempt (.expect _ inner)).bind
  intro innerType
  apply (attempt (.canonicalName innerType)).bind
  intro innerName
  apply (attempt (.firstDoc outerType)).bind
  intro outerDoc
  apply (attempt (.firstDoc innerType)).bind
  intro innerDoc
  exact hregister.bind fun _ => pure _

lemma kept (d : Direction) (id : Nat) {work : Build (List Referent)} (hwork : Unstopped work) :
    Unstopped (Build.kept d id work) := by
  intro l
  have hfirst := hwork l
  cases hstored : l.stored? d id with
  | some rs =>
    rw [Build.kept_of_stored hstored]
    exact .ok rs
  | none =>
    rcases hrun : work l with ⟨fault | rs, l'⟩ <;> rw [hrun] at hfirst
    · rw [Build.kept_of_error hstored hrun]
      exact fun h => hfirst (congrArg Except.error (Except.error.inj h))
    · rw [Build.kept_of_ok hstored hrun]
      exact .ok rs

lemma edges (d : Direction) (t : Ty) : Unstopped (t.edges d) := by
  have hcontainer : ∀ (o : Referent) (extractor : Fn) (i : Referent),
      Unstopped (do return Referent.type (← Build.container o extractor i)) :=
    fun o extractor i => (container o extractor i).bind fun _ => pure _
  induction t generalizing d with
  | unary label outer extractor inner iho ihi =>
    cases d with
    | subsets =>
      rw [Ty.edges]
      apply kept
      apply (iho .subsets).bind
      intro outers
      apply (ihi .subsets).bind
      intro inners
      refine (mapM (fun o => ?_) _).bind fun _ => pure _
      exact mapM (fun i => hcontainer o extractor i) _
    | supersets =>
      rw [Ty.edges]
      apply kept
      apply (ihi .supersets).bind
      intro inners
      exact (mapM (fun i => hcontainer (.type outer) extractor i) _).bind fun _ => pure _
  | _ => cases d <;> exact kept _ _ (pure _)

lemma explore (d : Direction) (depth : Nat) (g : Reach) (r : Referent) : Unstopped (Build.explore d depth g r) := by
  induction depth generalizing g r with
  | zero => exact fun _ h => by cases h
  | succ depth ih =>
    rw [Build.explore]
    apply (attempt (.checkHashable r)).bind
    intro _
    split
    · exact pure _
    · have hedges : Unstopped (r.edges d) := (attempt (.expect _ r)).bind (edges d)
      apply hedges.bind
      intro nodes
      exact foldlM ih _ _

lemma reachable (d : Direction) (root : Referent) : Unstopped (Build.reachable d root) :=
  fun l => Build.unlimited_induction (P := fun outcome => outcome.1 ≠ .error .tooManyIssues)
    (fun depth => explore d depth [] root l) (by simp)

end Unstopped

end Causes

section Recording

variable {w : Workbench} {ks : List Complaint}

lemma Work.complain_of_full (h : ¬w.report.HasRoom 1) (k : Complaint) :
    Work.complain k w = (.error .tooManyIssues, { w with report := w.report.add k }) := by
  have hisFull : (w.report.add k).isFull = true := by
    simp only [Report.isFull, Report.add, List.length_append, decide_eq_true_eq]
    exact_mod_cast Report.not_hasRoom_one_iff.mp h
  unfold Work.complain
  rw [get_bind]
  simp only [hisFull]
  rfl

lemma Work.complainAll_of_room (h : w.report.HasRoom ks.length) :
    ks.forM Work.complain w = (.ok (), { w with report := w.report.addAll ks }) := by
  induction ks generalizing w with
  | nil =>
    rw [Report.addAll_nil]
    rfl
  | cons k ks ih =>
    have hsplit : w.report.HasRoom ([k] ++ ks).length := h
    obtain ⟨hfirst, hrest⟩ := Report.hasRoom_append.mp hsplit
    change (Work.complain k >>= fun _ => ks.forM Work.complain) w = _
    rw [bind_of_ok (Work.complain_of_room (n := 0) hfirst k)]
    exact (ih (w := { w with report := w.report.addAll [k] }) hrest).trans (by rw [Report.addAll_addAll]; rfl)

/-- Of complaints that reach the cap the report takes those up to it. -/
lemma Work.complainAll_of_full (h : ¬w.report.HasRoom ks.length) :
    ks.forM Work.complain w = (.error .tooManyIssues, { w with report := w.report.addAll (w.report.taken ks) }) := by
  induction ks generalizing w with
  | nil => exact absurd w.report.hasRoom_zero h
  | cons k ks ih =>
    change (Work.complain k >>= fun _ => ks.forM Work.complain) w = _
    have hcons : k :: ks = [k] ++ ks := rfl
    by_cases hfirst : w.report.HasRoom [k].length
    · have hrest : ¬(w.report.addAll [k]).HasRoom ks.length :=
        fun hrest => h (Report.hasRoom_append.mpr ⟨hfirst, hrest⟩)
      rw [bind_of_ok (Work.complain_of_room (n := 0) hfirst k), hcons, Report.taken_append_of_room hfirst,
        ← Report.addAll_addAll]
      exact ih (w := { w with report := w.report.addAll [k] }) hrest
    · rw [bind_of_error (Work.complain_of_full hfirst k), hcons, Report.taken_append_of_full hfirst,
        Report.taken_singleton]
      rfl

end Recording

/-- The workbench with the cap of its report lifted. -/
def Workbench.uncapped (w : Workbench) : Workbench := { w with report := w.report.uncapped }

/-- Work that adds complaints, if any, one at a time, and that nothing but a cap stops: with a cap it does what it
does without one, unless a complaint reaches the cap. -/
def RespectsCap {α : Type} (x : Work α) : Prop :=
  ∀ w : Workbench, Attempt.Unstopped (x w.uncapped).1 ∧
    ∃ ks, (x w.uncapped).2.report = w.report.uncapped.addAll ks ∧
      (w.report.HasRoom ks.length →
        x w = ((x w.uncapped).1, { (x w.uncapped).2 with report := w.report.addAll ks })) ∧
      (¬w.report.HasRoom ks.length →
        ∃ w', x w = (.error .tooManyIssues, w') ∧ w'.report = w.report.addAll (w.report.taken ks))

namespace RespectsCap

variable {α β : Type} {x : Work α}

/-- Work that neither looks at the cap nor adds a complaint. -/
lemma of_kept (hresult : ∀ w, Attempt.Unstopped (x w).1) (hreport : ∀ w, (x w).2.report = w.report)
    (hcap : ∀ w, x w = ((x w.uncapped).1, { (x w.uncapped).2 with report := w.report })) : RespectsCap x := by
  intro w
  refine ⟨hresult _, [], ?_, fun _ => ?_, fun hfull => absurd w.report.hasRoom_zero hfull⟩
  · rw [hreport, Report.addAll_nil]
    rfl
  · rw [Report.addAll_nil]
    exact hcap w

lemma attempt {a : Attempt α} (ha : a.Unstopped) : RespectsCap (Work.ofAttempt a) :=
  of_kept (fun _ => ha) (fun _ => rfl) fun _ => rfl

lemma pure (a : α) : RespectsCap (Pure.pure a : Work α) := of_kept (fun _ => .ok a) (fun _ => rfl) fun _ => rfl

lemma ofBuild {x : Build α} (hx : Unstopped x) : RespectsCap (Work.ofBuild x) :=
  of_kept (fun w => hx w.lattice) (fun _ => rfl) fun _ => rfl

lemma inform (line : String) : RespectsCap (Work.inform line) := by
  have hrun : ∀ w, Work.inform line w = if w.report.verbose then Work.warnLine line w else (.ok (), w) := by
    intro w
    unfold Work.inform
    rw [get_bind]
    split <;> rfl
  refine of_kept (fun w => ?_) (fun w => ?_) fun w => ?_
  · rw [hrun]
    split <;> exact .ok _
  · rw [hrun]
    split <;> rfl
  · have hverbose : w.uncapped.report.verbose = w.report.verbose := rfl
    rw [hrun, hrun, hverbose]
    split <;> rfl

lemma complain (k : Complaint) : RespectsCap (Work.complain k) := by
  intro w
  have hfree : Work.complain k w.uncapped = (.ok (), { w with report := w.report.uncapped.addAll [k] }) :=
    Work.complain_of_room (n := 0) (fun cap hcap => by cases hcap) k
  rw [hfree]
  refine ⟨.ok _, [k], rfl, fun hroom => Work.complain_of_room (n := 0) hroom k, fun hfull => ?_⟩
  refine ⟨_, Work.complain_of_full hfull k, ?_⟩
  rw [Report.taken_singleton]
  rfl

/-- The rest of the work either starts where it would start without a cap, or not at all. -/
lemma bind {f : α → Work β} (hx : RespectsCap x) (hf : ∀ a, RespectsCap (f a)) : RespectsCap (x >>= f) := by
  intro w
  obtain ⟨hresult, ks, hreport, hroom, hfull⟩ := hx w
  rcases hfree : x w.uncapped with ⟨fault | a, u⟩ <;> rw [hfree] at hresult hreport hroom
  · rw [bind_of_error hfree]
    refine ⟨fun h => hresult (congrArg Except.error (Except.error.inj h)), ks, hreport,
      fun h => bind_of_error (hroom h), fun h => ?_⟩
    obtain ⟨w', hstop, hw'⟩ := hfull h
    exact ⟨w', bind_of_error hstop, hw'⟩
  · rw [bind_of_ok hfree]
    obtain ⟨hresult', ks', hreport', hroom', hfull'⟩ := hf a { u with report := w.report.addAll ks }
    have hstart : Workbench.uncapped { u with report := w.report.addAll ks } = u := by
      rw [Workbench.uncapped, Report.uncapped_addAll, ← hreport]
    rw [hstart] at hresult' hreport' hroom'
    refine ⟨hresult', ks ++ ks', ?_, fun h => ?_, fun h => ?_⟩
    · rw [hreport', Report.uncapped_addAll, Report.addAll_addAll]
    · obtain ⟨hfirst, hsecond⟩ := Report.hasRoom_append.mp h
      rw [bind_of_ok (hroom hfirst), hroom' hsecond, Report.addAll_addAll]
    · by_cases hfirst : w.report.HasRoom ks.length
      · have hsecond : ¬(w.report.addAll ks).HasRoom ks'.length :=
          fun hsecond => h (Report.hasRoom_append.mpr ⟨hfirst, hsecond⟩)
        obtain ⟨w', hstop, hw'⟩ := hfull' hsecond
        refine ⟨w', ?_, ?_⟩
        · rw [bind_of_ok (hroom hfirst), hstop]
        · rw [hw', Report.addAll_addAll, Report.taken_append_of_room hfirst]
      · obtain ⟨w', hstop, hw'⟩ := hfull hfirst
        refine ⟨w', bind_of_error hstop, ?_⟩
        rw [hw', Report.taken_append_of_full hfirst]

lemma forM {f : α → Work PUnit} (hf : ∀ a, RespectsCap (f a)) (as : List α) : RespectsCap (as.forM f) := by
  induction as with
  | nil => exact pure _
  | cons a as ih => exact (hf a).bind fun _ => ih

lemma checkDirection (root : Referent) (d : Direction) : RespectsCap (Work.checkDirection root d) := by
  apply (ofBuild (.reachable d root)).bind
  intro g
  apply (attempt (.display root)).bind
  intro shown
  apply (inform _).bind
  intro _
  exact forM (fun cycle => (attempt (.cyclicLattice d.text cycle)).bind complain) _

/-- A check of a lattice that reaches the cap is left midway, with the complaints up to there. -/
lemma checkLattice (root : Referent) : RespectsCap (Work.checkLattice root) :=
  (checkDirection root .subsets).bind fun _ => checkDirection root .supersets

/-- What is in the report afterwards, and when the work was stopped. -/
lemma outcome (hx : RespectsCap x) (w : Workbench) :
    ∃ ks, (x w.uncapped).2.report = w.report.uncapped.addAll ks ∧
      (x w).2.report = w.report.addAll (w.report.taken ks) ∧
      ((x w).1 = .error .tooManyIssues ↔ ¬w.report.HasRoom ks.length) ∧
      (w.report.HasRoom ks.length → (x w).1 = (x w.uncapped).1) := by
  obtain ⟨hresult, ks, hreport, hroom, hfull⟩ := hx w
  refine ⟨ks, hreport, ?_⟩
  by_cases h : w.report.HasRoom ks.length
  · rw [hroom h, Report.taken_of_room h]
    exact ⟨rfl, ⟨fun hstop => absurd hstop hresult, fun hstop => absurd h hstop⟩, fun _ => rfl⟩
  · obtain ⟨w', hstop, hw'⟩ := hfull h
    rw [hstop]
    exact ⟨hw', ⟨fun _ => h, fun _ => rfl⟩, fun hstop => absurd hstop h⟩

end RespectsCap

section Printing

/-- The console after more text on the standard error output. -/
def Console.warn (c : Console) (text : String) : Console := { c with err := c.err ++ text }

/-- What complaining prints: an outburst if there is anything to complain about, and each complaint below a rule. -/
def Report.complaintText (r : Report) (picks : List Int) : String :=
  (if r.isSick then String.ofList (List.replicate 60 '*') ++ "\n" ++ (Outburst.draw picks).1 ++ "\n" else "")
    ++ String.join (r.issues.map fun k => String.join (List.replicate 20 "  -") ++ "\n" ++ k.text ++ "\n")

lemma forM_warnLines (ks : List Complaint) (rule : String) (w : Workbench) :
    (ks.forM (fun k => do
      Work.warnLine rule
      Work.warnLine k.text) : Work PUnit) w =
      (.ok (), { w with
        console := w.console.warn (String.join (ks.map fun k => rule ++ "\n" ++ k.text ++ "\n")) }) := by
  induction ks generalizing w with
  | nil => simp [Console.warn, String.join_nil, pure_apply]
  | cons k ks ih =>
    change (ks.forM _ : Work PUnit) _ = _
    rw [ih]
    simp [Console.warn, String.join_cons, String.append_assoc]

/-- Complaining prints and uses up picks; it does nothing else and never fails. -/
lemma complainToConsole_apply (w : Workbench) : Work.complainToConsole w =
    (.ok (), { w with
      console := w.console.warn (w.report.complaintText w.picks)
      picks := if w.report.isSick then w.picks.drop 3 else w.picks }) := by
  unfold Work.complainToConsole
  rw [get_bind]
  dsimp only
  cases hsick : w.report.isSick with
  | false =>
    have hissues : w.report.issues = [] := by simpa [Report.isSick] using hsick
    simp [hissues, Report.complaintText, Console.warn, hsick]
    rfl
  | true =>
    have hissues : (!w.report.issues.isEmpty) = true := hsick
    rw [if_pos hissues]
    change (w.report.issues.forM _ : Work PUnit) _ = _
    rw [forM_warnLines]
    simp [Report.complaintText, Console.warn, hsick, String.append_assoc, Outburst.draw]

end Printing

end StructuralTypes
