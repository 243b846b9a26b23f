import StructuralTypes.Proofs.CappedReports

/-!
# What an inspection refuses

The command line looks up the types that are named and reads the members before it says anything. If something is wrong
with them, that is all it speaks of, up to the tenth complaint.
-/

namespace StructuralTypes.CommandLine

section Validation

/-- What a name comes to: a type, or the complaint that there is none. -/
def Environment.lookUp (env : Environment) (text : String) : Attempt (Except Complaint Ty) := do
  let chars := text.toList
  let moduleName := chars.takeWhile (· ≠ ':')
  match chars.drop moduleName.length with
  | [] =>
    match env.prelude.types.lookup text with
    | some t => return .ok t
    | none => return .error (.noSuchType text ("The prelude has: " ++ ", ".intercalate Prelude.typeNames))
  | _ :: name =>
    match ← (Catalog.find env.modules (String.ofList moduleName) (String.ofList name)).run with
    | .ok (.type t) => return .ok t
    | .ok (.thing className) => return .error (.notAType text className)
    | .error why => return .error (.noSuchType text why)

/-- What a member comes to: the value that its text denotes, or the complaint that there is none. -/
def readMember (text : String) : Except Complaint (String × Value) :=
  match Json.read text with
  | .ok v => .ok (text, v)
  | .error flaw => .error (.badMember text (flaw.text text))

/-- What is looked up and read before anything is answered. -/
structure Request where
  target : Except Complaint Ty
  other? : Option (Except Complaint Ty)
  members : List (Except Complaint (String × Value))

/-- What the name of another type comes to. An empty one counts as none. -/
def Environment.lookUpOther (env : Environment) : Option String → Attempt (Option (Except Complaint Ty))
  | some text => if text.isEmpty then .ok none else (env.lookUp text).map some
  | none => .ok none

/-- What the arguments come to. -/
def Environment.request (env : Environment) (args : Arguments) (texts : List String) : Attempt Request := do
  return ⟨← env.lookUp args.target, ← env.lookUpOther args.other?, texts.map readMember⟩

/-- The complaint where there is one. -/
def flaw {α : Type} : Except Complaint α → List Complaint
  | .ok _ => []
  | .error k => [k]

namespace Request

/-- All complaints, in the order in which things are looked up and read. -/
def flaws (q : Request) : List Complaint :=
  flaw q.target ++ q.other?.toList.flatMap flaw ++ q.members.flatMap flaw

/-- What is left to do once the complaints are recorded. -/
def settle (q : Request) (env : Environment) (args : Arguments) : Work Bool := do
  match q.target.toOption with
  | some target =>
    if (← get).report.isSick then
      Work.complainToConsole
      return false
    answer env args target (q.other?.bind Except.toOption) (q.members.filterMap Except.toOption)
  | none =>
    Work.complainToConsole
    return false

end Request

variable {env : Environment} {args : Arguments} {texts : List String} {q : Request}

lemma complain_flaw (k : Complaint) : (do
    Work.complain k
    return (none : Option Ty)) = (do
      (flaw (.error k : Except Complaint Ty)).forM Work.complain
      return (Except.error k : Except Complaint Ty).toOption) := by
  simp [flaw, Except.toOption]

/-- Resolving a name is looking it up, with the complaint recorded. -/
lemma resolve_of_lookUp {text : String} {found : Except Complaint Ty} (h : env.lookUp text = .ok found) :
    resolve env text = (do
      (flaw found).forM Work.complain
      return found.toOption) := by
  unfold Environment.lookUp at h
  unfold resolve
  dsimp only at h ⊢
  cases hname : text.toList.drop (text.toList.takeWhile (· ≠ ':')).length with
  | nil =>
    simp only [hname] at h ⊢
    cases hprelude : env.prelude.types.lookup text with
    | some t =>
      rw [hprelude] at h
      cases h
      rfl
    | none =>
      rw [hprelude] at h
      cases h
      exact complain_flaw _
  | cons colon name =>
    simp only [hname] at h ⊢
    cases hfind : (Catalog.find env.modules (String.ofList (text.toList.takeWhile (· ≠ ':')))
      (String.ofList name)).run with
    | error fault =>
      rw [hfind] at h
      cases h
    | ok result =>
      rw [hfind] at h
      have hfound : ∀ {α : Type} (f : Except String Found → Work α), Work.ofAttempt (.ok result) >>= f = f result :=
        fun _ => rfl
      rw [hfound]
      cases result with
      | error why =>
        cases h
        exact complain_flaw _
      | ok found =>
        cases found with
        | type t =>
          cases h
          rfl
        | thing className =>
          cases h
          exact complain_flaw _

/-- Reading members is reading each, with the complaints recorded. -/
lemma readMembers_eq (texts : List String) : readMembers (texts.map some) = (do
    ((texts.map readMember).flatMap flaw).forM Work.complain
    return (texts.map readMember).filterMap Except.toOption) := by
  induction texts with
  | nil => rfl
  | cons text texts ih =>
    rw [List.map_cons, readMembers]
    cases hread : Json.read text with
    | ok v =>
      have hmember : readMember text = .ok (text, v) := by rw [readMember, hread]
      simp [hmember, flaw, ih, Except.toOption]
    | error bad =>
      have hmember : readMember text = .error (.badMember text (bad.text text)) := by rw [readMember, hread]
      simp [hmember, flaw, ih, Except.toOption, List.filterMap_cons]

/-- Resolves the name of another type, if there is one. -/
def resolveOther (env : Environment) : Option String → Work (Option Ty)
  | some text => if text.isEmpty then pure none else resolve env text
  | none => pure none

lemma resolveOther_of_lookUp {name? : Option String} {other? : Option (Except Complaint Ty)}
    (h : env.lookUpOther name? = .ok other?) : resolveOther env name? = (do
      (other?.toList.flatMap flaw).forM Work.complain
      return other?.bind Except.toOption) := by
  cases name? with
  | none =>
    cases h
    rfl
  | some text =>
    rw [Environment.lookUpOther] at h
    rw [resolveOther]
    by_cases hempty : text.isEmpty = true
    · rw [if_pos hempty] at h ⊢
      cases h
      rfl
    · rw [if_neg hempty] at h ⊢
      cases hfound : env.lookUp text with
      | error fault =>
        rw [hfound] at h
        cases h
      | ok found =>
        rw [hfound] at h
        cases h
        rw [resolve_of_lookUp hfound]
        simp

/-- What is asked for is looked up and read, member by member. -/
lemma Environment.request_inv (h : env.request args texts = .ok q) : ∃ target other?,
    env.lookUp args.target = .ok target ∧ env.lookUpOther args.other? = .ok other? ∧
      q = ⟨target, other?, texts.map readMember⟩ := by
  unfold Environment.request at h
  cases htarget : env.lookUp args.target with
  | error fault =>
    rw [htarget] at h
    cases h
  | ok target =>
    cases hother : env.lookUpOther args.other? with
    | error fault =>
      rw [htarget, hother] at h
      cases h
    | ok other? =>
      rw [htarget, hother] at h
      exact ⟨target, other?, rfl, rfl, (Except.ok.inj h).symm⟩

/-- Nothing is done before everything is looked up, read and complained about. -/
lemma inspect_eq (hmembers : args.members = texts.map some) (hrequest : env.request args texts = .ok q) :
    inspect env args = (do
      q.flaws.forM Work.complain
      q.settle env args) := by
  obtain ⟨target, other?, htarget, hother, rfl⟩ := Environment.request_inv hrequest
  have hstart : inspect env args = (do
      let target? ← resolve env args.target
      let other? ← resolveOther env args.other?
      inspectRest env args target? other?) := by
    unfold inspect
    congr 1
    funext target?
    cases args.other? with
    | none => rfl
    | some text =>
      dsimp only [resolveOther]
      by_cases hempty : text.isEmpty = true
      · rw [if_pos hempty, if_pos hempty]
        rfl
      · rw [if_neg hempty, if_neg hempty]
        rfl
  rw [hstart, resolve_of_lookUp htarget, resolveOther_of_lookUp hother]
  unfold inspectRest
  rw [hmembers, readMembers_eq]
  simp only [bind_assoc, pure_bind, Request.flaws, List.forM_eq_forM, List.forM_append]
  rfl

end Validation

/-- What is said when the cap is reached. -/
def capMessage : String := "Giving up after a few issues. One crisis at a time, eh?"

section Refusal

variable {env : Environment} {args : Arguments} {texts : List String} {q : Request}

/-- The report that an inspection starts with. -/
def blankReport (args : Arguments) : Report := .new (1 < args.checks) (some issueCap)

lemma blankReport_hasRoom_iff {count : Nat} : (blankReport args).HasRoom count ↔ count < 10 := by
  constructor
  · intro h
    have := h issueCap rfl
    simp only [blankReport, Report.new, List.length_nil, issueCap] at this
    omega
  · intro h cap hcap
    obtain rfl : issueCap = cap := Option.some.inj hcap
    simp only [blankReport, Report.new, List.length_nil, issueCap]
    omega

/-- The run of an inspection, from a blank report. -/
lemma run_apply (env : Environment) (args : Arguments) (w : Workbench) :
    run env args w = (tryCatch (do return if ← inspect env args then 0 else 1) handleOverflow)
      { w with report := blankReport args } := by
  rw [run_eq]
  rfl

lemma run_of_ok {w w' : Workbench} {good : Bool}
    (h : inspect env args { w with report := blankReport args } = (.ok good, w')) :
    run env args w = (.ok (if good then 0 else 1), w') := by
  rw [run_apply, tryCatch_apply, bind_of_ok h]
  rfl

lemma warnLine_apply (line : String) (w : Workbench) :
    Work.warnLine line w = (.ok (), { w with console := w.console.warn (line ++ "\n") }) := by
  rw [Console.warn, ← String.append_assoc]
  rfl

lemma warn_warn (c : Console) (first second : String) : (c.warn first).warn second = c.warn (first ++ second) := by
  simp only [Console.warn, String.append_assoc]

lemma run_of_overflow {w w' : Workbench}
    (h : inspect env args { w with report := blankReport args } = (.error .tooManyIssues, w')) :
    run env args w = (.ok 1, { w' with
      console := w'.console.warn (w'.report.complaintText w'.picks ++ (capMessage ++ "\n"))
      picks := if w'.report.isSick then w'.picks.drop 3 else w'.picks }) := by
  rw [run_apply, tryCatch_apply, bind_of_error h]
  dsimp only [handleOverflow]
  rw [bind_of_ok (complainToConsole_apply w'), bind_of_ok (warnLine_apply _ _), warn_warn]
  rfl

/-- Once there are complaints, nothing is answered. -/
lemma settle_of_sick {w : Workbench} (hsick : w.report.issues ≠ []) : q.settle env args w =
    (.ok false, { w with
      console := w.console.warn (w.report.complaintText w.picks)
      picks := w.picks.drop 3 }) := by
  have hsick' : w.report.isSick = true := by simp [Report.isSick, hsick]
  have hcomplain := complainToConsole_apply w
  rw [if_pos hsick'] at hcomplain
  unfold Request.settle
  cases q.target.toOption with
  | none =>
    dsimp only
    rw [bind_of_ok hcomplain]
    rfl
  | some target =>
    dsimp only
    rw [get_bind, if_pos hsick', bind_of_ok hcomplain]
    rfl

/-- Whatever is wrong with what is named or read is all that is spoken of. -/
lemma run_of_flaws (hmembers : args.members = texts.map some) (hrequest : env.request args texts = .ok q)
    (hflaws : q.flaws ≠ []) (w : Workbench) : ∃ after, run env args w = (.ok 1, after) ∧
      after.console.out = w.console.out ∧ after.report.issues = q.flaws.take 10 ∧
      after.console.err = w.console.err ++ after.report.complaintText w.picks ++
        (if 10 ≤ q.flaws.length then capMessage ++ "\n" else "") := by
  have hinspect := inspect_eq hmembers hrequest
  by_cases hcount : 10 ≤ q.flaws.length
  · have hfull : ¬(blankReport args).HasRoom q.flaws.length := by rw [blankReport_hasRoom_iff]; omega
    have hrun : inspect env args { w with report := blankReport args } = (.error .tooManyIssues,
        { w with report := (blankReport args).addAll (q.flaws.take 10) }) := by
      rw [hinspect]
      exact bind_of_error (Work.complainAll_of_full (w := { w with report := blankReport args }) hfull)
    refine ⟨_, run_of_overflow hrun, rfl, rfl, ?_⟩
    rw [if_pos hcount]
    exact (String.append_assoc ..).symm
  · have hroom : (blankReport args).HasRoom q.flaws.length := by rw [blankReport_hasRoom_iff]; omega
    have hrun : inspect env args { w with report := blankReport args } = (.ok false,
        { w with
          report := (blankReport args).addAll q.flaws
          console := w.console.warn (((blankReport args).addAll q.flaws).complaintText w.picks)
          picks := w.picks.drop 3 }) := by
      rw [hinspect, bind_of_ok (Work.complainAll_of_room (w := { w with report := blankReport args }) hroom)]
      exact settle_of_sick hflaws
    have hcount' : q.flaws.length ≤ 10 := by omega
    refine ⟨_, run_of_ok hrun, rfl, (List.take_of_length_le hcount').symm, ?_⟩
    rw [if_neg hcount, String.append_empty]
    rfl

end Refusal

end StructuralTypes.CommandLine
