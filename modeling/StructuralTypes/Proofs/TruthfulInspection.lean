import StructuralTypes.Proofs.CanonicalSessions
import StructuralTypes.Proofs.FailedConstructions
import StructuralTypes.Proofs.OperatorMeaning
import StructuralTypes.Proofs.RefusedInspections

/-!
# Truthful inspections

Once everything that is named has been found and read, an inspection prints what is asked for, in a fixed order. It may
still complain about cycles, and its status says whether it did.
-/

namespace StructuralTypes.CommandLine

section Checking

variable {α β : Type}

/-- The same lattice and the same report. -/
def SameLatticeAndReport (w w' : Workbench) : Prop := w.lattice = w'.lattice ∧ w.report = w'.report

/-- Only the lattice and the report decide what the work comes to. -/
def IgnoresConsole (x : Work α) : Prop :=
  ∀ w w', SameLatticeAndReport w w' → (x w).1 = (x w').1 ∧ SameLatticeAndReport (x w).2 (x w').2

namespace IgnoresConsole

lemma attempt (a : Attempt α) : IgnoresConsole (Work.ofAttempt a) := fun _ _ h => ⟨rfl, h⟩

lemma pure (a : α) : IgnoresConsole (Pure.pure a : Work α) := fun _ _ h => ⟨rfl, h⟩

lemma ofBuild (x : Build α) : IgnoresConsole (Work.ofBuild x) := by
  rintro w w' ⟨hlattice, hreport⟩
  unfold Work.ofBuild
  rw [hlattice]
  exact ⟨rfl, rfl, hreport⟩

lemma inform (line : String) : IgnoresConsole (Work.inform line) := by
  rintro w w' ⟨hlattice, hreport⟩
  obtain ⟨console, hrun⟩ := Work.inform_apply line w
  obtain ⟨console', hrun'⟩ := Work.inform_apply line w'
  rw [hrun, hrun']
  exact ⟨rfl, hlattice, hreport⟩

lemma complain (k : Complaint) : IgnoresConsole (Work.complain k) := by
  rintro w w' ⟨hlattice, hreport⟩
  by_cases hroom : w.report.HasRoom 1
  · rw [Work.complain_of_room (n := 0) hroom, Work.complain_of_room (n := 0) (hreport ▸ hroom), hreport]
    exact ⟨rfl, hlattice, rfl⟩
  · rw [Work.complain_of_full hroom, Work.complain_of_full (hreport ▸ hroom), hreport]
    exact ⟨rfl, hlattice, rfl⟩

lemma bind {x : Work α} {f : α → Work β} (hx : IgnoresConsole x) (hf : ∀ a, IgnoresConsole (f a)) :
    IgnoresConsole (x >>= f) := by
  intro w w' h
  obtain ⟨hresult, hafter⟩ := hx w w' h
  rcases hrun : x w with ⟨fault | a, u⟩ <;> rcases hrun' : x w' with ⟨fault' | a', u'⟩ <;>
    rw [hrun, hrun'] at hresult hafter <;> cases hresult
  · rw [bind_of_error hrun, bind_of_error hrun']
    exact ⟨rfl, hafter⟩
  · rw [bind_of_ok hrun, bind_of_ok hrun']
    exact hf a u u' hafter

lemma forM {f : α → Work PUnit} (hf : ∀ a, IgnoresConsole (f a)) (as : List α) :
    IgnoresConsole (as.forM f) := by
  induction as with
  | nil => exact pure _
  | cons a as ih => exact (hf a).bind fun _ => ih

lemma checkLattice (root : Referent) : IgnoresConsole (Work.checkLattice root) := by
  have hdirection : ∀ d, IgnoresConsole (Work.checkDirection root d) := by
    intro d
    apply (ofBuild _).bind
    intro g
    apply (attempt _).bind
    intro shown
    apply (inform _).bind
    intro _
    exact forM (fun cycle => (attempt _).bind complain) _
  exact (hdirection .subsets).bind fun _ => hdirection .supersets

end IgnoresConsole

/-- Nothing more is printed on the standard output. -/
def SameOutput (w w' : Workbench) : Prop := w'.console.out = w.console.out

instance : IsPreorder Workbench SameOutput where
  refl _ := rfl
  trans _ _ _ h h' := Eq.trans h' h

lemma sameOutput_checkLattice (root : Referent) : RelatesStates SameOutput (Work.checkLattice root) := by
  have hcomplain : ∀ k, RelatesStates SameOutput (Work.complain k) := by
    intro k w
    by_cases hroom : w.report.HasRoom 1
    · rw [Work.complain_of_room (n := 0) hroom]
      rfl
    · rw [Work.complain_of_full hroom]
      rfl
  have hinform : ∀ line, RelatesStates SameOutput (Work.inform line) := by
    intro line
    apply RelatesStates.get_bind
    intro w
    split
    · exact fun _ => rfl
    · exact .pure _
  have hattempt : ∀ {γ : Type} (a : Attempt γ), RelatesStates SameOutput (Work.ofAttempt a) := fun _ _ => rfl
  have hdirection : ∀ d, RelatesStates SameOutput (Work.checkDirection root d) := by
    intro d
    have hbuild : RelatesStates SameOutput (Work.ofBuild (Build.reachable d root)) := fun _ => rfl
    apply hbuild.bind
    intro g
    apply (hattempt _).bind
    intro shown
    apply (hinform _).bind
    intro _
    exact .forM (fun cycle => (hattempt _).bind hcomplain) _
  exact (hdirection .subsets).bind fun _ => hdirection .supersets

end Checking

section Answering

/-- What is printed first: the names, the outline if it is asked for, and a line for each member in order. -/
structure Opening (env : Environment) (args : Arguments) (target : Ty) (members : List (String × Value)) where
  name : String
  canonical : String
  drawing? : Option String
  lines : List String
  name_eq : target.name = .ok name
  canonical_eq : target.canonicalName = .ok canonical
  drawing_eq : drawing?.map Except.ok = if args.outline then some (target.outline Ty.defaultIndent) else none
  lines_eq : List.Forall₂ (fun member line => ∃ a, (target.has env.interpretation member.2).result = .ok a ∧
    line = member.1 ++ (if a.isTruthy then " ∈ " else " ∉ ") ++ name) members lines

/-- Lines, each of them ended. -/
def ended (lines : List String) : String := String.join (lines.map (· ++ "\n"))

def Opening.text {env : Environment} {args : Arguments} {target : Ty} {members : List (String × Value)}
    (o : Opening env args target members) : String :=
  ended ((o.name ++ " = " ++ o.canonical) :: o.drawing?.toList ++ o.lines)

/-- The lattice after a type has been compared with another one, where there is one, without meeting a cycle. -/
def Compared (target : Ty) (other? : Option Ty) (l l' : Lattice) : Prop :=
  match other? with
  | none => l' = l
  | some other => ∃ a b l₁, Build.supersedes (.type target) (.type other) l = (.ok a, l₁) ∧
    Build.supersedes (.type other) (.type target) l₁ = (.ok b, l')

/-- A question about containment that is answered, or that meets a cycle which can be named. -/
def AnsweredOrCyclic (answer : Attempt Bool) : Prop :=
  ∀ fault, answer = .error fault →
    ∃ sup sub k, fault = .cyclicLattice sup sub ∧ Complaint.cyclicLattice "edges" [sup, sub] = .ok k

lemma ne_error_of_isSome {α : Type} {x : Attempt α} (h : x.toOption.isSome = true) (fault : Fault) :
    x ≠ .error fault := by
  rintro rfl
  cases h

lemma answeredOrCyclic_of_isSome {answer : Attempt Bool} (h : answer.toOption.isSome = true) :
    AnsweredOrCyclic answer := fun fault hfault => absurd hfault (ne_error_of_isSome h fault)

/-- A workbench with nothing on it but a lattice and a report. -/
def idle (l : Lattice) (r : Report) : Workbench := ⟨l, r, ⟨"", ""⟩, [], []⟩

/-- What is asked can be answered: the types have names, no outline or membership test fails, nothing but a cycle ends
a comparison, and nothing but the cap of the report ends a check. -/
structure Answerable (env : Environment) (args : Arguments) (l : Lattice) (target : Ty) (other? : Option Ty)
    (members : List (String × Value)) : Prop where
  named : ∃ name canonical, target.name = .ok name ∧ target.canonicalName = .ok canonical
  other_named : ∀ other, other? = some other → ∃ name, other.name = .ok name
  drawn : args.outline = true → ∃ drawing, target.outline Ty.defaultIndent = .ok drawing
  tested : ∀ member ∈ members, ∃ a, (target.has env.interpretation member.2).result = .ok a
  compared : ∀ other, other? = some other → AnsweredOrCyclic (Build.supersedes (.type target) (.type other) l).1 ∧
    ∀ a l₁, Build.supersedes (.type target) (.type other) l = (.ok a, l₁) →
      AnsweredOrCyclic (Build.supersedes (.type other) (.type target) l₁).1
  checked : 0 < args.checks → ∀ l', Compared target other? l l' → ∀ fault,
    ((target :: other?.toList).forM (fun t => Work.checkLattice (.type t)) (idle l' (blankReport args))).1 =
      .error fault → fault = .tooManyIssues

/-- The result says whether there are complaints; only complaints end the work early. -/
def Truthful (run : Attempt Bool × Workbench) : Prop :=
  (∃ good, run.1 = .ok good ∧ (good = true ↔ run.2.report.issues = [])) ∨
    (run.1 = .error .tooManyIssues ∧ run.2.report.issues ≠ [])

/-- Some work that is truthful and at most adds to the standard output. -/
def Concludes (x : Work Bool) (w : Workbench) : Prop :=
  Truthful (x w) ∧ ∃ more, (x w).2.console.out = w.console.out ++ more

variable {env : Environment} {args : Arguments} {target other : Ty} {other? : Option Ty}
  {members : List (String × Value)} {w : Workbench}

lemma Concludes.of_ok {w' : Workbench} {good : Bool} {x : Work Bool} {more : String} (hrun : x w = (.ok good, w'))
    (hgood : good = true ↔ w'.report.issues = []) (hout : w'.console.out = w.console.out ++ more) :
    Concludes x w := by
  rw [Concludes, hrun]
  exact ⟨.inl ⟨good, rfl, hgood⟩, more, hout⟩

/-- A step that succeeds and at most adds to the standard output. -/
lemma Concludes.next {α : Type} {x : Work α} {f : α → Work Bool} {a : α} {w' : Workbench} {more : String}
    (hrun : x w = (.ok a, w')) (hout : w'.console.out = w.console.out ++ more) (h : Concludes (f a) w') :
    Concludes (x >>= f) w := by
  rw [Concludes, bind_of_ok hrun]
  obtain ⟨htruthful, rest, hrest⟩ := h
  exact ⟨htruthful, more ++ rest, by rw [hrest, hout, String.append_assoc]⟩

lemma sayLine_apply (line : String) (w : Workbench) : Work.sayLine line w =
    (.ok (), { w with console := { w.console with out := w.console.out ++ (line ++ "\n") } }) := by
  rw [← String.append_assoc]
  rfl

/-- What is said of the report after checks. -/
def closingWord : Work Bool := do
  if (← get).report.isSick then
    Work.complainToConsole
    return false
  Work.warnLine "Looks acyclic to me."
  return true

lemma closingWord_concludes (w : Workbench) : Concludes closingWord w := by
  by_cases hsick : w.report.isSick = true
  · have hrun : closingWord w = (.ok false, { w with
        console := w.console.warn (w.report.complaintText w.picks)
        picks := if w.report.isSick then w.picks.drop 3 else w.picks }) := by
      rw [closingWord, get_bind, if_pos hsick, bind_of_ok (complainToConsole_apply w)]
      rfl
    refine .of_ok hrun (iff_of_false Bool.false_ne_true fun hnone => ?_) (String.append_empty ..).symm
    have hnone' : w.report.issues = [] := hnone
    simp [Report.isSick, hnone'] at hsick
  · have hrun : closingWord w =
        (.ok true, { w with console := w.console.warn ("Looks acyclic to me." ++ "\n") }) := by
      rw [closingWord, get_bind, if_neg hsick, bind_of_ok (warnLine_apply _ w)]
      rfl
    have hnone : w.report.issues = [] := by simpa [Report.isSick] using hsick
    exact .of_ok hrun (iff_of_true rfl hnone) (String.append_empty ..).symm

/-- Checks that nothing but the cap ends early. -/
lemma checkTypes_concludes {types : List Ty} (h : ∀ fault, (types.forM (fun t => Work.checkLattice (.type t))
      (idle w.lattice w.report)).1 = .error fault → fault = .tooManyIssues) :
    Concludes (checkTypes types) w := by
  have hrespects : RespectsCap (types.forM fun t => Work.checkLattice (.type t)) :=
    .forM (fun t => .checkLattice (.type t)) types
  have houtput : RelatesStates SameOutput (types.forM fun t => Work.checkLattice (.type t)) :=
    .forM (fun t => sameOutput_checkLattice (.type t)) types
  have hignores : IgnoresConsole (types.forM fun t => Work.checkLattice (.type t)) :=
    .forM (fun t => .checkLattice (.type t)) types
  obtain ⟨hresult, -⟩ := hignores w (idle w.lattice w.report) ⟨rfl, rfl⟩
  obtain ⟨ks, -, hreport, hstopped, -⟩ := hrespects.outcome w
  have hout := houtput w
  rw [← hresult] at h
  rcases hrun : (types.forM fun t => Work.checkLattice (.type t)) w with ⟨fault | ⟨⟩, w'⟩
  · rw [hrun] at h hreport hstopped hout
    obtain rfl := h fault rfl
    have hfailed : checkTypes types w = (.error .tooManyIssues, w') := bind_of_error hrun
    rw [Concludes, hfailed]
    refine ⟨.inr ⟨rfl, ?_⟩, "", by rw [String.append_empty]; exact hout⟩
    obtain ⟨cap, hcap, hlow, hhigh⟩ := Report.not_hasRoom_iff.mp (hstopped.mp rfl)
    have hlength := Report.length_taken_of_full hcap hlow hhigh
    intro hnone
    rw [hreport, Report.issues_addAll, List.append_eq_nil_iff] at hnone
    rw [hnone.1, hnone.2] at hlength
    rw [hnone.1] at hlow
    exact absurd hlow (by rw [← hlength]; exact lt_irrefl _)
  · rw [hrun] at hout
    exact .next hrun (by rw [String.append_empty]; exact hout) (closingWord_concludes w')

section Comparing

variable {sup sub : Ty} {supName subName : String} {l' : Lattice}

/-- A comparison asks the lattice once both names are known. -/
lemma answerSupersedes_eq (hsup : sup.name = .ok supName) (hsub : sub.name = .ok subName) :
    answerSupersedes sup sub = (do
      let answer ← Work.ofBuild (Build.supersedes (.type sup) (.type sub))
      Work.sayLine (supName ++ " supersedes " ++ subName ++ ": " ++ (if answer then "True" else "False"))) := by
  rw [answerSupersedes, hsup, hsub]
  rfl

lemma answerSupersedes_of_ok {a : Bool} (hsup : sup.name = .ok supName) (hsub : sub.name = .ok subName)
    (h : Build.supersedes (.type sup) (.type sub) w.lattice = (.ok a, l')) :
    ∃ line, answerSupersedes sup sub w =
      (.ok (), { w with lattice := l', console := { w.console with out := w.console.out ++ line } }) := by
  have hbuild : Work.ofBuild (Build.supersedes (.type sup) (.type sub)) w = (.ok a, { w with lattice := l' }) := by
    rw [Work.ofBuild, h]
  rw [answerSupersedes_eq hsup hsub, bind_of_ok hbuild]
  exact ⟨_, sayLine_apply _ _⟩

lemma answerSupersedes_of_error {fault : Fault} (hsup : sup.name = .ok supName) (hsub : sub.name = .ok subName)
    (h : Build.supersedes (.type sup) (.type sub) w.lattice = (.error fault, l')) :
    answerSupersedes sup sub w = (.error fault, { w with lattice := l' }) := by
  have hbuild : Work.ofBuild (Build.supersedes (.type sup) (.type sub)) w =
      (.error fault, { w with lattice := l' }) := by
    rw [Work.ofBuild, h]
  rw [answerSupersedes_eq hsup hsub, bind_of_error hbuild]

/-- A cycle that is met is complained about, and the comparison says so. -/
lemma handleCycle_apply {sup sub : Referent} {k : Complaint} (hk : Complaint.cyclicLattice "edges" [sup, sub] = .ok k)
    (hroom : w.report.HasRoom 1) : ∃ w', handleCycle (.cyclicLattice sup sub) w = (.ok false, w') ∧
      w'.report.issues ≠ [] ∧ w'.console.out = w.console.out := by
  have hattempt : Work.ofAttempt (Complaint.cyclicLattice "edges" [sup, sub]) w = (.ok k, w) := by
    rw [hk]
    rfl
  rw [handleCycle, bind_of_ok hattempt, bind_of_ok (Work.complain_of_room (n := 0) hroom k),
    bind_of_ok (complainToConsole_apply _)]
  exact ⟨_, rfl, by simp [Report.add], rfl⟩

/-- A comparison prints both answers, or ends with a complaint about a cycle. -/
lemma compareBoth_outcome {name otherName : String} (hname : target.name = .ok name)
    (hother : other.name = .ok otherName) (hroom : w.report.HasRoom 1)
    (hfirst : AnsweredOrCyclic (Build.supersedes (.type target) (.type other) w.lattice).1)
    (hsecond : ∀ a l₁, Build.supersedes (.type target) (.type other) w.lattice = (.ok a, l₁) →
      AnsweredOrCyclic (Build.supersedes (.type other) (.type target) l₁).1) :
    ∃ good w' more, compareBoth target other w = (.ok good, w') ∧ w'.console.out = w.console.out ++ more ∧
      (good = true → w'.report = w.report ∧ Compared target (some other) w.lattice w'.lattice) ∧
      (good = false → w'.report.issues ≠ []) := by
  rw [compareBoth_eq, tryCatch_apply]
  rcases hrun : Build.supersedes (.type target) (.type other) w.lattice with ⟨fault | a, l₁⟩
  · obtain ⟨sup, sub, k, rfl, hk⟩ := hfirst fault (by rw [hrun])
    rw [bind_of_error (answerSupersedes_of_error hname hother hrun)]
    obtain ⟨w', hhandled, hissues, hout⟩ := handleCycle_apply (w := { w with lattice := l₁ }) hk hroom
    refine ⟨false, w', "", hhandled, ?_, fun hgood => ?_, fun _ => hissues⟩
    · rw [String.append_empty]
      exact hout
    · cases hgood
  · obtain ⟨line, hsaid⟩ := answerSupersedes_of_ok hname hother hrun
    rw [bind_of_ok hsaid]
    rcases hrun' : Build.supersedes (.type other) (.type target) l₁ with ⟨fault | b, l₂⟩
    · obtain ⟨sup, sub, k, rfl, hk⟩ := hsecond a l₁ hrun fault (by rw [hrun'])
      rw [bind_of_error (answerSupersedes_of_error
        (w := { w with lattice := l₁, console := { w.console with out := w.console.out ++ line } }) hother hname hrun')]
      obtain ⟨w', hhandled, hissues, hout⟩ := handleCycle_apply
        (w := { w with lattice := l₂, console := { w.console with out := w.console.out ++ line } }) hk hroom
      refine ⟨false, w', line, hhandled, hout, fun hgood => ?_, fun _ => hissues⟩
      cases hgood
    · obtain ⟨line', hsaid'⟩ := answerSupersedes_of_ok
        (w := { w with lattice := l₁, console := { w.console with out := w.console.out ++ line } }) hother hname hrun'
      rw [bind_of_ok hsaid']
      refine ⟨true, _, line ++ line', rfl, String.append_assoc .., fun _ => ⟨rfl, a, b, l₁, hrun, hrun'⟩, ?_⟩
      intro hgood
      cases hgood

end Comparing

/-- What is left to do after the members. -/
def answerLast (args : Arguments) (target : Ty) (other? : Option Ty) : Work Bool := do
  let compared ← match other? with
    | none => pure true
    | some other => compareBoth target other
  if !compared then return false
  if 0 < args.checks then checkTypes (target :: other?.toList) else return true

lemma answerLast_concludes (h : Answerable env args w.lattice target other? members)
    (hblank : w.report = blankReport args) : Concludes (answerLast args target other?) w := by
  -- Once the comparison is over, only checks are left, over the lattice as it is then.
  have hchecks : ∀ w' : Workbench, w'.report = w.report → Compared target other? w.lattice w'.lattice →
      Concludes (if 0 < args.checks then checkTypes (target :: other?.toList) else return true) w' := by
    intro w' hreport hcompared
    by_cases hcount : 0 < args.checks
    · rw [if_pos hcount]
      apply checkTypes_concludes
      rw [hreport, hblank]
      exact h.checked hcount w'.lattice hcompared
    · rw [if_neg hcount]
      have hissues : w'.report.issues = [] := by rw [hreport, hblank]; rfl
      exact .of_ok (pure_apply true w') (iff_of_true rfl hissues) (String.append_empty ..).symm
  have hroom : w.report.HasRoom 1 := hblank ▸ blankReport_hasRoom_iff.mpr (by decide)
  cases other? with
  | none => exact hchecks w rfl rfl
  | some other =>
    obtain ⟨name, canonical, hname, -⟩ := h.named
    obtain ⟨otherName, hother⟩ := h.other_named other rfl
    obtain ⟨hfirst, hsecond⟩ := h.compared other rfl
    obtain ⟨good, w', more, hrun, hout, htrue, hfalse⟩ := compareBoth_outcome hname hother hroom hfirst hsecond
    cases good with
    | true =>
      obtain ⟨hreport, hcompared⟩ := htrue rfl
      exact .next hrun hout (hchecks w' hreport hcompared)
    | false =>
      refine .next hrun hout (.of_ok (pure_apply false w') ?_ (String.append_empty ..).symm)
      exact iff_of_false Bool.false_ne_true (hfalse rfl)

lemma answerMember_apply {member : String × Value} {name : String} {a : Value} (hname : target.name = .ok name)
    (ha : (target.has env.interpretation member.2).result = .ok a) : answerMember env target member w =
      (.ok (), { w with
        calls := w.calls ++ (target.has env.interpretation member.2).calls
        console := { w.console with
          out := w.console.out ++ (member.1 ++ (if a.isTruthy then " ∈ " else " ∉ ") ++ name ++ "\n") } }) := by
  have htraced : Work.ofTraced (target.has env.interpretation member.2) w =
      (.ok a, { w with calls := w.calls ++ (target.has env.interpretation member.2).calls }) := by
    rw [Work.ofTraced, ha]
  rw [answerMember, bind_of_ok htraced, hname]
  exact sayLine_apply _ _

/-- One line for each member. -/
lemma answerMembers_apply {name : String} (hname : target.name = .ok name)
    (htested : ∀ member ∈ members, ∃ a, (target.has env.interpretation member.2).result = .ok a) :
    ∃ lines calls, List.Forall₂ (fun member line => ∃ a, (target.has env.interpretation member.2).result = .ok a ∧
        line = member.1 ++ (if a.isTruthy then " ∈ " else " ∉ ") ++ name) members lines ∧
      members.forM (answerMember env target) w =
        (.ok (), { w with calls, console := { w.console with out := w.console.out ++ ended lines } }) := by
  induction members generalizing w with
  | nil =>
    refine ⟨[], w.calls, .nil, ?_⟩
    rw [show ended [] = "" from rfl, String.append_empty]
    rfl
  | cons member members ih =>
    obtain ⟨⟨a, ha⟩, hrest⟩ := List.forall_mem_cons.mp htested
    have hfirst := answerMember_apply (w := w) hname ha
    obtain ⟨lines, calls, hlines, hrun⟩ := ih hrest
    refine ⟨_ :: lines, calls, .cons ⟨a, ha, rfl⟩ hlines, ?_⟩
    change (answerMember env target member >>= fun _ => members.forM (answerMember env target)) w = _
    rw [bind_of_ok hfirst, hrun]
    simp only [ended, List.map_cons, String.join_cons, String.append_assoc]

lemma sayLines_apply (lines : List String) (w : Workbench) : lines.forM Work.sayLine w =
    (.ok (), { w with console := { w.console with out := w.console.out ++ ended lines } }) := by
  induction lines generalizing w with
  | nil =>
    rw [show ended [] = "" from rfl, String.append_empty]
    rfl
  | cons line lines ih =>
    change (Work.sayLine line >>= fun _ => lines.forM Work.sayLine) w = _
    rw [bind_of_ok (sayLine_apply line w), ih]
    simp only [ended, List.map_cons, String.join_cons, String.append_assoc]

lemma ended_append (lines lines' : List String) : ended (lines ++ lines') = ended lines ++ ended lines' := by
  simp only [ended, List.map_append, String.join_append]

/-- The names and the outline come first, then the members, then the rest. -/
lemma answer_eq {name canonical : String} {drawing? : Option String} (hname : target.name = .ok name)
    (hcanonical : target.canonicalName = .ok canonical)
    (hdrawing : drawing?.map Except.ok = if args.outline then some (target.outline Ty.defaultIndent) else none) :
    answer env args target other? members = (do
      ((name ++ " = " ++ canonical) :: drawing?.toList).forM Work.sayLine
      members.forM (answerMember env target)
      answerLast args target other?) := by
  unfold answer
  rw [hname, hcanonical]
  cases houtline : args.outline with
  | true =>
    rw [houtline, if_pos rfl] at hdrawing
    obtain ⟨drawing, rfl, hdrawn⟩ := Option.map_eq_some_iff.mp hdrawing
    rw [← hdrawn]
    rfl
  | false =>
    rw [houtline, if_neg Bool.false_ne_true] at hdrawing
    rw [Option.map_eq_none_iff.mp hdrawing]
    rfl

/-- Where everything can be answered, the output starts with what is asked for and the result is true. -/
lemma answer_concludes (h : Answerable env args w.lattice target other? members)
    (hblank : w.report = blankReport args) : Truthful (answer env args target other? members w) ∧
      ∃ (o : Opening env args target members) (more : String),
        (answer env args target other? members w).2.console.out = w.console.out ++ o.text ++ more := by
  obtain ⟨name, canonical, hname, hcanonical⟩ := h.named
  obtain ⟨drawing?, hdrawing⟩ : ∃ drawing? : Option String,
      drawing?.map Except.ok = if args.outline then some (target.outline Ty.defaultIndent) else none := by
    cases houtline : args.outline with
    | true =>
      obtain ⟨drawing, hdrawn⟩ := h.drawn houtline
      exact ⟨some drawing, by rw [hdrawn]; rfl⟩
    | false => exact ⟨none, rfl⟩
  have hhead := sayLines_apply ((name ++ " = " ++ canonical) :: drawing?.toList) w
  obtain ⟨lines, calls, hlines, hmembers⟩ := answerMembers_apply (w := { w with console := { w.console with
    out := w.console.out ++ ended ((name ++ " = " ++ canonical) :: drawing?.toList) } }) hname h.tested
  obtain ⟨htruthful, more, hmore⟩ := answerLast_concludes (w := { w with calls, console := { w.console with
    out := w.console.out ++ ended ((name ++ " = " ++ canonical) :: drawing?.toList) ++ ended lines } }) h hblank
  rw [answer_eq hname hcanonical hdrawing, bind_of_ok hhead, bind_of_ok hmembers]
  refine ⟨htruthful, ⟨name, canonical, drawing?, lines, hname, hcanonical, hdrawing, hlines⟩, more, ?_⟩
  rw [hmore, Opening.text, ended_append]
  simp only [String.append_assoc]

end Answering

section Outcomes

variable {env : Environment} {args : Arguments} {texts : List String} {q : Request}

lemma exists_ok_of_flaw {α : Type} {r : Except Complaint α} (h : flaw r = []) : ∃ a, r = .ok a := by
  cases r with
  | ok a => exact ⟨a, rfl⟩
  | error k => cases h

lemma exists_members_of_flaws {α : Type} {rs : List (Except Complaint α)} (h : rs.flatMap flaw = []) :
    ∃ as : List α, rs = as.map .ok := by
  induction rs with
  | nil => exact ⟨[], rfl⟩
  | cons r rs ih =>
    rw [List.flatMap_cons, List.append_eq_nil_iff] at h
    obtain ⟨a, rfl⟩ := exists_ok_of_flaw h.1
    obtain ⟨as, rfl⟩ := ih h.2
    exact ⟨a :: as, rfl⟩

/-- Where nothing is wrong, everything that is named or read is there. -/
lemma Request.found (h : q.flaws = []) : ∃ target other? members,
    q = ⟨.ok target, Option.map .ok other?, List.map .ok members⟩ := by
  obtain ⟨target?, other?, members⟩ := q
  simp only [flaws, List.append_eq_nil_iff] at h
  obtain ⟨⟨htarget, hother⟩, hmembers⟩ := h
  obtain ⟨target, rfl⟩ := exists_ok_of_flaw htarget
  obtain ⟨members, rfl⟩ := exists_members_of_flaws hmembers
  cases other? with
  | none => exact ⟨target, none, members, rfl⟩
  | some result =>
    rw [Option.toList_some, List.flatMap_singleton] at hother
    obtain ⟨other, rfl⟩ := exists_ok_of_flaw hother
    exact ⟨target, some other, members, rfl⟩

lemma filterMap_map_ok {α : Type} (as : List α) :
    (as.map Except.ok : List (Except Complaint α)).filterMap Except.toOption = as := by
  rw [List.filterMap_map]
  exact List.filterMap_some

lemma settle_of_found {target : Ty} {other? : Option Ty} {members : List (String × Value)} {w : Workbench}
    (hissues : w.report.issues = []) :
    Request.settle ⟨.ok target, Option.map .ok other?, List.map .ok members⟩ env args w =
      answer env args target other? members w := by
  have hwell : ¬w.report.isSick = true := by simp [Report.isSick, hissues]
  have hother : (Option.map Except.ok other? : Option (Except Complaint Ty)).bind Except.toOption = other? := by
    cases other? <;> rfl
  unfold Request.settle
  rw [hother, filterMap_map_ok]
  dsimp only [Except.toOption]
  rw [get_bind, if_neg hwell]

lemma map_fst_of_readMembers {texts : List String} {members : List (String × Value)}
    (h : texts.map readMember = members.map .ok) : members.map Prod.fst = texts := by
  induction texts generalizing members with
  | nil =>
    rw [List.map_eq_nil_iff.mp h.symm]
    rfl
  | cons text texts ih =>
    obtain ⟨member, rest, rfl, hmember, hrest⟩ := List.map_eq_cons_iff.mp h.symm
    have hread : member.1 = text := by
      unfold readMember at hmember
      split at hmember
      · rw [Except.ok.inj hmember]
      · cases hmember
    rw [List.map_cons, hread, ih hrest.symm]

/-- The members that are read are those that are asked for, in order. -/
lemma map_fst_of_request {target : Except Complaint Ty} {other? : Option (Except Complaint Ty)}
    {members : List (String × Value)} (h : env.request args texts = .ok ⟨target, other?, members.map .ok⟩) :
    members.map Prod.fst = texts := by
  obtain ⟨_, _, -, -, hq⟩ := Environment.request_inv h
  exact map_fst_of_readMembers (Request.mk.inj hq).2.2.symm

/-- A run whose inspection tells the truth has a true status. -/
lemma run_of_truthful {w : Workbench} (h : Truthful (inspect env args { w with report := blankReport args })) :
    ∃ status after, run env args w = (.ok status, after) ∧ (status = 0 ∨ status = 1) ∧
      (status = 1 ↔ after.report.issues ≠ []) ∧
      after.console.out = (inspect env args { w with report := blankReport args }).2.console.out := by
  rcases hrun : inspect env args { w with report := blankReport args } with ⟨result, w'⟩
  rw [hrun] at h
  rcases h with ⟨good, rfl, hgood⟩ | ⟨rfl, hissues⟩
  · refine ⟨_, w', run_of_ok hrun, ?_, ?_, rfl⟩
    · cases good with
      | true => exact .inl rfl
      | false => exact .inr rfl
    · cases good with
      | true => exact iff_of_false Nat.zero_ne_one (not_not_intro (hgood.mp rfl))
      | false => exact iff_of_true rfl fun hnone => Bool.false_ne_true (hgood.mpr hnone)
  · exact ⟨1, _, run_of_overflow hrun, .inr rfl, iff_of_true rfl hissues, rfl⟩

end Outcomes

/-- An inspection looks up and reads everything before it prints, and its status tells whether it had anything to
complain about, provided that what is asked can be answered. -/
theorem run_truthful (env : Environment) (args : Arguments) (w : Workbench) {texts : List String} {q : Request}
    (hmembers : args.members = texts.map some) (hrequest : env.request args texts = .ok q)
    (hanswers : ∀ target other? members, q = ⟨.ok target, Option.map .ok other?, List.map .ok members⟩ →
      Answerable env args w.lattice target other? members) :
    ∃ status after, run env args w = (.ok status, after) ∧ (status = 0 ∨ status = 1) ∧
      (status = 1 ↔ after.report.issues ≠ []) ∧
      (q.flaws ≠ [] → after.console.out = w.console.out ∧ after.report.issues = q.flaws.take 10 ∧
        after.console.err = w.console.err ++ after.report.complaintText w.picks ++
          (if 10 ≤ q.flaws.length then capMessage ++ "\n" else "")) ∧
      (q.flaws = [] → ∃ target members, q.target = .ok target ∧ q.members = members.map .ok ∧
        members.map Prod.fst = texts ∧ ∃ (o : Opening env args target members) (more : String),
          after.console.out = w.console.out ++ o.text ++ more) := by
  by_cases hflaws : q.flaws = []
  · obtain ⟨target, other?, members, rfl⟩ := Request.found hflaws
    have hrun : inspect env args { w with report := blankReport args } =
        answer env args target other? members { w with report := blankReport args } := by
      rw [inspect_eq hmembers hrequest, hflaws]
      exact settle_of_found rfl
    obtain ⟨htruthful, o, more, hopening⟩ := answer_concludes (w := { w with report := blankReport args })
      (hanswers target other? members rfl) rfl
    rw [← hrun] at htruthful hopening
    obtain ⟨status, after, hstatus, hzeroOne, hcomplaints, hout⟩ := run_of_truthful htruthful
    exact ⟨status, after, hstatus, hzeroOne, hcomplaints, fun hsome => absurd hflaws hsome, fun _ =>
      ⟨target, members, rfl, rfl, map_fst_of_request hrequest, o, more, hout.trans hopening⟩⟩
  · obtain ⟨after, hrun, hout, hissues, herr⟩ := run_of_flaws hmembers hrequest hflaws w
    have hcomplaints : after.report.issues ≠ [] := by
      rw [hissues]
      exact fun hnone => hflaws ((List.take_eq_nil_iff.mp hnone).resolve_left (by decide))
    exact ⟨1, after, hrun, .inr rfl, iff_of_true rfl hcomplaints, fun _ => ⟨hout, hissues, herr⟩,
      fun hnone => absurd hnone hflaws⟩

section Inspections

/-- Integers among numbers, with an outline, a member, something that is none, and a check. -/
def integerArguments : Arguments := ⟨"Integer", [some "3", some "3.5"], some "Number", true, 1⟩

def integerEnvironment : Environment := ⟨(constantInterpretation true).withPrelude, Prelude.initial.1, []⟩

def integerRequest : Request :=
  ⟨.ok Prelude.initial.1.integer, some (.ok Prelude.initial.1.number), ["3", "3.5"].map readMember⟩

lemma integer_answerable : Answerable integerEnvironment integerArguments Prelude.initial.2 Prelude.initial.1.integer
    (some Prelude.initial.1.number) (integerRequest.members.filterMap Except.toOption) := by
  refine ⟨⟨_, _, rfl, rfl⟩, ?_, fun _ => ⟨_, rfl⟩, ?_, ?_, ?_⟩
  · rintro _ ⟨⟩
    exact ⟨_, rfl⟩
  · have htested : (integerRequest.members.filterMap Except.toOption).all (fun member =>
        (Prelude.initial.1.integer.has integerEnvironment.interpretation member.2).result.toOption.isSome) = true := by
      decide +kernel
    intro member hmember
    obtain ⟨a, ha⟩ := Option.isSome_iff_exists.mp (List.all_eq_true.mp htested member hmember)
    exact ⟨a, ok_of_toOption ha⟩
  · rintro _ ⟨⟩
    refine ⟨answeredOrCyclic_of_isSome (by decide +kernel), fun a l₁ hrun => ?_⟩
    obtain rfl : (Build.supersedes (.type Prelude.initial.1.integer) (.type Prelude.initial.1.number)
      Prelude.initial.2).2 = l₁ := by rw [hrun]
    exact answeredOrCyclic_of_isSome (by decide +kernel)
  · rintro - l' ⟨a, b, l₁, hrun, hrun'⟩
    obtain rfl : (Build.supersedes (.type Prelude.initial.1.integer) (.type Prelude.initial.1.number)
      Prelude.initial.2).2 = l₁ := by rw [hrun]
    obtain rfl : (Build.supersedes (.type Prelude.initial.1.number) (.type Prelude.initial.1.integer) _).2 = l' := by
      rw [hrun']
    exact fun fault hfault => absurd hfault (ne_error_of_isSome (by decide +kernel) fault)

/-- Integers above ten types that lead to themselves, and below something that is no type. -/
def loopedLattice : Lattice :=
  let loops := (List.range 10).map fun i => Ty.sample (Prelude.initial.2.entries.size + i) "loop"
  let l : Lattice := ⟨Prelude.initial.2.entries ++ (loops.map fun t => ⟨some [.type t], some []⟩).toArray, 100⟩
  (l.store .subsets Prelude.initial.1.integer.id (loops.map .type)).store .supersets Prelude.initial.1.integer.id
    [.plain 0 (.integer 3)]

def checkArguments : Arguments := ⟨"Integer", [], none, false, 1⟩

/-- The check gives up before it comes to what is above the integers. -/
lemma looped_answerable :
    Answerable integerEnvironment checkArguments loopedLattice Prelude.initial.1.integer none [] := by
  refine ⟨⟨_, _, rfl, rfl⟩, (fun _ h => nomatch h), (fun h => nomatch h), (fun _ h => nomatch h),
    (fun _ h => nomatch h), ?_⟩
  rintro - l' rfl fault hfault
  have hstopped : ([Prelude.initial.1.integer].forM (fun t => Work.checkLattice (.type t))
      (idle loopedLattice (blankReport checkArguments))).1 = .error .tooManyIssues := rfl
  exact Except.error.inj (hfault.symm.trans hstopped)

/-- An inspection that has nothing to complain about, and one that gives up. -/
theorem run_truthful_integer :
    integerEnvironment.request integerArguments ["3", "3.5"] = .ok integerRequest ∧ integerRequest.flaws = [] ∧
      (∃ after members,
        run integerEnvironment integerArguments (idle Prelude.initial.2 (.new false none)) = (.ok 0, after) ∧
        after.report.issues = [] ∧ members.map Prod.fst = ["3", "3.5"] ∧
        ∃ (o : Opening integerEnvironment integerArguments Prelude.initial.1.integer members) (more : String),
          after.console.out = o.text ++ more) ∧
      integerEnvironment.request checkArguments [] = .ok ⟨.ok Prelude.initial.1.integer, none, []⟩ ∧
      ∃ after, run integerEnvironment checkArguments (idle loopedLattice (.new false none)) = (.ok 1, after) ∧
        after.report.issues ≠ [] := by
  have hrequest : integerEnvironment.request integerArguments ["3", "3.5"] = .ok integerRequest := by
    rfl
  have hflaws : integerRequest.flaws = [] := by decide +kernel
  have hfound : ∀ target other? members,
      integerRequest = ⟨.ok target, Option.map .ok other?, List.map .ok members⟩ →
      Answerable integerEnvironment integerArguments Prelude.initial.2 target other? members := by
    intro target other? members hq
    have hmembers : integerRequest.members.filterMap Except.toOption = members := by rw [hq, filterMap_map_ok]
    obtain ⟨htarget, hother, -⟩ := Request.mk.inj hq
    obtain rfl := Except.ok.inj htarget
    obtain ⟨other, rfl, hsame⟩ := Option.map_eq_some_iff.mp hother.symm
    obtain rfl := Except.ok.inj hsame
    rw [← hmembers]
    exact integer_answerable
  obtain ⟨status, after, hrun, -, hstatus, -, hopening⟩ := run_truthful integerEnvironment integerArguments
    (idle Prelude.initial.2 (.new false none)) rfl hrequest hfound
  have hzero :
      (run integerEnvironment integerArguments (idle Prelude.initial.2 (.new false none))).1.toOption = some 0 := by
    decide +kernel
  rw [hrun] at hzero
  obtain rfl := Option.some.inj hzero
  have hissues : after.report.issues = [] := by
    by_contra hsome
    exact absurd (hstatus.mpr hsome) Nat.zero_ne_one
  obtain ⟨target, members, htarget, -, htexts, o, more, hout⟩ := hopening hflaws
  obtain rfl := Except.ok.inj htarget
  have hrequest' : integerEnvironment.request checkArguments [] = .ok ⟨.ok Prelude.initial.1.integer, none, []⟩ := by
    rfl
  have hfound' : ∀ target other? members, (⟨.ok Prelude.initial.1.integer, none, []⟩ : Request) =
      ⟨.ok target, Option.map .ok other?, List.map .ok members⟩ →
      Answerable integerEnvironment checkArguments loopedLattice target other? members := by
    intro target other? members hq
    obtain ⟨htarget, hother, hmembers⟩ := Request.mk.inj hq
    obtain rfl := Except.ok.inj htarget
    obtain rfl := Option.map_eq_none_iff.mp hother.symm
    obtain rfl := List.map_eq_nil_iff.mp hmembers.symm
    exact looped_answerable
  obtain ⟨status', after', hrun', -, hstatus', -⟩ := run_truthful integerEnvironment checkArguments
    (idle loopedLattice (.new false none)) rfl hrequest' hfound'
  have hone : (run integerEnvironment checkArguments (idle loopedLattice (.new false none))).1.toOption = some 1 := by
    decide +kernel
  rw [hrun'] at hone
  obtain rfl := Option.some.inj hone
  refine ⟨hrequest, hflaws, ⟨after, members, hrun, hissues, htexts, o, more, ?_⟩, hrequest', after', hrun',
    hstatus'.mp rfl⟩
  rw [hout]
  rfl

end Inspections

/-- With no members, outline or other type, a check that meets a plain value below a type ends the inspection with a
fault. So does a type that has lost its names, and a module that is named by nothing. An empty name of another type is
not looked up at all. -/
theorem inspection_cut_short :
    let I := constantInterpretation true
    let s := Session.initial.after I [.construct (some "x") (.predicate (.named "even") none),
      .construct (some "y") (.plain (.ok (.integer 3))),
      .construct (some "z") (.refine (.withMetadata (some []) none) "x"), .setEdges "x" .subsets ["y"]]
    let outcome := fun arguments => (s.step I (.commandLine arguments)).1
    (parse ["session:x", "-c"] = .ok ⟨"session:x", [], none, false, 1⟩ ∧
        (outcome ["session:x", "-c"]).isFailure = true) ∧
      (parse ["session:z"] = .ok ⟨"session:z", [], none, false, 0⟩ ∧ (outcome ["session:z"]).isFailure = true) ∧
      (parse [":x"] = .ok ⟨":x", [], none, false, 0⟩ ∧ (outcome [":x"]).isFailure = true) ∧
      (parse ["session:x", "-s", ""] = .ok ⟨"session:x", [], some "", false, 0⟩ ∧
        (outcome ["session:x", "-s", ""]).isFailure = false ∧
        (outcome ["session:x", "-s", ""]).console.out = "even = even\n") := by
  decide +kernel

end StructuralTypes.CommandLine
