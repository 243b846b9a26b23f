import StructuralTypes.CommandLine.Inspect
import StructuralTypes.Proofs.SimulatedQuestions

/-!
# Inspections on embedded lattices

Checks and the command line say the same over a lattice and over one that it strictly embeds into. What they
say goes to reports and the console, and most of the work there does not look at the lattice at all. Where a
cycle is caught, it is named by what is shown, and that is alike on both sides.
-/

namespace StructuralTypes

section Catching

variable {c : Comparison} {σ τ α β : Type} {R : List Ty → σ → τ → Prop} {ns : List Ty} {s : σ} {s' : τ}

lemma tryCatch_apply (x : ExceptT Fault (StateM σ) α) (f : Fault → ExceptT Fault (StateM σ) α) (s : σ) :
    (tryCatch x f) s = match x s with
      | (.ok a, s₁) => (.ok a, s₁)
      | (.error fault, s₁) => f fault s₁ := by
  change (ExceptT.tryCatch x f : StateM σ (Except Fault α)) s = _
  unfold ExceptT.tryCatch
  rcases h : x s with ⟨_ | _, _⟩ <;> simp [ExceptT.mk, bind, StateT.bind, h, pure, StateT.pure]

/-- Faults that are caught are handled alike. -/
lemma Simulates.tryCatch {x : ExceptT Fault (StateM σ) α} {y : ExceptT Fault (StateM τ) β}
    {Q : List Ty → α → β → Prop} (hx : Simulates c R ns s s' x y Q) {f : Fault → ExceptT Fault (StateM σ) α}
    {g : Fault → ExceptT Fault (StateM τ) β}
    (hf : ∀ fault fault' ns' s₁ s₁', c.alike fault fault' → ns ⊆ ns' → R ns' s₁ s₁' →
      Simulates c R ns' s₁ s₁' (f fault) (g fault') Q) :
    Simulates c R ns s s' (MonadExcept.tryCatch x f) (MonadExcept.tryCatch y g) Q := by
  unfold Simulates
  rw [tryCatch_apply, tryCatch_apply]
  obtain ⟨ns', hns, hR, hresults⟩ := hx
  rcases hrun : x s with ⟨fault | a, s₁⟩ <;> rcases hrun' : y s' with ⟨fault' | b, s₁'⟩ <;>
    rw [hrun, hrun'] at hresults hR <;> cases hresults
  · rename_i halike
    obtain ⟨ns'', hns', hR', hresults'⟩ := hf fault fault' ns' s₁ s₁' halike hns hR
    exact ⟨ns'', fun t ht => hns' (hns ht), hR', hresults'⟩
  · rename_i hab
    exact ⟨ns', hns, hR, .ok hab⟩

end Catching

/-- A computation that neither looks at the lattice nor changes it. -/
def IgnoresLattice {α : Type} (x : Work α) : Prop :=
  ∀ w l', x { w with lattice := l' } = ((x w).1, { (x w).2 with lattice := l' })

namespace IgnoresLattice

variable {α β : Type}

lemma attempt (a : Attempt α) : IgnoresLattice (Work.ofAttempt a) := fun _ _ => rfl

lemma pure (a : α) : IgnoresLattice (Pure.pure a : Work α) := fun _ _ => rfl

lemma throw (fault : Fault) : IgnoresLattice (throw fault : Work α) := fun _ _ => rfl

lemma bind {x : Work α} {f : α → Work β} (hx : IgnoresLattice x) (hf : ∀ a, IgnoresLattice (f a)) :
    IgnoresLattice (x >>= f) := by
  intro w l'
  rw [bind_apply, bind_apply, hx w l']
  rcases x w with ⟨fault | a, w₁⟩
  · rfl
  · exact hf a w₁ l'

/-- Reading anything but the lattice. -/
lemma get {f : Workbench → Work β} (hread : ∀ w l', f { w with lattice := l' } = f w) (hf : ∀ w, IgnoresLattice (f w)) :
    IgnoresLattice (MonadState.get >>= f) := by
  intro w l'
  rw [get_bind, get_bind, hread]
  exact hf w w l'

lemma forM {f : α → Work PUnit} (hf : ∀ a, IgnoresLattice (f a)) (as : List α) : IgnoresLattice (as.forM f) := by
  induction as with
  | nil => exact pure _
  | cons a as ih => exact (hf a).bind fun _ => ih

lemma sayLine (line : String) : IgnoresLattice (Work.sayLine line) := fun _ _ => rfl

lemma warnLine (line : String) : IgnoresLattice (Work.warnLine line) := fun _ _ => rfl

lemma complain (complaint : Complaint) : IgnoresLattice (Work.complain complaint) := by
  refine get (fun _ _ => rfl) fun w => ?_
  refine bind (fun _ _ => rfl) fun _ => ?_
  split
  · exact throw _
  · exact pure _

lemma inform (line : String) : IgnoresLattice (Work.inform line) := by
  refine get (fun _ _ => rfl) fun w => ?_
  split
  · exact warnLine line
  · exact pure _

lemma drawOutburst : IgnoresLattice Work.drawOutburst :=
  get (fun _ _ => rfl) fun _ => bind (fun _ _ => rfl) fun _ => pure _

lemma complainToConsole : IgnoresLattice Work.complainToConsole := by
  refine get (fun _ _ => rfl) fun w => ?_
  have hissues : IgnoresLattice (w.report.issues.forM fun issue => do
      Work.warnLine (String.join (List.replicate 20 "  -"))
      Work.warnLine issue.text) := forM (fun _ => (warnLine _).bind fun _ => warnLine _) _
  dsimp only
  split
  · exact (warnLine _).bind fun _ => drawOutburst.bind fun _ => (warnLine _).bind fun _ => hissues
  · exact hissues

lemma assertNoIssues (message : String) : IgnoresLattice (Work.assertNoIssues message) := by
  refine get (fun _ _ => rfl) fun w => ?_
  split
  · exact complainToConsole.bind fun _ => drawOutburst.bind fun _ => throw _
  · exact pure _

lemma readMembers (texts : List (Option String)) : IgnoresLattice (CommandLine.readMembers texts) := by
  induction texts with
  | nil => exact pure _
  | cons text? texts ih =>
    cases text? with
    | none => exact throw _
    | some text =>
      unfold CommandLine.readMembers
      cases Json.read text with
      | ok v => exact ih.bind fun _ => pure _
      | error flaw => exact (complain _).bind fun _ => ih

end IgnoresLattice

variable {untouched : Prop} {ρ : Renumbering} {ns : List Ty} {w w' : Workbench}

/-- Workbenches that differ in the lattice only, where the lattice of the first embeds into that of the second. -/
def WorkbenchEmbedding (untouched : Prop) (ρ : Renumbering) (ns : List Ty) (w w' : Workbench) : Prop :=
  ∃ l', LatticeEmbedding (.byMessage untouched) True ρ ns w.lattice l' ∧ w' = { w with lattice := l' }

/-- Work on two workbenches, the first of them embedded into the second, that comes to related results. -/
abbrev WorkSimulates (untouched : Prop) (ρ : Renumbering) (ns : List Ty) (w w' : Workbench) {α β : Type}
    (x : Work α) (y : Work β) (Q : List Ty → α → β → Prop) : Prop :=
  Simulates (.byMessage untouched) (WorkbenchEmbedding untouched ρ) ns w w' x y Q

lemma IgnoresLattice.workSimulates {α : Type} {x : Work α} (hx : IgnoresLattice x)
    (h : WorkbenchEmbedding untouched ρ ns w w') : WorkSimulates untouched ρ ns w w' x x fun _ => Eq := by
  obtain ⟨l', hlattice, rfl⟩ := h
  have hkeeps : (x w).2.lattice = w.lattice := by
    have hself := congrArg (fun p => p.2.lattice) (hx w w.lattice)
    exact hself
  unfold WorkSimulates Simulates
  rw [hx w l']
  refine ⟨ns, List.Subset.refl ns, ⟨l', ?_, rfl⟩, ?_⟩
  · rw [hkeeps]
    exact hlattice
  · cases (x w).1 with
    | error fault => exact .error (.refl fault)
    | ok a => exact .ok rfl

lemma workSimulates_ofBuild (h : WorkbenchEmbedding untouched ρ ns w w') {α β : Type} {x : Build α} {y : Build β}
    {Q : List Ty → α → β → Prop}
    (hx : ∀ l', LatticeEmbedding (.byMessage untouched) True ρ ns w.lattice l' →
      BuildSimulates (.byMessage untouched) True ρ ns w.lattice l' x y Q) :
    WorkSimulates untouched ρ ns w w' (Work.ofBuild x) (Work.ofBuild y) Q := by
  obtain ⟨l', hlattice, rfl⟩ := h
  obtain ⟨ns', hns, hlattice', hresults⟩ := hx l' hlattice
  exact ⟨ns', hns, ⟨_, hlattice', rfl⟩, hresults⟩

section Checks

lemma related_display {c : Comparison} (r : Referent) : RelatedResults c Eq r.display (r.renumber ρ).display := by
  rw [Referent.display_renumber]
  exact .of_eq

lemma cyclicLattice_renumber (edge : String) (cycle : List Referent) :
    Complaint.cyclicLattice edge (cycle.map (Referent.renumber ρ)) = Complaint.cyclicLattice edge cycle := by
  have hshown : (cycle.map (Referent.renumber ρ)).mapM Referent.display = cycle.mapM Referent.display := by
    rw [List.mapM_map]
    congr 1
    funext r
    exact Referent.display_renumber ρ r
  unfold Complaint.cyclicLattice
  rw [hshown]

lemma workSimulates_checkDirection (h : WorkbenchEmbedding untouched ρ ns w w') {root root' : Referent}
    (hroot : root.RenumbersTo ρ ns root') (d : Direction) :
    WorkSimulates untouched ρ ns w w' (Work.checkDirection root d) (Work.checkDirection root' d)
      fun _ => Eq := by
  apply (workSimulates_ofBuild h fun l' hlattice => buildSimulates_reachable hlattice d hroot).bind
  rintro g _ ns₁ w₁ w₁' _ hns₁ h₁ rfl
  obtain ⟨-, rfl⟩ := hroot
  apply Simulates.attempt_bind h₁ (related_display root)
  rintro shown _ _ rfl
  have hlength : (g.renumber ρ).length = g.length := List.length_map _
  rw [hlength]
  apply ((IgnoresLattice.inform _).workSimulates h₁).bind
  rintro _ _ ns₂ w₂ w₂' _ _ h₂ rfl
  have hcomplains : ∀ cycles : List (List Referent),
      IgnoresLattice (cycles.forM fun cycle => do
        Work.complain (← Work.ofAttempt (Complaint.cyclicLattice d.text cycle))) :=
    fun cycles => .forM (fun _ => (IgnoresLattice.attempt _).bind fun _ => .complain _) cycles
  have hsame : ((g.renumber ρ).cycles.forM fun cycle => do
        Work.complain (← Work.ofAttempt (Complaint.cyclicLattice d.text cycle))) =
      (g.cycles.forM fun cycle => do
        Work.complain (← Work.ofAttempt (Complaint.cyclicLattice d.text cycle))) := by
    rw [Reach.cycles_renumber]
    induction g.cycles with
    | nil => rfl
    | cons cycle cycles ih =>
      have hcycle := cyclicLattice_renumber (ρ := ρ) d.text cycle
      simp only [List.map_cons, List.forM, hcycle, ih]
  rw [hsame]
  exact (hcomplains g.cycles).workSimulates h₂

lemma workSimulates_checkLattice (h : WorkbenchEmbedding untouched ρ ns w w') {root root' : Referent}
    (hroot : root.RenumbersTo ρ ns root') :
    WorkSimulates untouched ρ ns w w' (Work.checkLattice root) (Work.checkLattice root') fun _ => Eq := by
  apply (workSimulates_checkDirection h hroot .subsets).bind
  rintro _ _ ns₁ w₁ w₁' _ hns₁ h₁ rfl
  exact workSimulates_checkDirection h₁ (hroot.mono hns₁) .supersets

end Checks

lemma lookup_map_snd {α β : Type} (f : α → β) (name : String) (xs : List (String × α)) :
    (xs.map (Prod.map (fun name => name) f)).lookup name = (xs.lookup name).map f := by
  induction xs with
  | nil => rfl
  | cons x xs ih =>
    obtain ⟨key, a⟩ := x
    by_cases h : name = key
    · simp [List.lookup, h]
    · have h' : (name == key) = false := by simpa using h
      simpa [List.lookup, h'] using ih

namespace CommandLine

section Catalogs

def Found.renumber (ρ : Renumbering) : Found → Found
  | .type t => .type (t.renumber ρ)
  | .thing className => .thing className

def Found.Known (ns : List Ty) : Found → Prop
  | .type t => t ∈ ns
  | .thing _ => True

lemma Found.Known.mono {ns ns' : List Ty} (hns : ns ⊆ ns') {found : Found} (h : found.Known ns) : found.Known ns' := by
  cases found with
  | type t => exact hns h
  | thing => trivial

/-- Attributes with what they hold under new numbers. -/
def renumberAttributes (ρ : Renumbering) (as : List (String × Found)) : List (String × Found) :=
  as.map (Prod.map (fun name => name) (Found.renumber ρ))

def AllKnown (ns : List Ty) (as : List (String × Found)) : Prop := ∀ a ∈ as, a.2.Known ns

@[simp] lemma allKnown_cons (a : String × Found) (as : List (String × Found)) :
    AllKnown ns (a :: as) ↔ a.2.Known ns ∧ AllKnown ns as := List.forall_mem_cons

@[simp] lemma allKnown_append (as bs : List (String × Found)) :
    AllKnown ns (as ++ bs) ↔ AllKnown ns as ∧ AllKnown ns bs := List.forall_mem_append

lemma allKnown_map {α : Type} (f : α → String × Found) (xs : List α) :
    AllKnown ns (xs.map f) ↔ ∀ x ∈ xs, (f x).2.Known ns := List.forall_mem_map

def Module.renumber (ρ : Renumbering) (m : Module) : Module :=
  { m with attributes := renumberAttributes ρ m.attributes }

/-- What was looked up, taken further. -/
def Lookup.mapFound {α β : Type} (f : α → β) (x : Lookup α) : Lookup β := ExceptT.mk (x.run.map (Except.map f))

namespace Lookup

variable {α β γ δ : Type}

lemma mapFound_bind {f : α → β} {k : γ → δ} {g : α → Lookup γ} {g' : β → Lookup δ}
    (h : ∀ a, g' (f a) = (g a).mapFound k) (x : Lookup α) : x.mapFound f >>= g' = (x >>= g).mapFound k := by
  have hrun : ∀ y : Attempt (Except String α), mapFound f (ExceptT.mk y) >>= g' =
      mapFound k (ExceptT.mk y >>= g) := by
    intro y
    rcases y with fault | _ | a
    · rfl
    · rfl
    · exact h a
  exact hrun x.run

lemma found_of_bind {x : Lookup α} {g : α → Lookup β} {b : β} (h : (x >>= g).run = .ok (.ok b)) :
    ∃ a, x.run = .ok (.ok a) ∧ (g a).run = .ok (.ok b) := by
  have hrun : ∀ y : Attempt (Except String α), (ExceptT.mk y >>= g).run = .ok (.ok b) →
      ∃ a, y = .ok (.ok a) ∧ (g a).run = .ok (.ok b) := by
    intro y hy
    rcases y with fault | _ | a
    · cases hy
    · cases hy
    · exact ⟨a, rfl, hy⟩
  exact hrun x.run h

end Lookup

namespace Catalog

lemma lacking_mapFound {α β : Type} (f : α → β) (m : Module) (reason : String) :
    (lacking (m.renumber ρ) reason : Lookup β) = (lacking m reason : Lookup α).mapFound f := by
  have hfallback : (m.renumber ρ).fallback? = m.fallback? := rfl
  unfold lacking
  rw [hfallback]
  cases m.fallback? <;> rfl

lemma moduleNamed_renumber (modules : List Module) (name : String) :
    moduleNamed (modules.map (Module.renumber ρ)) name = (moduleNamed modules name).mapFound (Module.renumber ρ) := by
  have hfind : (modules.map (Module.renumber ρ)).find? (·.name = name) =
      (modules.find? (·.name = name)).map (Module.renumber ρ) := by
    rw [List.find?_map]
    rfl
  unfold moduleNamed
  rw [hfind]
  cases modules.find? (·.name = name) <;> rfl

lemma descend_renumber (modules : List Module) (m : Module) (stages : List String) :
    descend (modules.map (Module.renumber ρ)) (m.renumber ρ) stages =
      (descend modules m stages).mapFound (Module.renumber ρ) := by
  induction stages generalizing m with
  | nil => rfl
  | cons stage stages ih =>
    have hkind : (m.renumber ρ).kind = m.kind := rfl
    unfold descend
    rw [hkind]
    cases m.kind with
    | package =>
      rw [moduleNamed_renumber]
      exact Lookup.mapFound_bind (fun m => ih m) (moduleNamed modules stage)
    | brokenPackage => rfl
    | plain => exact lacking_mapFound (Module.renumber ρ) m _
    | entryPoint => exact lacking_mapFound (Module.renumber ρ) m _

lemma locate_renumber (modules : List Module) (name : String) :
    locate (modules.map (Module.renumber ρ)) name = (locate modules name).mapFound (Module.renumber ρ) := by
  unfold locate
  cases stages name with
  | nil => exact moduleNamed_renumber modules name
  | cons top below =>
    change moduleNamed (modules.map (Module.renumber ρ)) top >>= _ = _
    rw [moduleNamed_renumber]
    exact Lookup.mapFound_bind (fun m => descend_renumber modules m below) (moduleNamed modules top)

lemma find_renumber (modules : List Module) (moduleName name : String) :
    find (modules.map (Module.renumber ρ)) moduleName name =
      (find modules moduleName name).mapFound (Found.renumber ρ) := by
  have hattributes : ∀ m : Module, (fixed ++ (m.renumber ρ).attributes ++ inherited) =
      renumberAttributes ρ (fixed ++ m.attributes ++ inherited) := by
    intro m
    have hfixed : renumberAttributes ρ fixed = fixed := rfl
    have hinherited : renumberAttributes ρ inherited = inherited := rfl
    have happend : ∀ as bs, renumberAttributes ρ (as ++ bs) = renumberAttributes ρ as ++ renumberAttributes ρ bs :=
      fun _ _ => List.map_append
    rw [happend, happend, hfixed, hinherited]
    rfl
  unfold find
  split
  · rfl
  · split
    · rfl
    · rw [locate_renumber]
      apply Lookup.mapFound_bind
      intro m
      rw [hattributes, renumberAttributes, lookup_map_snd]
      cases (fixed ++ m.attributes ++ inherited).lookup name with
      | some found => rfl
      | none => exact lacking_mapFound (Found.renumber ρ) m _

lemma not_found_of_lacking {α : Type} {m : Module} {reason : String} {a : α} :
    (lacking m reason : Lookup α).run ≠ .ok (.ok a) := by
  unfold lacking
  cases m.fallback? <;> exact fun h => by cases h

lemma mem_of_moduleNamed {modules : List Module} {name : String} {m : Module}
    (h : (moduleNamed modules name).run = .ok (.ok m)) : m ∈ modules := by
  unfold moduleNamed at h
  cases hfind : modules.find? (·.name = name) with
  | none =>
    rw [hfind] at h
    cases h
  | some m' =>
    rw [hfind] at h
    cases h
    exact List.mem_of_find?_eq_some hfind

lemma mem_of_descend {modules : List Module} {m m' : Module} {stages : List String} (hm : m ∈ modules)
    (h : (descend modules m stages).run = .ok (.ok m')) : m' ∈ modules := by
  induction stages generalizing m with
  | nil =>
    cases h
    exact hm
  | cons stage stages ih =>
    unfold descend at h
    cases hkind : m.kind with
    | package =>
      rw [hkind] at h
      obtain ⟨below, hbelow, h⟩ := Lookup.found_of_bind h
      exact ih (mem_of_moduleNamed hbelow) h
    | brokenPackage =>
      rw [hkind] at h
      cases h
    | plain =>
      rw [hkind] at h
      exact absurd h not_found_of_lacking
    | entryPoint =>
      rw [hkind] at h
      exact absurd h not_found_of_lacking

lemma mem_of_locate {modules : List Module} {name : String} {m : Module}
    (h : (locate modules name).run = .ok (.ok m)) : m ∈ modules := by
  unfold locate at h
  cases hstages : stages name with
  | nil =>
    rw [hstages] at h
    exact mem_of_moduleNamed h
  | cons top below =>
    rw [hstages] at h
    obtain ⟨m', hm', h⟩ := Lookup.found_of_bind h
    exact mem_of_descend (mem_of_moduleNamed hm') h

@[simp] lemma things_known (className : String) (names : List String) : AllKnown ns (things className names) := by
  intro a ha
  obtain ⟨name, _, rfl⟩ := List.mem_map.mp ha
  trivial

/-- What is found is one of the attributes of a module. -/
lemma known_of_find {modules : List Module} (h : ∀ m ∈ modules, AllKnown ns m.attributes)
    {moduleName name : String} {found : Found} (hfound : (find modules moduleName name).run = .ok (.ok found)) :
    found.Known ns := by
  unfold find at hfound
  split at hfound
  · cases hfound
  · split at hfound
    · cases hfound
    · obtain ⟨m, hm, hfound⟩ := Lookup.found_of_bind hfound
      cases hlookup : (fixed ++ m.attributes ++ inherited).lookup name with
      | none =>
        rw [hlookup] at hfound
        exact absurd hfound not_found_of_lacking
      | some found' =>
        rw [hlookup] at hfound
        cases hfound
        have hmem := mem_of_lookup hlookup
        simp only [fixed, inherited, List.mem_append, or_assoc] at hmem
        rcases hmem with hmem | hmem | hmem | hmem | hmem | hmem
        · exact things_known _ _ _ hmem
        · exact things_known _ _ _ hmem
        · exact h m (mem_of_locate hm) _ hmem
        · exact things_known _ _ _ hmem
        · exact things_known _ _ _ hmem
        · exact things_known _ _ _ hmem

end Catalog

end Catalogs

end CommandLine

section Preludes

def Prelude.renumber (ρ : Renumbering) (p : Prelude) : Prelude where
  any := p.any.renumber ρ
  null := p.null.renumber ρ
  boolean := p.boolean.renumber ρ
  number := p.number.renumber ρ
  string := p.string.renumber ρ
  array := p.array.renumber ρ
  mapping := p.mapping.renumber ρ
  integer := p.integer.renumber ρ
  scalar := p.scalar.renumber ρ

/-- All types of a prelude are at hand. -/
def Prelude.Known (ns : List Ty) (p : Prelude) : Prop := p.any ∈ ns ∧ ∀ entry ∈ p.types, entry.2 ∈ ns

lemma Prelude.Known.mono {ns ns' : List Ty} (hns : ns ⊆ ns') {p : Prelude} (h : p.Known ns) : p.Known ns' :=
  ⟨hns h.1, fun entry hentry => hns (h.2 entry hentry)⟩

end Preludes

namespace CommandLine

namespace Catalog

lemma library_renumber (p : Prelude) : library (p.renumber ρ) = (library p).map (Module.renumber ρ) := rfl

lemma library_known {p : Prelude} (h : p.Known ns) : ∀ m ∈ library p, AllKnown ns m.attributes := by
  have hany : Found.Known ns (.type p.any) := h.1
  have htypes : ∀ name t, (name, t) ∈ p.types → Found.Known ns (.type t) := fun name t => h.2 (name, t)
  have hcontents : ∀ entry ∈ contents p, AllKnown ns entry.2.2 := by
    simpa [contents, offered, common, bare, hany, allKnown_map] using htypes
  intro m hm
  obtain ⟨entry, hentry, rfl⟩ := List.mem_map.mp hm
  exact hcontents entry hentry

end Catalog

section Inspections

def Environment.renumber (ρ : Renumbering) (env : Environment) : Environment :=
  ⟨env.interpretation, env.prelude.renumber ρ, env.modules.map (Module.renumber ρ)⟩

/-- All that can be named is at hand. -/
structure Environment.Known (ns : List Ty) (env : Environment) : Prop where
  prelude : env.prelude.Known ns
  modules : ∀ m ∈ env.modules, AllKnown ns m.attributes

variable {env : Environment}

/-- A type at hand and its image, or none on either side. -/
def RenumbersOptionTo (ρ : Renumbering) (ns : List Ty) (t? t?' : Option Ty) : Prop :=
  t?' = t?.map (Ty.renumber ρ) ∧ ∀ t ∈ t?, t ∈ ns

lemma RenumbersOptionTo.mono {ns ns' : List Ty} (hns : ns ⊆ ns') {t? t?' : Option Ty}
    (h : RenumbersOptionTo ρ ns t? t?') : RenumbersOptionTo ρ ns' t? t?' := ⟨h.1, fun t ht => hns (h.2 t ht)⟩

lemma renumbersOptionTo_none : RenumbersOptionTo ρ ns none none := ⟨rfl, by simp⟩

lemma renumbersOptionTo_some {t : Ty} (ht : t ∈ ns) : RenumbersOptionTo ρ ns (some t) (some (t.renumber ρ)) :=
  ⟨rfl, by simpa using ht⟩

lemma workSimulates_refusal (h : WorkbenchEmbedding untouched ρ ns w w') (complaint : Complaint) :
    WorkSimulates untouched ρ ns w w'
      (do
        Work.complain complaint
        return none)
      (do
        Work.complain complaint
        return none) (RenumbersOptionTo ρ) := by
  apply ((IgnoresLattice.complain complaint).workSimulates h).bind
  rintro _ _ ns₁ w₁ w₁' _ _ h₁ rfl
  exact .pure h₁ renumbersOptionTo_none

lemma workSimulates_resolve (h : WorkbenchEmbedding untouched ρ ns w w') (henv : env.Known ns) (text : String) :
    WorkSimulates untouched ρ ns w w' (resolve env text) (resolve (env.renumber ρ) text) (RenumbersOptionTo ρ) := by
  unfold resolve
  dsimp only
  cases text.toList.drop (text.toList.takeWhile (· ≠ ':')).length with
  | nil =>
    have hlookup : (env.renumber ρ).prelude.types.lookup text =
        (env.prelude.types.lookup text).map (Ty.renumber ρ) := lookup_map_snd _ text env.prelude.types
    rw [hlookup]
    cases htype : env.prelude.types.lookup text with
    | none => exact workSimulates_refusal h _
    | some t => exact .pure h (renumbersOptionTo_some (henv.prelude.2 _ (mem_of_lookup htype)))
  | cons _ name =>
    have hfind : RelatedResults (.byMessage untouched)
        (fun found found' => found' = Except.map (Found.renumber ρ) found ∧ ∀ f, found = .ok f → f.Known ns)
        (Catalog.find env.modules (String.ofList (text.toList.takeWhile (· ≠ ':'))) (String.ofList name)).run
        (Catalog.find (env.renumber ρ).modules (String.ofList (text.toList.takeWhile (· ≠ ':')))
          (String.ofList name)).run := by
      have hrenumber : (env.renumber ρ).modules = env.modules.map (Module.renumber ρ) := rfl
      rw [hrenumber, Catalog.find_renumber]
      apply RelatedResults.of_map
      rintro found hfound
      refine ⟨rfl, fun f hf => ?_⟩
      rw [hf] at hfound
      exact Catalog.known_of_find henv.modules hfound
    apply Simulates.attempt_bind h hfind
    rintro found _ _ ⟨rfl, hknown⟩
    rcases found with why | t | className
    · exact workSimulates_refusal h _
    · exact .pure h (renumbersOptionTo_some (hknown _ rfl))
    · exact workSimulates_refusal h _

lemma answerMember_renumber (target : Ty) (member : String × Value) :
    answerMember (env.renumber ρ) (target.renumber ρ) member = answerMember env target member := by
  unfold answerMember
  simp only [Ty.has_renumber, Ty.name_renumber]
  rfl

lemma ignoresLattice_answerMember (target : Ty) (member : String × Value) :
    IgnoresLattice (answerMember env target member) := by
  have htraced : IgnoresLattice (Work.ofTraced (target.has env.interpretation member.2)) := fun _ _ => rfl
  exact htraced.bind fun _ => (IgnoresLattice.attempt _).bind fun _ => .sayLine _

lemma workSimulates_answerSupersedes (h : WorkbenchEmbedding untouched ρ ns w w') {sup sub : Ty} (hsup : sup ∈ ns)
    (hsub : sub ∈ ns) :
    WorkSimulates untouched ρ ns w w' (answerSupersedes sup sub) (answerSupersedes (sup.renumber ρ) (sub.renumber ρ))
      fun _ => Eq := by
  have hname : ∀ t : Ty, RelatedResults (.byMessage untouched) Eq t.name (t.renumber ρ).name := by
    intro t
    rw [Ty.name_renumber]
    exact .of_eq
  apply Simulates.attempt_bind h (hname sup)
  rintro supName _ _ rfl
  apply Simulates.attempt_bind h (hname sub)
  rintro subName _ _ rfl
  have hsup : (Referent.type sup).RenumbersTo ρ ns (.type (sup.renumber ρ)) := ⟨hsup, rfl⟩
  have hsub : (Referent.type sub).RenumbersTo ρ ns (.type (sub.renumber ρ)) := ⟨hsub, rfl⟩
  apply (workSimulates_ofBuild h fun l' hlattice => buildSimulates_supersedes hlattice hsup hsub).bind
  rintro answer _ ns₁ w₁ w₁' _ _ h₁ rfl
  exact (IgnoresLattice.sayLine _).workSimulates h₁

/-- What happens to a fault met while comparing. -/
def handleCycle : Fault → Work Bool
  | .cyclicLattice sup sub => do
    Work.complain (← Work.ofAttempt (Complaint.cyclicLattice "edges" [sup, sub]))
    Work.complainToConsole
    return false
  | fault => throw fault

lemma compareBoth_eq (target other : Ty) : compareBoth target other =
    tryCatch (do
      answerSupersedes target other
      answerSupersedes other target
      return true) handleCycle := by
  funext w
  unfold compareBoth
  rw [tryCatch_apply, bind_apply, tryCatch_apply]
  have hbody : ∀ {α : Type} (x : α), ((do
      answerSupersedes target other
      answerSupersedes other target
      return x) : Work α) w = match (do
        answerSupersedes target other
        answerSupersedes other target : Work Unit) w with
      | (.ok _, w₁) => (.ok x, w₁)
      | (.error fault, w₁) => (.error fault, w₁) := by
    intro α x
    rw [← bind_assoc, bind_apply]
    rcases (do
      answerSupersedes target other
      answerSupersedes other target : Work Unit) w with ⟨fault | _, w₁⟩ <;> rfl
  erw [hbody, hbody]
  rcases (do
      answerSupersedes target other
      answerSupersedes other target : Work Unit) w with ⟨fault | _, w₁⟩
  · cases fault <;> try rfl
    simp only [handleCycle, bind_apply]
    rcases Work.ofAttempt _ w₁ with ⟨_ | complaint, w₂⟩
    · rfl
    · dsimp only
      rcases Work.complain complaint w₂ with ⟨_ | _, w₃⟩
      · rfl
      · dsimp only
        rcases Work.complainToConsole w₃ with ⟨_ | _, w₄⟩ <;> rfl
  · rfl

/-- What happens to a fault that ends an inspection. -/
def handleOverflow : Fault → Work Nat
  | .tooManyIssues => do
    Work.complainToConsole
    Work.warnLine "Giving up after a few issues. One crisis at a time, eh?"
    return 1
  | fault => throw fault

lemma run_eq (args : Arguments) : run env args = (do
    modify fun w => { w with report := .new (1 < args.checks) (some issueCap) }
    tryCatch (do return if ← inspect env args then 0 else 1) handleOverflow) := by
  unfold run
  congr 1
  funext _ w
  rw [bind_apply, tryCatch_apply, tryCatch_apply, bind_apply, bind_apply]
  rcases inspect env args w with ⟨fault | good, w₁⟩
  · cases fault <;> try rfl
    simp only [handleOverflow, bind_apply]
    rcases Work.complainToConsole w₁ with ⟨_ | _, w₂⟩ <;> rfl
  · rfl

lemma workSimulates_compareBoth (h : WorkbenchEmbedding untouched ρ ns w w') {target other : Ty} (htarget : target ∈ ns)
    (hother : other ∈ ns) :
    WorkSimulates untouched ρ ns w w' (compareBoth target other)
      (compareBoth (target.renumber ρ) (other.renumber ρ)) fun _ => Eq := by
  rw [compareBoth_eq, compareBoth_eq]
  apply Simulates.tryCatch
  · apply (workSimulates_answerSupersedes h htarget hother).bind
    rintro _ _ ns₁ w₁ w₁' _ hns₁ h₁ rfl
    apply (workSimulates_answerSupersedes h₁ (hns₁ hother) (hns₁ htarget)).bind
    rintro _ _ ns₂ w₂ w₂' _ _ h₂ rfl
    exact .pure h₂ rfl
  · intro fault fault' ns₁ w₁ w₁' halike _ h₁
    have hhandled : ∀ sup sub, IgnoresLattice (handleCycle (.cyclicLattice sup sub)) := fun sup sub =>
      (IgnoresLattice.attempt _).bind fun _ => (IgnoresLattice.complain _).bind fun _ =>
        IgnoresLattice.complainToConsole.bind fun _ => .pure _
    cases halike with
    | refl =>
      cases fault with
      | cyclicLattice sup sub => exact (hhandled sup sub).workSimulates h₁
      | _ => exact .throw h₁ (.refl _)
    | @cyclicLattice sup sub sup' sub' hsup hsub =>
      have hsame : handleCycle (.cyclicLattice sup' sub') = handleCycle (.cyclicLattice sup sub) := by
        unfold handleCycle Complaint.cyclicLattice
        simp only [List.mapM_cons, List.mapM_nil, hsup, hsub]
      rw [hsame]
      exact (hhandled sup sub).workSimulates h₁

lemma workSimulates_checkTypes (h : WorkbenchEmbedding untouched ρ ns w w') {types types' : List Ty}
    (htypes : List.Forall₂ (Ty.RenumbersTo ρ ns) types types') :
    WorkSimulates untouched ρ ns w w' (checkTypes types) (checkTypes types') fun _ => Eq := by
  have hchecks : WorkSimulates untouched ρ ns w w' (types.forM fun t => Work.checkLattice (.type t))
      (types'.forM fun t => Work.checkLattice (.type t)) fun _ _ _ => True := by
    refine Simulates.forM (P := Ty.RenumbersTo ρ) (fun _ _ _ _ hns ht => ht.mono hns) ?_ h htypes
    intro t t' ns w w' h ht
    exact (workSimulates_checkLattice h ht.type).mono fun _ _ _ _ _ => trivial
  apply hchecks.bind
  intro _ _ ns₁ w₁ w₁' _ _ h₁ _
  apply IgnoresLattice.workSimulates _ h₁
  refine .get (fun _ _ => rfl) fun w => ?_
  split
  · exact IgnoresLattice.complainToConsole.bind fun _ => .pure _
  · exact (IgnoresLattice.warnLine _).bind fun _ => .pure _

/-- What there is to answer once the names and the outline are out. -/
def answerRest (env : Environment) (args : Arguments) (target : Ty) (other? : Option Ty)
    (members : List (String × Value)) : Work Bool := do
  members.forM (answerMember env target)
  let compared ← match other? with
    | none => pure true
    | some other => compareBoth target other
  if !compared then return false
  if 0 < args.checks then checkTypes (target :: other?.toList) else return true

lemma workSimulates_answerRest (h : WorkbenchEmbedding untouched ρ ns w w') (args : Arguments) {target : Ty}
    (htarget : target ∈ ns) {other? other?' : Option Ty} (hother : RenumbersOptionTo ρ ns other? other?')
    (members : List (String × Value)) :
    WorkSimulates untouched ρ ns w w' (answerRest env args target other? members)
      (answerRest (env.renumber ρ) args (target.renumber ρ) other?' members) fun _ => Eq := by
  have hmembers : answerMember (env.renumber ρ) (target.renumber ρ) = answerMember env target := by
    funext member
    exact answerMember_renumber target member
  unfold answerRest
  rw [hmembers]
  apply ((IgnoresLattice.forM (ignoresLattice_answerMember target) members).workSimulates h).bind
  rintro _ _ ns₁ w₁ w₁' _ hns₁ h₁ rfl
  have htarget := hns₁ htarget
  obtain ⟨rfl, hmem⟩ := hother.mono hns₁
  cases other? with
  | none =>
    dsimp only [Option.map_none]
    by_cases hchecks : 0 < args.checks
    · rw [if_pos hchecks, if_pos hchecks]
      exact workSimulates_checkTypes h₁ (.cons ⟨htarget, rfl⟩ .nil)
    · rw [if_neg hchecks, if_neg hchecks]
      exact .pure h₁ rfl
  | some other =>
    have hother := hmem other rfl
    apply (workSimulates_compareBoth h₁ htarget hother).bind
    rintro compared _ ns₂ w₂ w₂' _ hns₂ h₂ rfl
    cases compared with
    | false => exact .pure h₂ rfl
    | true =>
      by_cases hchecks : 0 < args.checks
      · rw [if_pos hchecks, if_pos hchecks]
        exact workSimulates_checkTypes h₂ (.cons ⟨hns₂ htarget, rfl⟩ (.cons ⟨hns₂ hother, rfl⟩ .nil))
      · rw [if_neg hchecks, if_neg hchecks]
        exact .pure h₂ rfl

lemma workSimulates_answer (h : WorkbenchEmbedding untouched ρ ns w w') (args : Arguments) {target : Ty}
    (htarget : target ∈ ns) {other? other?' : Option Ty} (hother : RenumbersOptionTo ρ ns other? other?')
    (members : List (String × Value)) :
    WorkSimulates untouched ρ ns w w' (answer env args target other? members)
      (answer (env.renumber ρ) args (target.renumber ρ) other?' members) fun _ => Eq := by
  have hname : RelatedResults (.byMessage untouched) Eq target.name (target.renumber ρ).name := by
    rw [Ty.name_renumber]
    exact .of_eq
  unfold answer
  apply Simulates.attempt_bind h hname
  rintro name _ _ rfl
  apply Simulates.attempt_bind h (related_canonicalName target)
  rintro canonicalName _ _ rfl
  apply ((IgnoresLattice.sayLine _).workSimulates h).bind
  rintro _ _ ns₁ w₁ w₁' _ hns₁ h₁ rfl
  by_cases houtline : args.outline = true
  · rw [if_pos houtline, if_pos houtline, Ty.outline_renumber]
    apply Simulates.attempt_bind h₁ RelatedResults.of_eq
    rintro text _ _ rfl
    apply ((IgnoresLattice.sayLine _).workSimulates h₁).bind
    rintro _ _ ns₂ w₂ w₂' _ hns₂ h₂ rfl
    exact workSimulates_answerRest h₂ args (hns₂ (hns₁ htarget)) ((hother.mono hns₁).mono hns₂) members
  · rw [if_neg houtline, if_neg houtline]
    exact workSimulates_answerRest h₁ args (hns₁ htarget) (hother.mono hns₁) members

/-- What there is to do once the types are looked up. -/
def inspectRest (env : Environment) (args : Arguments) (target? other? : Option Ty) : Work Bool := do
  let members ← readMembers args.members
  match target? with
  | some target =>
    if (← get).report.isSick then
      Work.complainToConsole
      return false
    answer env args target other? members
  | none =>
    Work.complainToConsole
    return false

lemma workSimulates_inspectRest (h : WorkbenchEmbedding untouched ρ ns w w') (args : Arguments)
    {target? target?' other? other?' : Option Ty} (htarget : RenumbersOptionTo ρ ns target? target?')
    (hother : RenumbersOptionTo ρ ns other? other?') :
    WorkSimulates untouched ρ ns w w' (inspectRest env args target? other?)
      (inspectRest (env.renumber ρ) args target?' other?') fun _ => Eq := by
  have hcomplaint : IgnoresLattice (do
      Work.complainToConsole
      return false) := IgnoresLattice.complainToConsole.bind fun _ => .pure _
  apply ((IgnoresLattice.readMembers args.members).workSimulates h).bind
  rintro members _ ns₁ w₁ w₁' _ hns₁ h₁ rfl
  obtain ⟨rfl, hmem⟩ := htarget.mono hns₁
  cases target? with
  | none => exact hcomplaint.workSimulates h₁
  | some target =>
    apply Simulates.get
    obtain ⟨l', hlattice, rfl⟩ := h₁
    by_cases hsick : w₁.report.isSick = true
    · rw [if_pos hsick, if_pos hsick]
      exact hcomplaint.workSimulates ⟨l', hlattice, rfl⟩
    · rw [if_neg hsick, if_neg hsick]
      exact workSimulates_answer ⟨l', hlattice, rfl⟩ args (hmem target rfl) (hother.mono hns₁) members

lemma workSimulates_inspect (h : WorkbenchEmbedding untouched ρ ns w w') (henv : env.Known ns) (args : Arguments) :
    WorkSimulates untouched ρ ns w w' (inspect env args) (inspect (env.renumber ρ) args) fun _ => Eq := by
  unfold inspect
  apply (workSimulates_resolve h henv args.target).bind
  intro target? target?' ns₁ w₁ w₁' _ hns₁ h₁ htarget
  have henv₁ : env.Known ns₁ :=
    ⟨henv.prelude.mono hns₁, fun m hm a ha => (henv.modules m hm a ha).mono hns₁⟩
  cases args.other? with
  | none => exact workSimulates_inspectRest h₁ args htarget renumbersOptionTo_none
  | some text =>
    dsimp only
    by_cases hempty : text.isEmpty = true
    · rw [if_pos hempty, if_pos hempty]
      exact workSimulates_inspectRest h₁ args htarget renumbersOptionTo_none
    · rw [if_neg hempty, if_neg hempty]
      apply (workSimulates_resolve h₁ henv₁ text).bind
      intro other? other?' ns₂ w₂ w₂' _ hns₂ h₂ hother
      exact workSimulates_inspectRest h₂ args (htarget.mono hns₂) hother

lemma workSimulates_run (h : WorkbenchEmbedding untouched ρ ns w w') (henv : env.Known ns) (args : Arguments) :
    WorkSimulates untouched ρ ns w w' (run env args) (run (env.renumber ρ) args) fun _ => Eq := by
  rw [run_eq, run_eq]
  have hreport : IgnoresLattice
      (modify fun w => { w with report := .new (1 < args.checks) (some issueCap) } : Work Unit) :=
    fun _ _ => rfl
  apply (hreport.workSimulates h).bind
  rintro _ _ ns₁ w₁ w₁' _ hns₁ h₁ rfl
  have henv₁ : env.Known ns₁ :=
    ⟨henv.prelude.mono hns₁, fun m hm a ha => (henv.modules m hm a ha).mono hns₁⟩
  apply Simulates.tryCatch
  · apply (workSimulates_inspect h₁ henv₁ args).bind
    rintro good _ ns₂ w₂ w₂' _ _ h₂ rfl
    exact .pure h₂ rfl
  · intro fault fault' ns₂ w₂ w₂' halike _ h₂
    cases halike with
    | refl =>
      cases fault with
      | tooManyIssues =>
        have hhandled : IgnoresLattice (handleOverflow .tooManyIssues) :=
          IgnoresLattice.complainToConsole.bind fun _ => (IgnoresLattice.warnLine _).bind fun _ => .pure _
        exact hhandled.workSimulates h₂
      | _ => exact .throw h₂ (.refl _)
    | cyclicLattice hsup hsub => exact .throw h₂ (.cyclicLattice hsup hsub)

/-- The whole command line says the same and ends with the same status. -/
theorem workSimulates_execute (h : WorkbenchEmbedding untouched ρ ns w w') (henv : env.Known ns) (args : List String) :
    WorkSimulates untouched ρ ns w w' (execute env args) (execute (env.renumber ρ) args) fun _ => Eq := by
  unfold execute
  by_cases hempty : args.isEmpty = true
  · rw [if_pos hempty, if_pos hempty]
    exact ((IgnoresLattice.sayLine _).bind fun _ => .pure _).workSimulates h
  · rw [if_neg hempty, if_neg hempty]
    rcases parse args with (misuse | _) | arguments
    · exact ((IgnoresLattice.warnLine _).bind fun _ =>
        (IgnoresLattice.warnLine _).bind fun _ => .pure _).workSimulates h
    · exact ((IgnoresLattice.sayLine _).bind fun _ => .pure _).workSimulates h
    · exact workSimulates_run h henv arguments

end Inspections

end CommandLine

end StructuralTypes
