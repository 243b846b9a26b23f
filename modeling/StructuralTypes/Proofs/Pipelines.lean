import StructuralTypes.Proofs.LastingAnswers
import StructuralTypes.Proofs.OrderedTests

/-!
# Pipelines of tests

A pipeline that narrows a type by one test after the other and gives the result a name. Each stage is the
intersection of a new test with the stage before. Whatever the type is that the pipeline starts from, no test and no
stage gets lost: the result has what the type has and every test passes, and the type, each stage and each test are
found to contain it from then on.
-/

namespace StructuralTypes

open Relation

/-- What a pipeline has come to after the given tests. -/
def Build.stage (base : Referent) (preds : List Fn) : Build Referent :=
  (preds.map Build.suchThat).foldlM (fun current step => return .type (← step current)) base

namespace Build

lemma compose_eq (name : String) (base : Referent) (preds : List Fn) :
    compose name base (preds.map suchThat) = stage base preds >>= withAlias name := rfl

lemma stage_cons (base : Referent) (pred : Fn) (preds : List Fn) :
    stage base (pred :: preds) = suchThat pred base >>= fun s => stage (.type s) preds := by
  rw [stage, List.map_cons, List.foldlM_cons, bind_assoc]
  simp only [pure_bind]
  rfl

end Build

namespace Lattice

/-- How tests narrow a type: each stage is the intersection of a test with the stage before, and leads up to both. -/
inductive Narrows (l : Lattice) (ns : List Ty) : Ty → List Fn → Ty → Prop
  | done (t : Ty) : Narrows l ns t [] t
  | test {base s t : Ty} {label : Label} {pred : Fn} {preds : List Fn} : base ∈ ns → .predicate label pred ∈ ns →
      Merges .intersection (.predicate label pred) base s → l.Offers .supersets s base →
      l.Offers .supersets s (.predicate label pred) → Narrows l ns s preds t → Narrows l ns base (pred :: preds) t

variable {l : Lattice} {ns : List Ty} {base t : Ty} {preds : List Fn}

lemma Narrows.path (h : l.Narrows ns base preds t) : ReflTransGen (l.Offers .supersets) t base := by
  induction h with
  | done => exact .refl
  | test _ _ _ hbase _ _ ih => exact ih.tail hbase

/-- Every test on the way lies above the result. -/
lemma Narrows.guard (h : l.Narrows ns base preds t) {pred : Fn} (hpred : pred ∈ preds) :
    ∃ label, ReflTransGen (l.Offers .supersets) t (.predicate label pred) := by
  induction h with
  | done => cases hpred
  | @test _ s t label p preds _ _ _ _ hguard hrest ih =>
    rcases List.mem_cons.mp hpred with rfl | hpred
    · exact ⟨label, hrest.path.tail hguard⟩
    · exact ih hpred

end Lattice

section Stages

variable {terms : Terms} {l : Lattice} {ns : List Ty} {base t : Ty} {preds : List Fn}

lemma Yields.ran {α : Type} {x : Build α} {Q : Lattice → List Ty → α → Prop} (h : Yields terms l ns x Q) :
    Yields terms l ns x fun l' ns' a => Q l' ns' a ∧ x l = (.ok a, l') ∧ l.Grows l' := by
  obtain ⟨ns', hpop, hns, hgrows, hanswers, hQ⟩ := h
  exact ⟨ns', hpop, hns, hgrows, hanswers, fun a ha => ⟨hQ a ha, Prod.ext ha rfl, hgrows⟩⟩

/-- One stage: a new test and its intersection with the type. -/
lemma yields_suchThat (h : WellFormed terms l ns) (pred : Fn) (hbase : base ∈ ns) :
    Yields terms l ns (Build.suchThat pred (.type base)) fun l' ns' s => s ∈ ns' ∧ ∃ label,
      .predicate label pred ∈ ns' ∧ l'.Combines (.predicate label pred) base s (.operator .intersection) := by
  refine (makes_predicate h pred none).ran.bind ?_
  rintro guard l' ns' h' hns - ⟨hguard, hrun, -⟩
  obtain rfl := Except.ok.inj (congrArg Prod.fst hrun)
  refine (makes_compound h' (fun hop => by cases hop) hguard (hns hbase)).ran.mono ?_
  rintro l'' ns'' s hns' ⟨hs, hrun', hgrows⟩
  exact ⟨hs, _, hns' hguard, combines_operator h' hguard (hns hbase) hrun' hgrows⟩

/-- All stages: those after any number of tests lie above the last one. -/
lemma yields_stage (h : WellFormed terms l ns) (hbase : base ∈ ns) (preds : List Fn) :
    Yields terms l ns (Build.stage (.type base) preds) fun l' ns' r =>
      ∃ t, r = .type t ∧ t ∈ ns' ∧ l'.Narrows ns' base preds t ∧ ∀ front back, preds = front ++ back →
        ∃ s ∈ ns', (Build.stage (.type base) front l).1 = .ok (.type s) ∧ ReflTransGen (l'.Offers .supersets) t s := by
  induction preds generalizing l ns base with
  | nil =>
    refine Yields.pure h ⟨base, rfl, hbase, .done base, fun front back hsplit => ?_⟩
    obtain ⟨rfl, rfl⟩ := List.append_eq_nil_iff.mp hsplit.symm
    exact ⟨base, hbase, rfl, .refl⟩
  | cons pred preds ih =>
    rw [Build.stage_cons]
    refine (yields_suchThat h pred hbase).ran.bind ?_
    rintro s l' ns' h' hns - ⟨⟨hs, label, hguard, hmerges, hoffers⟩, hrun, -⟩
    refine (ih h' hs).ran.mono ?_
    rintro l'' ns'' r hns' ⟨⟨t, rfl, ht, hnarrows, hstages⟩, -, hgrows⟩
    have hnarrows' : l''.Narrows ns'' base (pred :: preds) t := by
      refine .test (hns' (hns hbase)) (hns' hguard) hmerges ?_ ?_ hnarrows
      · exact ((hoffers .supersets base).mpr (.inr (.inl rfl))).mono hgrows
      · exact ((hoffers .supersets _).mpr (.inl rfl)).mono hgrows
    refine ⟨t, rfl, ht, hnarrows', fun front back hsplit => ?_⟩
    cases front with
    | nil => exact ⟨base, hns' (hns hbase), rfl, hnarrows'.path⟩
    | cons pred' front =>
      obtain ⟨rfl, hsplit'⟩ := List.cons.inj hsplit
      obtain ⟨u, hu, hstage, hpath⟩ := hstages front back hsplit'
      refine ⟨u, hu, ?_, hpath⟩
      rw [Build.stage_cons, bind_of_ok hrun]
      exact hstage

/-- The value passes the test. -/
def Interpretation.Passes (I : Interpretation) (pred : Fn) (v : Value) : Prop :=
  ∃ a, I.test pred v = .ok a ∧ a.isTruthy = true

/-- What a type is narrowed to has what the type has and all tests pass, wherever they answer. -/
lemma Lattice.Narrows.decides (h : l.Narrows ns base preds t) (hpop : WellFormed terms l ns) (hsorted : base.Sorted)
    {I : Interpretation} {v : Value} (hbase : ∃ a, (base.has I v).result = .ok a)
    (hpreds : ∀ pred ∈ preds, ∃ a, I.test pred v = .ok a) :
    t.Decides I v (base.Accepts I v ∧ ∀ pred ∈ preds, I.Passes pred v) := by
  induction h with
  | done t => exact Ty.decides_iff.mpr ⟨hbase, by simp⟩
  | @test base s t label pred preds hmem hguard hmerges _ _ _ ih =>
    obtain ⟨hpred, hpreds⟩ := List.forall_mem_cons.mp hpreds
    have haccepts : (Ty.predicate label pred).Accepts I v ↔ I.Passes pred v := by
      rw [Ty.Accepts, Ty.has]
      exact Iff.rfl
    have hanswers : ∃ a, ((Ty.predicate label pred).has I v).result = .ok a := by
      rw [Ty.has]
      exact hpred
    have hstage := hmerges.decides hpop hguard hmem (.of_flat rfl) hsorted hanswers hbase
    obtain ⟨hsanswers, hsaccepts⟩ := Ty.decides_iff.mp hstage
    obtain ⟨htanswers, htaccepts⟩ := Ty.decides_iff.mp (ih hmerges.sorted hsanswers hpreds)
    refine Ty.decides_iff.mpr ⟨htanswers, ?_⟩
    rw [htaccepts, hsaccepts, haccepts, List.forall_mem_cons, and_comm (a := I.Passes pred v), and_assoc]

/-- What is equal to a type above another one contains that one, and so what is copied from it. -/
lemma WellFormed.supersedes_copied (h : WellFormed terms l ns) (hdoc : terms.documented) {s t u w : Ty} (hs : s ∈ ns)
    (ht : t ∈ ns) (hcopied : l.Copied s t) (hu : u ∈ ns) (hpath : ReflTransGen (l.Offers .supersets) s w)
    (hequal : u.equals w = .ok true) : (Build.supersedes (.type u) (.type t) l).1 = .ok true := by
  have hproper : ∀ v ∈ ns, v.Proper := fun v hv => (h.sound v hv).regular.proper
  rw [h.supersedes_iff hdoc hu ht]
  exact Lattice.RelatedUpToParts.contains l.offerSimulation_copied (.refl u)
    (.related ⟨hcopied, hproper s hs, hproper t ht⟩)
    ⟨u, w, .refl, hpath, hequal⟩

end Stages

/-- A pipeline of tests can be applied to any type. The result has what the type has and every test passes, wherever
the type and the tests answer. From then on and whatever happens, the type is found to contain the result, and so are
what the pipeline had come to after any number of tests, and any type of what one of the tests passes, whenever it
was made. -/
theorem Made.pipeline_narrows {l : Lattice} {ts : List Ty} (h : Made { documented := True, differences := True } l ts)
    {base : Ty} (hbase : base ∈ ts) (name : String) (preds : List Fn) :
    ∃ t after, Build.compose name (.type base) (preds.map Build.suchThat) l = (.ok t, after) ∧
      (∀ I v, (∃ a, (base.has I v).result = .ok a) → (∀ pred ∈ preds, ∃ a, I.test pred v = .ok a) →
        t.Decides I v (base.Accepts I v ∧ ∀ pred ∈ preds, I.Passes pred v)) ∧
      ∀ l' ts', Later ⟨True, True⟩ after (t :: ts) l' ts' →
        (Build.supersedes (.type base) (.type t) l').1 = .ok true ∧
        (∀ front back, preds = front ++ back → ∃ s, (Build.stage (.type base) front l).1 = .ok (.type s) ∧
          (Build.supersedes (.type s) (.type t) l').1 = .ok true) ∧
        ∀ pred ∈ preds, ∀ label, .predicate label pred ∈ ts' →
          (Build.supersedes (.type (.predicate label pred)) (.type t) l').1 = .ok true := by
  obtain ⟨ns, hpop, hns⟩ := h.wellFormed
  obtain ⟨_, l₁, ns₁, hstage, hpop₁, hns₁, -, last, rfl, hlast, hnarrows, hstages⟩ :=
    (yields_stage hpop (hns hbase) preds).succeeds trivial
  obtain ⟨t, after, ns₂, hrun, hpop₂, hns₂, hgrows, ht, horigin⟩ :=
    (copies_withAlias hpop₁ name hlast).succeeds trivial
  have hrefiner : (Copying.withAlias name).refiner.apply (.type last) l₁ = (.ok t, after) := hrun
  have hcopied : after.Copied last t := ⟨horigin, fun _ d => stored?_of_copying hpop₁ hlast hrefiner d⟩
  refine ⟨t, after, ?_, fun I v hanswers hpreds => ?_, fun l' ts' hlater => ?_⟩
  · rw [Build.compose_eq, bind_of_ok hstage]
    exact hrun
  · have hdecides := hnarrows.decides hpop₁ (h.sorted trivial hbase) hanswers hpreds
    unfold Ty.Decides at hdecides ⊢
    rw [horigin.has_eq]
    exact hdecides
  · have hmem : t :: ts ⊆ ns₂ := List.cons_subset.mpr ⟨ht, fun u hu => hns₂ (hns₁ (hns hu))⟩
    obtain ⟨ns', hpop', hns', hts', hgrows'⟩ := hlater.wellFormed hpop₂ hmem
    have hcopied' := hpop₂.copied_of_grows hgrows' (hns₂ hlast) hcopied
    have hrefl : ∀ u ∈ ns', u.equals u = .ok true := fun u hu => Ty.agrees_refl (hpop'.sound u hu).regular.proper false
    have hfound : ∀ u ∈ ns', ∀ w, ReflTransGen (l₁.Offers .supersets) last w → u.equals w = .ok true →
        (Build.supersedes (.type u) (.type t) l').1 = .ok true := by
      intro u hu w hpath
      refine hpop'.supersedes_copied trivial (hns' (hns₂ hlast)) (hns' ht) hcopied' hu ?_
      exact ReflTransGen.mono (fun _ _ hoffers => hoffers.mono (hgrows.trans hgrows')) last w hpath
    refine ⟨?_, fun front back hsplit => ?_, fun pred hpred label hlabel => ?_⟩
    · have hmem' : base ∈ ns' := hns' (hmem (List.mem_cons_of_mem t hbase))
      exact hfound base hmem' base hnarrows.path (hrefl base hmem')
    · obtain ⟨s, hs, hrun', hpath⟩ := hstages front back hsplit
      have hmem' : s ∈ ns' := hns' (hns₂ hs)
      exact ⟨s, hrun', hfound s hmem' s hpath (hrefl s hmem')⟩
    · obtain ⟨label', hpath⟩ := hnarrows.guard hpred
      exact hfound _ (hts' hlabel) _ hpath (by simp [Ty.equals, Ty.agrees])

/-- The small ones among the positive even numbers, tested for being even once more. -/
theorem Made.pipeline_narrows_grouped :
    let preds := [Fn.named "small", Fn.named "even"]
    Made { documented := True, differences := True } groupedLattice groupedTypes ∧ groupedType 3 ∈ groupedTypes ∧
      ∃ t after, Build.compose "few" (.type (groupedType 3)) (preds.map Build.suchThat) groupedLattice =
          (.ok t, after) ∧
        t.Accepts (constantInterpretation true) (.integer 2) ∧
        ¬ t.Accepts (soleInterpretation "even") (.integer (-2)) ∧
        (Build.supersedes (.type (groupedType 3)) (.type t) after).1 = .ok true ∧
        (∃ s, (Build.stage (.type (groupedType 3)) (preds.take 1) groupedLattice).1 = .ok (.type s) ∧
          (Build.supersedes (.type s) (.type t) after).1 = .ok true) ∧
        (Build.supersedes (.type (groupedType 6)) (.type t) after).1 = .ok true := by
  intro preds
  have hmade := groupedLattice_made { documented := True, differences := True }
  have hmem : groupedType 3 ∈ groupedTypes := by simp [groupedTypes, groupedType]
  obtain ⟨t, after, hrun, hdecides, hlater⟩ := hmade.pipeline_narrows hmem "few" preds
  obtain ⟨hbase, hstages, htests⟩ := hlater after (t :: groupedTypes) .now
  have hsmall := hstages (preds.take 1) (preds.drop 1) rfl
  have heven := htests (.named "even") (by simp [preds]) (groupedType 6).label
    (by simp [groupedTypes, groupedType, Ty.label])
  refine ⟨hmade, hmem, t, after, hrun, ?_, ?_, hbase, hsmall, heven⟩
  · have hall := hdecides (constantInterpretation true) (.integer 2) ⟨.boolean true, rfl⟩ fun _ _ => ⟨_, rfl⟩
    exact (Ty.decides_iff.mp hall).2.mpr ⟨⟨.boolean true, rfl, rfl⟩, fun _ _ => ⟨_, rfl, rfl⟩⟩
  · have hsome := hdecides (soleInterpretation "even") (.integer (-2)) ⟨.boolean false, rfl⟩ fun _ _ => ⟨_, rfl⟩
    intro haccepts
    obtain ⟨a, ha, htruthy⟩ := ((Ty.decides_iff.mp hsome).2.mp haccepts).1
    obtain rfl : a = .boolean false := (Except.ok.inj ha).symm
    cases htruthy

end StructuralTypes
