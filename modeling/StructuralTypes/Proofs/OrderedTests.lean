import StructuralTypes.Proofs.CanonicalSessions
import StructuralTypes.Proofs.OperatorMeaning

/-!
# Tests in order

An intersection tests its operands from the left and stops at the first that rejects a value, so a test further on
may fail without anybody noticing. Sorting operands anew could bring such a test forward. It does not: where the
operands of both sides are sorted, the intersection of two types answers about every value that both sides answer
about, and it has what both have.
-/

namespace StructuralTypes

namespace Ty

variable {I : Interpretation} {v : Value} {t : Ty} {ts us : List Ty}

/-- Whatever type fails to accept the value, one that rejects it comes no later. -/
def Resolved (I : Interpretation) (v : Value) (ts : List Ty) : Prop :=
  ∀ u ∈ ts, ¬u.Accepts I v → ∃ t ∈ ts, t.Rejects I v ∧ t.sortKey ≤ u.sortKey

/-- Types with the same key test the value alike. -/
def Keyed (I : Interpretation) (v : Value) (ts : List Ty) : Prop :=
  ∀ t ∈ ts, ∀ u ∈ ts, t.sortKey = u.sortKey → t.has I v = u.has I v

lemma Resolved.append (h : Resolved I v ts) (h' : Resolved I v us) : Resolved I v (ts ++ us) := by
  intro u hu hout
  rcases List.mem_append.mp hu with hu | hu
  · obtain ⟨t, ht, hrejects, hle⟩ := h u hu hout
    exact ⟨t, List.mem_append_left us ht, hrejects, hle⟩
  · obtain ⟨t, ht, hrejects, hle⟩ := h' u hu hout
    exact ⟨t, List.mem_append_right ts ht, hrejects, hle⟩

lemma Resolved.perm (h : Resolved I v ts) (hperm : us.Perm ts) : Resolved I v us := by
  intro u hu hout
  obtain ⟨t, ht, hrest⟩ := h u (hperm.mem_iff.mp hu) hout
  exact ⟨t, hperm.mem_iff.mpr ht, hrest⟩

/-- Sorted types are tested to the end exactly if those that fail come after one that rejects. -/
lemma allHave_answers_iff (hsorted : (ts.map sortKey).Pairwise (· ≤ ·)) (hkeyed : Keyed I v ts) :
    (∃ b, (allHave I ts v).result = .ok b) ↔ Resolved I v ts := by
  induction ts with
  | nil => exact iff_of_true ⟨true, by rw [allHave]; rfl⟩ (List.forall_mem_nil _)
  | cons t ts ih =>
    rw [List.map_cons, List.pairwise_cons] at hsorted
    have hfirst : ∀ u ∈ t :: ts, t.sortKey ≤ u.sortKey := by
      intro u hu
      rcases List.mem_cons.mp hu with rfl | hu
      · exact le_refl _
      · exact hsorted.1 _ (List.mem_map_of_mem hu)
    have hrest := ih hsorted.2 fun u hu w hw => hkeyed u (List.mem_cons_of_mem t hu) w (List.mem_cons_of_mem t hw)
    simp only [allHave, Traced.guard_result_iff, Traced.pure_result_iff]
    constructor
    · rintro ⟨b, ⟨haccepts, hb⟩ | ⟨hrejects, -⟩⟩ u hu hout
      · rcases List.mem_cons.mp hu with rfl | hu
        · exact absurd haccepts hout
        · obtain ⟨w, hw, hbefore⟩ := hrest.mp ⟨b, hb⟩ u hu hout
          exact ⟨w, List.mem_cons_of_mem t hw, hbefore⟩
      · exact ⟨t, List.mem_cons_self, hrejects, hfirst u hu⟩
    · intro hresolved
      by_cases haccepts : t.Accepts I v
      · have htail : Resolved I v ts := by
          intro u hu hout
          obtain ⟨w, hw, hrejects, hle⟩ := hresolved u (List.mem_cons_of_mem t hu) hout
          rcases List.mem_cons.mp hw with rfl | hw
          · exact absurd hrejects haccepts.not_fails
          · exact ⟨w, hw, hrejects, hle⟩
        obtain ⟨b, hb⟩ := hrest.mpr htail
        exact ⟨b, .inl ⟨haccepts, hb⟩⟩
      -- what rejects comes no later than the first type, so it is the first or one with the same key
      · obtain ⟨w, hw, hrejects, hle⟩ := hresolved t List.mem_cons_self haccepts
        have hsame : t.has I v = w.has I v :=
          hkeyed t List.mem_cons_self w hw (le_antisymm (hfirst w hw) hle)
        refine ⟨false, .inr ⟨?_, rfl⟩⟩
        rw [hsame]
        exact hrejects

/-- A type answers if what it contributes to an intersection does, tested from the left. -/
lemma has_answers_iff : (∃ a, (t.has I v).result = .ok a) ↔
    ∃ b, (allHave I (t.contribution .intersection) v).result = .ok b := by
  by_cases hmade : t.isMadeBy .intersection = true
  · obtain ⟨label, ts, rfl⟩ := exists_of_isMadeBy hmade
    rw [contribution_compound, has]
    constructor
    · rintro ⟨a, ha⟩
      obtain ⟨b, hb, -⟩ := Traced.bind_result_iff.mp ha
      exact ⟨b, hb⟩
    · exact Traced.map_answers _
  · rw [contribution_of_flat (by simpa using hmade)]
    constructor
    · intro hanswers
      exact allHave_answers (List.forall_mem_singleton.mpr hanswers)
    · rintro ⟨b, hb⟩
      rw [allHave, Traced.guard_result_iff] at hb
      rcases hb with ⟨⟨a, ha, -⟩, -⟩ | ⟨⟨a, ha, -⟩, -⟩ <;> exact ⟨a, ha⟩

/-- What the type contributes to an intersection is sorted. -/
def Sorted (t : Ty) : Prop := ((t.contribution .intersection).map sortKey).Pairwise (· ≤ ·)

lemma Sorted.of_flat (h : t.isMadeBy .intersection = false) : t.Sorted := by
  rw [Sorted, contribution_of_flat h]
  exact List.pairwise_singleton _ _

end Ty

section Merging

variable {terms : Terms} {l : Lattice} {ns ts : List Ty} {I : Interpretation} {v : Value} {left right t : Ty}

/-- Nodes with the same key are copies of each other. -/
lemma WellFormed.keyed (h : WellFormed terms l ns) (hts : ts ⊆ ns) : Ty.Keyed I v ts := by
  intro t ht u hu hkey
  have hserial : t.serial = u.serial := congrArg (fun key => (ofLex key).2) hkey
  exact (h.sameOrigin t (hts ht) u (hts hu) hserial).has_eq.symm

lemma Merges.sorted (h : Merges .intersection left right t) : t.Sorted := by
  obtain ⟨label, ranked, hranked, rfl, -⟩ := h
  rw [Ty.Sorted, contribution_compound]
  exact (mergeOperands_sorted hranked).2

/-- An intersection answers wherever both sides do. -/
lemma Merges.decides (h : Merges .intersection left right t) (hpop : WellFormed terms l ns) (hl : left ∈ ns)
    (hr : right ∈ ns) (hleft : left.Sorted) (hright : right.Sorted)
    (hanswers : ∃ a, (left.has I v).result = .ok a) (hanswers' : ∃ a, (right.has I v).result = .ok a) :
    t.Decides I v (left.Accepts I v ∧ right.Accepts I v) := by
  refine Ty.decides_iff.mpr ⟨?_, h.accepts_both_iff⟩
  have hsorted := h.sorted
  obtain ⟨label, ranked, hranked, rfl, -⟩ := h
  have hperm := mergeOperands_perm hranked
  have hmem := contributions_mem hpop hl hr .intersection
  obtain ⟨hlmem, hrmem⟩ := List.append_subset.mp hmem
  rw [Ty.has_answers_iff, Ty.allHave_answers_iff hleft (hpop.keyed hlmem)] at hanswers
  rw [Ty.has_answers_iff, Ty.allHave_answers_iff hright (hpop.keyed hrmem)] at hanswers'
  rw [Ty.has_answers_iff, Ty.allHave_answers_iff hsorted, contribution_compound]
  · exact (hanswers.append hanswers').perm hperm
  · rw [contribution_compound]
    exact hpop.keyed fun u hu => hmem (hperm.mem_iff.mp hu)

end Merging

section InCanonicalForm

variable {terms : Terms} {l : Lattice} {ts : List Ty} {t : Ty}

/-- A question keeps all types at hand in canonical form. -/
lemma AllCanonical.ask (h : AllCanonical l ts) {α : Type} {x : Build α} {Q : List Ty → α → α → Prop}
    (hx : ∀ ns, NodeEnumeration True l ns → ts ⊆ ns → BuildSimulates (.byMessage True) True .refl ns l l x x Q)
    (hgrowing : Growing (fun l => l) x) : AllCanonical (x l).2 ts := by
  obtain ⟨ns, henum, hts, hcanon⟩ := h
  obtain ⟨ns', hns, hembed, -⟩ := hx ns henum hts
  exact ⟨ns', hembed.enumeration, fun t ht => hns (hts ht), fun t ht => (hcanon t ht).mono (hgrowing l)⟩

lemma preservesCanonical_apply {f : Refiner} (hf : f.Allowed terms ts) {r : Referent} (hr : r.Known ts) :
    PreservesCanonical ts (f.apply r) := by
  cases f with
  | operator op left => exact preservesCanonical_compound op hf.2 hr
  | without left => exact preservesCanonical_without hf hr
  | container outer extractor => exact preservesCanonical_container extractor hf hr
  | suchThat pred => exact preservesCanonical_suchThat pred hr
  | withAlias name => exact preservesCanonical_withAlias name hr
  | withoutAlias => exact preservesCanonical_withoutAlias hr
  | withDocs docs => exact preservesCanonical_withMetadata none (some docs) hr

lemma mem_typesOf {rs : List Referent} : t ∈ Act.typesOf rs ↔ .type t ∈ rs := Referent.mem_types

/-- Edges that are worked out lead to types in canonical form. -/
lemma AllCanonical.edges (h : AllCanonical l ts) (ht : t ∈ ts) (d : Direction) {rs : List Referent} {l' : Lattice}
    (hrun : t.edges d l = (.ok rs, l')) : AllCanonical l' (Act.typesOf rs ++ ts) := by
  have hedges : ∀ u ∈ Act.typesOf rs, l'.DeeplyCanonical u :=
    fun u hu => h.deeplyCanonical_of_edges ht hrun (mem_typesOf.mp hu)
  obtain ⟨ns, henum, hts, hcanon⟩ := h
  have hself : LatticeEmbedding (.byMessage True) True .refl ns l l := henum.embedding_self
  have hedges := buildSimulates_edges hself (hts ht) d
  rw [t.renumber_refl] at hedges
  obtain ⟨ns', hns, hembed, hresults⟩ := hedges
  rw [hrun] at hembed hresults
  have hgrows : l.Grows l' := by
    have hgrowing := growing_edges d t l
    rw [hrun] at hgrowing
    exact hgrowing
  cases hresults with
  | ok hrs =>
    refine ⟨ns', hembed.enumeration, ?_, ?_⟩
    · refine List.append_subset.mpr ⟨fun u hu => ?_, fun u hu => hns (hts hu)⟩
      exact (eq_map_of_renumbersTo hrs).2 _ (mem_typesOf.mp hu)
    · exact List.forall_mem_append.mpr ⟨hedges, fun u hu => (hcanon u hu).mono hgrows⟩

/-- A type that is constructed is in canonical form. -/
lemma AllCanonical.gain (h : AllCanonical l ts) (hdoc : terms.documented) {ns : List Ty} {x : Build Ty}
    (hpreserves : PreservesCanonical ts x) (hmakes : Makes terms l ns x) :
    AllCanonical ((do return [← x] : Build (List Ty)) l).2
      (Act.gained ((do return [← x] : Build (List Ty)) l).1 ++ ts) := by
  obtain ⟨t, l', _, hrun, -⟩ := hmakes.succeeds hdoc
  rw [bind_of_ok hrun]
  exact hpreserves l l' t h hrun

lemma AllCanonical.asked {α : Type} {x : Build α} (h : AllCanonical (x l).2 ts) :
    AllCanonical ((do let _ ← x; return [] : Build (List Ty)) l).2
      (Act.gained ((do let _ ← x; return [] : Build (List Ty)) l).1 ++ ts) := by
  rcases hrun : x l with ⟨fault | a, l'⟩ <;> rw [hrun] at h
  · rw [bind_of_error hrun]
    exact h
  · rw [bind_of_ok hrun]
    exact h

lemma AllCanonical.act (h : AllCanonical l ts) (hmade : Made terms l ts) (hdoc : terms.documented) (a : Act)
    (ha : a.Allowed terms ts) : AllCanonical (a.run l).2 (Act.gained (a.run l).1 ++ ts) := by
  obtain ⟨ns, hpop, hns⟩ := hmade.wellFormed
  have hknown : ∀ {ns : List Ty} {t : Ty}, ts ⊆ ns → t ∈ ts → (Referent.type t).RenumbersTo .refl ns (.type t) :=
    fun hts ht => Referent.Known.renumbersTo (r := .type _) ht hts
  cases a with
  | any => exact h.gain hdoc preservesCanonical_any (makes_any hpop)
  | predicate pred name? =>
    exact h.gain hdoc (preservesCanonical_predicate pred name?) (makes_predicate hpop pred name?)
  | refine f t => exact h.gain hdoc (preservesCanonical_apply ha.1 ha.2) (makes_apply hpop (ha.1.mono hns) (hns ha.2))
  | compose name base fs =>
    refine h.gain hdoc (preservesCanonical_compose name (fun g hg ts' hts' r hr => ?_) ha.1)
      (makes_compose hpop name (hns ha.1) fun f hf => (ha.2 f hf).mono hns)
    obtain ⟨f, hf, rfl⟩ := List.mem_map.mp hg
    exact preservesCanonical_apply ((ha.2 f hf).mono hts') hr
  | parts t =>
    obtain ⟨ns', henum, hts, hcanon⟩ := h
    exact ⟨ns', henum, List.append_subset.mpr ⟨henum.parts t (hts ha), hts⟩,
      List.forall_mem_append.mpr ⟨fun p hp => (hcanon t ha).part hp, hcanon⟩⟩
  | edges d t =>
    obtain ⟨rs, l', _, hrun, -⟩ := (yields_edges hpop (hns ha) d).succeeds hdoc
    rw [Act.run, bind_of_ok hrun]
    exact h.edges ha d hrun
  | search sup sub =>
    exact AllCanonical.asked (h.ask
      (fun _ henum hts => buildSimulates_supersedes (NodeEnumeration.embedding_self henum) (hknown hts ha.1)
        (hknown hts ha.2))
      (growing_supersedes (.type sup) (.type sub)))
  | explore d root =>
    exact AllCanonical.asked (h.ask
      (fun _ henum hts => buildSimulates_reachable (NodeEnumeration.embedding_self henum) d (hknown hts ha))
      (growing_reachable d (.type root)))

/-- Types that come about by construction are in canonical form, with all that they lead to. -/
theorem Made.allCanonical (h : Made terms l ts) (hdoc : terms.documented) : AllCanonical l ts := by
  induction h with
  | nothing => exact ⟨[], .empty True, List.Subset.refl [], List.forall_mem_nil _⟩
  | act a hmade ha ih => exact ih.act hmade hdoc a ha

lemma Made.sorted (h : Made terms l ts) (hdoc : terms.documented) (ht : t ∈ ts) : t.Sorted := by
  by_cases hmade : t.isMadeBy .intersection = true
  · obtain ⟨label, us, rfl⟩ := Ty.exists_of_isMadeBy hmade
    have hcanonical := ((h.allCanonical hdoc).deeplyCanonical ht).canonical
    rw [Ty.Sorted, contribution_compound]
    exact hcanonical.1.sorted
  · exact .of_flat (by simpa using hmade)

end InCanonicalForm

end StructuralTypes
