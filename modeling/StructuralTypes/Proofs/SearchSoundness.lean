import StructuralTypes.Proofs.StructuralEquality
import StructuralTypes.Proofs.WellFounded

/-!
# Searches are sound

If a search finds that one type contains another, the first one rejects nothing that the second one
accepts. Tests may fail, and then containment is not transitive: a container whose outer part fails on
a value rejects nothing, whatever is put in place of its inner part. So going up keeps acceptance, step
by step, while going down is argued at once for all the steps that lead to the equal type.
-/

namespace StructuralTypes

open Relation

namespace Ty

variable {I : Interpretation} {operators : Operator → Prop} {d : Direction} {t u : Ty} {v : Value}

/-- What a type without differences accepts is accepted by all that its edges lead up to. -/
lemma Leads.accepts (h : Leads d t u) (hd : d = .supersets) (hregular : t.Regular operators)
    (hdifference : ¬operators .difference) (haccepts : t.Accepts I v) : u.Accepts I v := by
  induction h generalizing v with
  | operand | narrowInner | narrowOuter | narrowBoth => cases hd
  | @merged label op ts u hop hsub hsize =>
    cases hregular with
    | compound _ hoperator _ _ =>
      cases op with
      | union => exact (hop rfl).elim
      | difference => exact (hdifference hoperator).elim
      | intersection =>
        apply accepts_contribution_iff.mpr
        intro w hw
        exact accepts_intersection_iff.mp haccepts w (hsub hw)
  | left => exact haccepts.left
  | outer => exact (accepts_unary_iff.mp haccepts).1
  | widenInner _ ih =>
    cases hregular with
    | unary _ _ _ hinner =>
      obtain ⟨houter, hfault, hitems⟩ := accepts_unary_iff.mp haccepts
      refine accepts_unary_iff.mpr ⟨houter, hfault, fun item hitem => ?_⟩
      exact ih hd hinner (hitems item hitem)

/-- Going down from a container narrows its two parts, each by going down from it. -/
lemma narrowed_of_leads {label : Label} {outer inner : Ty} {extractor : Fn}
    (h : ReflTransGen (Leads .subsets) (.unary label outer extractor inner) u) :
    ∃ label' outer' inner', u = .unary label' outer' extractor inner' ∧
      ReflTransGen (Leads .subsets) outer outer' ∧ ReflTransGen (Leads .subsets) inner inner' := by
  induction h with
  | refl => exact ⟨label, outer, inner, rfl, .refl, .refl⟩
  | tail _ hstep ih =>
    obtain ⟨label', outer', inner', rfl, houter, hinner⟩ := ih
    cases hstep with
    | narrowInner hi => exact ⟨_, _, _, rfl, houter, hinner.tail hi⟩
    | narrowOuter ho => exact ⟨_, _, _, rfl, houter.tail ho, hinner⟩
    | narrowBoth ho hi => exact ⟨_, _, _, rfl, houter.tail ho, hinner.tail hi⟩

/-- A type rejects nothing that is accepted by a type it leads down to. -/
lemma not_rejects_of_leads (h : ReflTransGen (Leads .subsets) t u) (haccepts : u.Accepts I v) :
    ¬t.Rejects I v := by
  -- On the size of the upper tree: what a container leads to only says something about its parts.
  induction hn : t.size using Nat.strong_induction_on generalizing t u v with
  | _ n ih =>
    intro hrejects
    rcases ReflTransGen.cases_head h with rfl | ⟨w, hfirst, hrest⟩
    · exact Traced.Passes.not_fails haccepts hrejects
    · have hlt := hfirst.size_lt
      cases t with
      | compound label op ts =>
        cases hfirst with
        | operand hw =>
          exact ih w.size (by omega) hrest haccepts rfl (rejects_union_iff.mp hrejects w hw)
      | unary label outer extractor inner =>
        simp only [size] at hn
        obtain ⟨label', outer', inner', rfl, houter, hinner⟩ := narrowed_of_leads h
        obtain ⟨haccepts, -, hitems⟩ := accepts_unary_iff.mp haccepts
        rcases rejects_of_unary hrejects with hrejects | ⟨item, hitem, hrejects⟩
        · exact ih outer.size (by omega) houter haccepts rfl hrejects
        · exact ih inner.size (by omega) hinner (hitems item hitem) rfl hrejects
      | _ => cases hfirst

lemma Accepts.of_equals {s t : Ty} (h : s.equals t = .ok true) (haccepts : t.Accepts I v) :
    s.Accepts I v := by
  rw [Accepts, has_eq_of_agrees h v]
  exact haccepts

end Ty

lemma WellFormed.accepts_of_reaches {terms : Terms} (hterms : ¬terms.differences) {l : Lattice}
    {ns : List Ty} (h : WellFormed terms l ns) {I : Interpretation} {t u : Ty} {v : Value} (ht : t ∈ ns)
    (hreach : l.Reaches .supersets t u) (haccepts : t.Accepts I v) : u.Accepts I v := by
  have hdifference : ¬terms.operators .difference := fun hop => hterms (hop rfl)
  induction hreach with
  | refl => exact haccepts
  | @tail u w hreach hedge ih =>
    have hu := (h.reaches ht hreach).1
    exact (h.edge hu hedge).2.accepts rfl (h.sound u hu).regular hdifference ih

/-- Types made without differences: what is found to contain a type rejects nothing of it. -/
theorem Made.supersedes_sound {l : Lattice} {ts : List Ty}
    (h : Made { documented := False, differences := False } l ts) {sup sub : Ty} (hsup : sup ∈ ts)
    (hsub : sub ∈ ts) (hfound : (Build.supersedes (.type sup) (.type sub) l).1 = .ok true)
    (I : Interpretation) (v : Value) (haccepts : sub.Accepts I v) : ¬sup.Rejects I v := by
  obtain ⟨ns, hpop, hns⟩ := h.wellFormed
  obtain ⟨ns', hpop', hns', -, hlinked, -⟩ :=
    supersedes_outcome (WellFormed.walkable _) hpop (hns hsup) (hns hsub)
  obtain ⟨⟨low, high⟩, hreach, hequal⟩ := hlinked hfound
  obtain ⟨hdown, hup⟩ := Lattice.pairReaches_iff.mp hreach
  have hhigh : high.Accepts I v := hpop'.accepts_of_reaches id (hns' (hns hsub)) hup haccepts
  have hlow : low.Accepts I v := .of_equals hequal hhigh
  exact Ty.not_rejects_of_leads (hpop'.reaches (hns' (hns hsup)) hdown).2 hlow

theorem Made.supersedes_sound_boxes :
    let I : Interpretation := ⟨fun f _ => if f = .named "odd" then .error (.refused "odd")
      else .ok (.boolean true), fun _ v => ⟨[v, v], none⟩⟩
    Made { documented := False, differences := False } boxLattice boxTypes ∧
      (Build.supersedes (.type (boxType 1)) (.type (boxType 0)) boxLattice).1 = .ok true ∧
      (boxType 0).Accepts I (.integer 4) ∧ ¬(boxType 1).Rejects I (.integer 4) := by
  intro I
  have hfound : (Build.supersedes (.type (boxType 1)) (.type (boxType 0)) boxLattice).1 = .ok true := rfl
  have haccepts : (boxType 0).Accepts I (.integer 4) := ⟨.boolean true, rfl, rfl⟩
  have hmade := boxLattice_made { documented := False, differences := False }
  exact ⟨hmade, hfound, haccepts, hmade.supersedes_sound (by simp [boxTypes, boxType])
    (by simp [boxTypes, boxType]) hfound I _ haccepts⟩

end StructuralTypes
