import StructuralTypes.Proofs.MembershipLaws

/-!
# Structural equality

Between types without a bare part, structural equality does not depend on which side is asked. It is
reflexive and symmetric, and the label of a node plays no part in it. Types are equal exactly if they
have the same structure, which is a relation between trees that asks nobody. Types of the same structure
test alike, down to the functions they call.
-/

namespace StructuralTypes.Ty

lemma agreesAll_comm {ts us : List Ty} (hus : ∀ u ∈ us, u.Proper)
    (hts : ∀ t ∈ ts, ∀ {u : Ty}, u.Proper → ∀ a b, agrees a t u = agrees b u t) (a b : Bool) :
    agreesAll a ts us = agreesAll b us ts := by
  induction ts generalizing us with
  | nil => cases us <;> simp [agreesAll]
  | cons t ts ih =>
    cases us with
    | nil => simp [agreesAll]
    | cons u us =>
      have htail := ih (fun v hv => hus v (List.mem_cons_of_mem u hv))
        fun v hv => hts v (List.mem_cons_of_mem t hv)
      rw [agreesAll, agreesAll, hts t List.mem_cons_self (hus u List.mem_cons_self) a b, htail]

/-- Types without a bare part agree whichever comes first and whichever is asked. -/
lemma agrees_comm {s t : Ty} (hs : s.Proper) (ht : t.Proper) (a b : Bool) :
    agrees a s t = agrees b t s := by
  induction hs generalizing t a b with
  | any => cases ht <;> cases a <;> cases b <;> simp [agrees]
  | predicate => cases ht <;> cases a <;> cases b <;> simp [agrees, eq_comm]
  | compound label op _ ih =>
    cases ht with
    | compound label' op' hus =>
      simp only [agrees, agreesAll_comm hus ih a b, eq_comm]
    | _ => cases a <;> cases b <;> simp [agrees]
  | without label _ _ ihl ihr =>
    cases ht with
    | without label' hl hr => simp only [agrees, ihl hl (!a) (!b), ihr hr (!a) (!b)]
    | _ => cases a <;> cases b <;> simp [agrees]
  | unary label extractor _ _ iho ihi =>
    cases ht with
    | unary label' extractor' ho hi =>
      simp only [agrees, iho ho (!a) (!b), ihi hi (!a) (!b), eq_comm]
    | _ => cases a <;> cases b <;> simp [agrees]

lemma agrees_side {s t : Ty} (hs : s.Proper) (ht : t.Proper) (a b : Bool) :
    agrees a s t = agrees b s t :=
  (agrees_comm hs ht a a).trans (agrees_comm ht hs a b)

lemma equals_comm {s t : Ty} (hs : s.Proper) (ht : t.Proper) : s.equals t = t.equals s :=
  agrees_comm hs ht false false

/-- Two questions, the second of which is only put if the first one is answered by yes. -/
lemma both_of_ok_true {x y : Attempt Bool} (h : (do if ← x then y else return false) = .ok true) :
    x = .ok true ∧ y = .ok true := by
  rcases x with fault | _ | _
  · cases h
  · cases h
  · exact ⟨rfl, h⟩

lemma equals_unary_iff {outer outer' inner inner' : Ty} (ho : outer.Proper) (ho' : outer'.Proper)
    (hi : inner.Proper) (hi' : inner'.Proper) (label label' : Label) (e e' : Fn) :
    (unary label outer e inner).equals (unary label' outer' e' inner') = .ok true ↔
      e = e' ∧ outer.equals outer' = .ok true ∧ inner.equals inner' = .ok true := by
  -- a container hands the question on to the parts of the other side
  have houter : agrees true outer outer' = outer.equals outer' := agrees_side ho ho' true false
  have hinner : agrees true inner inner' = inner.equals inner' := agrees_side hi hi' true false
  rw [equals, agrees, Bool.not_false, houter, hinner]
  by_cases he : e = e'
  · rw [if_pos he]
    constructor
    · exact fun h => ⟨he, both_of_ok_true h⟩
    · rintro ⟨-, hsame, hsame'⟩
      rw [hsame, hsame']
      rfl
  · simp [he]

lemma agrees_setLabel (asksRight : Bool) (s t : Ty) (l : Label) :
    agrees asksRight s (t.setLabel l) = agrees asksRight s t := by
  cases asksRight <;> cases s <;> cases t <;> simp [agrees, setLabel]

lemma agreesAll_of_forall₂ {asksRight : Bool} {ts us : List Ty}
    (h : List.Forall₂ (fun t u => agrees asksRight t u = .ok true) ts us) :
    agreesAll asksRight ts us = .ok true := by
  induction h with
  | nil => simp [agreesAll]
  | cons hhead _ ih =>
    rw [agreesAll, hhead]
    exact ih

lemma agrees_compound {asksRight : Bool} {label label' : Label} {op : Operator} {ts us : List Ty}
    (h : List.Forall₂ (fun t u => agrees asksRight t u = .ok true) ts us) :
    agrees asksRight (.compound label op ts) (.compound label' op us) = .ok true := by
  rw [agrees, if_pos ⟨rfl, h.length_eq⟩]
  exact agreesAll_of_forall₂ h

lemma agrees_refl {t : Ty} (h : t.Proper) (asksRight : Bool) : agrees asksRight t t = .ok true := by
  induction h generalizing asksRight with
  | any => cases asksRight <;> simp [agrees]
  | predicate => cases asksRight <;> simp [agrees]
  | compound label op _ ih =>
    exact agrees_compound (List.forall₂_same.mpr fun t ht => ih t ht asksRight)
  | without label _ _ ihl ihr =>
    rw [agrees, ihl]
    exact ihr _
  | unary label extractor _ _ iho ihi =>
    rw [agrees, if_pos rfl, iho]
    exact ihi _

/-- The same structure: trees that agree in operators, functions and extractors. No bare type has the
structure of another one. -/
inductive Same : Ty → Ty → Prop
  | any (label label' : Label) : Same (.any label) (.any label')
  | predicate (label label' : Label) (pred : Fn) : Same (.predicate label pred) (.predicate label' pred)
  | compound (label label' : Label) (op : Operator) {ts us : List Ty} : ts.length = us.length →
      (∀ p ∈ ts.zip us, Same p.1 p.2) → Same (.compound label op ts) (.compound label' op us)
  | without (label label' : Label) {left left' right right' : Ty} : Same left left' → Same right right' →
      Same (.without label left right) (.without label' left' right')
  | unary (label label' : Label) (extractor : Fn) {outer outer' inner inner' : Ty} : Same outer outer' →
      Same inner inner' → Same (.unary label outer extractor inner) (.unary label' outer' extractor inner')

lemma Same.agrees {s t : Ty} (h : s.Same t) (asksRight : Bool) : agrees asksRight s t = .ok true := by
  induction h generalizing asksRight with
  | any => cases asksRight <;> simp [Ty.agrees]
  | predicate => cases asksRight <;> simp [Ty.agrees]
  | compound label label' op hlength _ ih =>
    exact agrees_compound (List.forall₂_iff_zip.mpr ⟨hlength, fun hp => ih _ hp asksRight⟩)
  | without label label' _ _ ihl ihr =>
    rw [Ty.agrees, ihl]
    exact ihr _
  | unary label label' extractor _ _ iho ihi =>
    rw [Ty.agrees, if_pos rfl, iho]
    exact ihi _

lemma forall₂_of_agreesAll {asksRight : Bool} {ts us : List Ty} (hlength : ts.length = us.length)
    (h : agreesAll asksRight ts us = .ok true) :
    List.Forall₂ (fun t u => agrees asksRight t u = .ok true) ts us := by
  induction ts generalizing us with
  | nil =>
    obtain rfl := List.eq_nil_of_length_eq_zero hlength.symm
    exact .nil
  | cons t ts ih =>
    cases us with
    | nil => cases hlength
    | cons u us =>
      rw [agreesAll] at h
      rcases hhead : agrees asksRight t u with fault | head
      · rw [hhead] at h
        cases h
      · rw [hhead] at h
        cases head with
        | false => cases h
        | true => exact .cons hhead (ih (Nat.succ.inj hlength) h)

lemma same_of_agrees {s t : Ty} {asksRight : Bool} (h : agrees asksRight s t = .ok true) : s.Same t := by
  -- the side that is asked changes from level to level, so it is left free
  induction hn : s.size using Nat.strong_induction_on generalizing s t asksRight with
  | _ n ih =>
    cases s with
    | bare label => cases asksRight <;> cases t <;> simp [agrees] at h
    | any label =>
      cases t with
      | any label' => exact .any label label'
      | _ => cases asksRight <;> simp [agrees] at h
    | predicate label pred =>
      cases t with
      | predicate label' pred' =>
        obtain rfl : pred = pred' := by cases asksRight <;> simpa [agrees] using h
        exact .predicate label label' pred
      | _ => cases asksRight <;> simp [agrees] at h
    | compound label op ts =>
      cases t with
      | compound label' op' us =>
        rw [agrees] at h
        by_cases hsame : op = op' ∧ ts.length = us.length
        · rw [if_pos hsame] at h
          obtain ⟨rfl, hlength⟩ := hsame
          obtain ⟨-, hzip⟩ := List.forall₂_iff_zip.mp (forall₂_of_agreesAll hlength h)
          refine .compound label label' op hlength fun p hp => ?_
          have hle := size_le_sizes (List.of_mem_zip hp).1
          simp only [size] at hn
          exact ih p.1.size (by omega) (hzip hp) rfl
        · rw [if_neg hsame] at h
          cases h
      | _ => cases asksRight <;> simp [agrees] at h
    | without label left right =>
      cases t with
      | without label' left' right' =>
        rw [agrees] at h
        simp only [size] at hn
        obtain ⟨hleft, hright⟩ := both_of_ok_true h
        exact .without label label' (ih left.size (by omega) hleft rfl) (ih right.size (by omega) hright rfl)
      | _ => cases asksRight <;> simp [agrees] at h
    | unary label outer extractor inner =>
      cases t with
      | unary label' outer' extractor' inner' =>
        rw [agrees] at h
        simp only [size] at hn
        by_cases hsame : extractor = extractor'
        · rw [if_pos hsame] at h
          obtain rfl := hsame
          obtain ⟨houter, hinner⟩ := both_of_ok_true h
          exact .unary label label' extractor (ih outer.size (by omega) houter rfl)
            (ih inner.size (by omega) hinner rfl)
        · rw [if_neg hsame] at h
          cases h
      | _ => cases asksRight <;> simp [agrees] at h

lemma sizes_congr {ts us : List Ty} (h : List.Forall₂ (fun t u : Ty => t.size = u.size) ts us) :
    sizes ts = sizes us := by
  induction h with
  | nil => rfl
  | cons hhead _ ih => rw [sizes, sizes, hhead, ih]

/-- Asking one type about another answers with yes exactly if they have the same structure. -/
theorem equals_iff_same {s t : Ty} : s.equals t = .ok true ↔ s.Same t :=
  ⟨same_of_agrees, fun h => h.agrees false⟩

lemma same_compound_iff {label label' : Label} {op op' : Operator} {ts us : List Ty} :
    (compound label op ts).Same (compound label' op' us) ↔ op = op' ∧ List.Forall₂ Same ts us := by
  constructor
  · intro h
    cases h with
    | compound _ _ _ hlength hall =>
      exact ⟨rfl, List.forall₂_iff_zip.mpr ⟨hlength, fun hp => hall _ hp⟩⟩
  · rintro ⟨rfl, h⟩
    obtain ⟨hlength, hzip⟩ := List.forall₂_iff_zip.mp h
    exact .compound label label' op hlength fun _ hp => hzip hp

namespace Same

variable {s t u : Ty}

lemma refl (h : t.Proper) : t.Same t := equals_iff_same.mp (agrees_refl h false)

lemma symm (h : s.Same t) : t.Same s := by
  induction h with
  | any label label' => exact .any label' label
  | predicate label label' pred => exact .predicate label' label pred
  | compound label label' op hlength _ ih =>
    refine .compound label' label op hlength.symm fun p hp => ?_
    rw [← List.zip_swap, List.mem_map] at hp
    obtain ⟨q, hq, rfl⟩ := hp
    exact ih q hq
  | without label label' _ _ ihl ihr => exact .without label' label ihl ihr
  | unary label label' extractor _ _ iho ihi => exact .unary label' label extractor iho ihi

lemma trans (h : s.Same t) (h' : t.Same u) : s.Same u := by
  induction h generalizing u with
  | any => cases h'; exact .any ..
  | predicate => cases h'; exact .predicate ..
  | @compound label label' op ts us hlength _ ih =>
    have hfirst : List.Forall₂ (fun a b => ∀ {c : Ty}, b.Same c → a.Same c) ts us :=
      List.forall₂_iff_zip.mpr ⟨hlength, fun hp => ih _ hp⟩
    cases u with
    | compound label'' op' vs =>
      obtain ⟨rfl, hsecond⟩ := same_compound_iff.mp h'
      exact same_compound_iff.mpr
        ⟨rfl, forall₂_comp (fun _ _ _ hstep hnext => hstep hnext) hfirst hsecond⟩
    | _ => cases h'
  | without label label' _ _ ihl ihr =>
    cases h' with
    | without _ _ hl hr => exact .without _ _ (ihl hl) (ihr hr)
  | unary label label' extractor _ _ iho ihi =>
    cases h' with
    | unary _ _ _ ho hi => exact .unary _ _ _ (iho ho) (ihi hi)

lemma size_eq (h : s.Same t) : s.size = t.size := by
  induction h with
  | any | predicate => rfl
  | @compound label label' op ts us hlength _ ih =>
    have hsizes : List.Forall₂ (fun a b : Ty => a.size = b.size) ts us :=
      List.forall₂_iff_zip.mpr ⟨hlength, fun hp => ih _ hp⟩
    rw [size, size, sizes_congr hsizes]
  | without _ _ _ _ ihl ihr => rw [size, size, ihl, ihr]
  | unary _ _ _ _ _ iho ihi => rw [size, size, iho, ihi]

/-- Types of the same structure test alike and call the same functions in the same order. -/
lemma has_eq {I : Interpretation} (h : s.Same t) (v : Value) : s.has I v = t.has I v := by
  induction h generalizing v with
  | any | predicate => simp only [has]
  | @compound label label' op ts us hlength _ ih =>
    have hoperands : List.Forall₂ (fun a b => a.has I v = b.has I v) ts us :=
      List.forall₂_iff_zip.mpr ⟨hlength, fun hp => ih _ hp v⟩
    cases op <;> simp only [has, allHave_congr hoperands, someHas_congr hoperands]
  | without _ _ _ _ ihl ihr => simp only [has, ihl, ihr]
  | @unary label label' extractor outer outer' inner inner' _ _ iho ihi =>
    have hinner : has I inner = has I inner' := funext ihi
    simp only [has, iho, hinner]

end Same

theorem has_eq_of_agrees {I : Interpretation} {asksRight : Bool} {s t : Ty} (h : agrees asksRight s t = .ok true)
    (v : Value) : s.has I v = t.has I v :=
  (same_of_agrees h).has_eq v

end StructuralTypes.Ty
