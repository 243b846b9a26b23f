import StructuralTypes.Proofs.OfferedEdges

/-!
# Predicted edges

What a type will answer when it is asked for its edges is predicted without making a node: the edges
stored for it, or for a container the containers that would be made of what its parts answer, in the same
order and with the same faults. The predicted containers have no numbers. Those that are made have the
same names and docs as those predicted, and so have the containers that are made of them.
-/

namespace StructuralTypes

namespace Ty

/-- The same type except for the numbers of containers. -/
inductive SameUpToNumbers : Ty → Ty → Prop
  | refl (t : Ty) : SameUpToNumbers t t
  | unary {label label' : Label} {outer outer' inner inner' : Ty} (extractor : Fn) :
      label.names? = label'.names? → label.docs? = label'.docs? →
      SameUpToNumbers outer outer' → SameUpToNumbers inner inner' →
      SameUpToNumbers (.unary label outer extractor inner) (.unary label' outer' extractor inner')

/-- The container that would be made of two types. -/
def predictedContainer (outer : Ty) (extractor : Fn) (inner : Ty) : Attempt Ty := do
  let outerName ← outer.canonicalName
  let innerName ← inner.canonicalName
  let outerDoc ← outer.firstDoc
  let innerDoc ← inner.firstDoc
  return .unary ⟨0, 0, some ["(" ++ outerName ++ " " ++ innerName ++ ")"],
    some [Build.docLink "unary", outerDoc, innerDoc]⟩ outer extractor inner

end Ty

section UpToNumbers

variable {t u : Ty}

lemma Ty.SameUpToNumbers.names (h : t.SameUpToNumbers u) : t.label.names? = u.label.names? := by
  cases h with
  | refl => rfl
  | unary _ hnames => exact hnames

lemma Ty.SameUpToNumbers.docs (h : t.SameUpToNumbers u) : t.label.docs? = u.label.docs? := by
  cases h with
  | refl => rfl
  | unary _ _ hdocs => exact hdocs

lemma Ty.SameUpToNumbers.canonicalName (h : t.SameUpToNumbers u) : t.canonicalName = u.canonicalName := by
  rw [Ty.canonicalName, Ty.canonicalName, Ty.names, Ty.names, h.names]

lemma Ty.SameUpToNumbers.firstDoc (h : t.SameUpToNumbers u) : t.firstDoc = u.firstDoc := by
  rw [Ty.firstDoc, Ty.firstDoc, Ty.docs, Ty.docs, h.docs]

lemma Ty.SameUpToNumbers.alike (h : t.SameUpToNumbers u) : t.Alike u := by
  induction h with
  | refl t => exact .refl t
  | unary extractor _ _ _ _ iho ihi => exact .unary extractor iho ihi

lemma Ty.SameUpToNumbers.symm (h : t.SameUpToNumbers u) : u.SameUpToNumbers t := by
  induction h with
  | refl t => exact .refl t
  | unary extractor hnames hdocs _ _ iho ihi => exact .unary extractor hnames.symm hdocs.symm iho ihi

end UpToNumbers

/-- The types among referents. -/
def Referent.types (rs : List Referent) : List Ty :=
  rs.filterMap fun
    | .type t => some t
    | .plain .. => none

lemma Referent.types_map (ts : List Ty) : Referent.types (ts.map .type) = ts := by
  induction ts with
  | nil => rfl
  | cons t ts ih =>
    rw [List.map_cons, types, List.filterMap_cons]
    exact congrArg (t :: ·) ih

lemma Referent.mem_types {rs : List Referent} {t : Ty} : t ∈ Referent.types rs ↔ .type t ∈ rs := by
  induction rs with
  | nil => simp [types]
  | cons r rs ih =>
    cases r <;> simp_all [types]

namespace Lattice

/-- The edges that a type would answer with, up to the numbers of containers. -/
def predicted (l : Lattice) : Direction → Ty → Attempt (List Ty)
  | .subsets, .unary _ outer extractor inner => do
    let outers ← predicted l .subsets outer
    let inners ← predicted l .subsets inner
    let first ← inners.mapM fun i => Ty.predictedContainer outer extractor i
    let rest ← outers.mapM fun o => (inner :: inners).mapM fun i => Ty.predictedContainer o extractor i
    return first ++ rest.flatten
  | .supersets, .unary _ outer extractor inner => do
    let inners ← predicted l .supersets inner
    let widened ← inners.mapM fun i => Ty.predictedContainer outer extractor i
    return outer :: widened
  | d, t => .ok (Referent.types ((l.stored? d t.id).getD []))

/-- The nodes are those predicted, in the same order. -/
def Matching (l : Lattice) (d : Direction) (t : Ty) (rs : List Referent) : Prop :=
  ∃ us vs : List Ty, rs = us.map .type ∧ l.predicted d t = .ok vs ∧ List.Forall₂ Ty.SameUpToNumbers us vs

variable {l l' : Lattice}

lemma predicted_of_leaf {t : Ty} (ht : t.isContainer = false) (d : Direction) :
    l.predicted d t = .ok (Referent.types ((l.stored? d t.id).getD [])) := by
  cases t with
  | unary => cases ht
  | _ => cases d <;> rfl

/-- What a container will answer does not depend on its own label. -/
lemma predicted_setLabel {t : Ty} (ht : t.isContainer = true) (d : Direction) (label : Label) :
    l.predicted d (t.setLabel label) = l.predicted d t := by
  cases t with
  | unary => cases d <;> rfl
  | _ => cases ht

lemma exists_label_of_predictedContainer {outer inner t : Ty} {extractor : Fn}
    (h : Ty.predictedContainer outer extractor inner = .ok t) : ∃ label, t = .unary label outer extractor inner := by
  obtain ⟨_, -, h⟩ := ok_of_attempt h
  obtain ⟨_, -, h⟩ := ok_of_attempt h
  obtain ⟨_, -, h⟩ := ok_of_attempt h
  obtain ⟨_, -, h⟩ := ok_of_attempt h
  exact ⟨_, (Except.ok.inj h).symm⟩

lemma exists_inner_of_drafts {outer t : Ty} {extractor : Fn} {inners ts : List Ty}
    (h : inners.mapM (fun i => Ty.predictedContainer outer extractor i) = .ok ts) (ht : t ∈ ts) :
    ∃ i ∈ inners, ∃ label, t = .unary label outer extractor i := by
  obtain ⟨i, hi, hdraft⟩ := exists_related_left (forall₂_of_mapM h) ht
  exact ⟨i, hi, exists_label_of_predictedContainer hdraft⟩

/-- All that is predicted for a type is offered by it. -/
lemma offers_of_predicted {d : Direction} {t u : Ty} {us : List Ty} (h : l.predicted d t = .ok us) (hu : u ∈ us) :
    l.Offers d t u := by
  induction t generalizing d u us with
  | unary label outer extractor inner iho ihi =>
    cases d with
    | subsets =>
      rw [predicted] at h
      obtain ⟨outers, houters, h⟩ := ok_of_attempt h
      obtain ⟨inners, hinners, h⟩ := ok_of_attempt h
      obtain ⟨first, hfirst, h⟩ := ok_of_attempt h
      obtain ⟨rest, hrest, h⟩ := ok_of_attempt h
      rw [← Except.ok.inj h, List.mem_append, List.mem_flatten] at hu
      rcases hu with hu | ⟨row, hrow, hu⟩
      · obtain ⟨i, hi, label', rfl⟩ := exists_inner_of_drafts hfirst hu
        exact .narrowInner (ihi hinners hi)
      · obtain ⟨o, ho, hdrafts⟩ := exists_related_left (forall₂_of_mapM hrest) hrow
        obtain ⟨i, hi, label', rfl⟩ := exists_inner_of_drafts hdrafts hu
        rcases List.mem_cons.mp hi with rfl | hi
        · exact .narrowOuter (iho houters ho)
        · exact .narrowBoth (iho houters ho) (ihi hinners hi)
    | supersets =>
      rw [predicted] at h
      obtain ⟨inners, hinners, h⟩ := ok_of_attempt h
      obtain ⟨widened, hwidened, h⟩ := ok_of_attempt h
      rw [← Except.ok.inj h, List.mem_cons] at hu
      rcases hu with rfl | hu
      · exact .outer
      · obtain ⟨i, hi, label', rfl⟩ := exists_inner_of_drafts hwidened hu
        exact .widenInner (ihi hinners hi)
  | _ =>
    rw [predicted_of_leaf rfl] at h
    rw [← Except.ok.inj h, Referent.mem_types] at hu
    refine .stored rfl ?_
    rcases hstored : l.stored? d _ with _ | rs
    · rw [hstored] at hu
      cases hu
    · rw [hstored] at hu
      exact ⟨rs, hstored, hu⟩

/-- What is predicted only depends on the edges stored for nodes that are not containers. -/
lemma predicted_congr {ns : List Ty} (hparts : ∀ t ∈ ns, t.parts ⊆ ns)
    (hsame : ∀ t ∈ ns, t.isContainer = false → ∀ d, l'.stored? d t.id = l.stored? d t.id) (d : Direction)
    {t : Ty} (ht : t.Spanned ns) : l'.predicted d t = l.predicted d t := by
  induction t generalizing d with
  | unary label outer extractor inner iho ihi =>
    obtain ⟨ho, hi⟩ := ht.of_unary hparts
    cases d with
    | subsets => rw [predicted, predicted, iho _ ho, ihi _ hi]
    | supersets => rw [predicted, predicted, ihi _ hi]
  | _ =>
    have hmem := ht.mem rfl
    rw [predicted_of_leaf rfl, predicted_of_leaf rfl, hsame _ hmem rfl]

lemma Matching.transfer {ns : List Ty} {d : Direction} {t : Ty} {rs : List Referent} (h : l.Matching d t rs)
    (hparts : ∀ t ∈ ns, t.parts ⊆ ns)
    (hsame : ∀ t ∈ ns, t.isContainer = false → ∀ d, l'.stored? d t.id = l.stored? d t.id)
    (ht : t.Spanned ns) : l'.Matching d t rs := by
  obtain ⟨us, vs, hus, hvs, hnumbers⟩ := h
  exact ⟨us, vs, hus, (predicted_congr hparts hsame d ht).trans hvs, hnumbers⟩

end Lattice

end StructuralTypes
