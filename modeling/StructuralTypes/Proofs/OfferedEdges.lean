import StructuralTypes.Proofs.TreeEdges

/-!
# Edges that types offer

The edges of a container are new nodes, made when somebody asks for them. What a type offers is where
its edges lead whether anybody has asked or not: the edges stored for it, and for a container all that
its parts offer put in their place, under labels that are left open. Types that differ in the labels of
containers only are alike. They compare alike and offer alike edges, so it does not matter which of
them a search goes through.
-/

namespace StructuralTypes

namespace Ty

/-- Whether the edges of a type are worked out only when they are asked for. -/
def isContainer : Ty → Bool
  | .unary .. => true
  | _ => false

def isMadeBy (op : Operator) : Ty → Bool
  | .compound _ op' _ => op' = op
  | _ => false

lemma exists_of_isMadeBy {op : Operator} {t : Ty} (h : t.isMadeBy op = true) :
    ∃ label ts, t = .compound label op ts := by
  cases t with
  | compound label op' ts => exact ⟨label, ts, by simpa [isMadeBy] using h⟩
  | _ => cases h

lemma absorbed?_intersection {t : Ty} (h : t.isMadeBy .intersection = false) :
    t.absorbed? .intersection = none := by
  cases t with
  | compound _ op _ =>
    cases op with
    | intersection => cases h
    | _ => rfl
  | _ => rfl

/-- What the edges of a type lead to whatever it was made of: a union leads to its operands, an
intersection to those operands that are no intersections, and an exclusion to what it excludes from. -/
def evident : Direction → Ty → List Ty
  | .subsets, .compound _ .union ts => ts
  | .supersets, .compound _ .intersection ts => ts.filter fun u => !u.isMadeBy .intersection
  | .supersets, .without _ left _ => [left]
  | _, _ => []

lemma not_container_of_evident {d : Direction} {t u : Ty} (h : u ∈ t.evident d) :
    t.isContainer = false := by
  cases t with
  | unary => cases d <;> cases h
  | _ => rfl

lemma evident_setLabel (d : Direction) (label : Label) (t : Ty) :
    (t.setLabel label).evident d = t.evident d := by
  cases t with
  | compound _ op _ => cases d <;> cases op <;> rfl
  | _ => cases d <;> rfl

/-- The same type except for the labels of containers. -/
inductive Alike : Ty → Ty → Prop
  | refl (t : Ty) : Alike t t
  | unary {label label' : Label} {outer outer' inner inner' : Ty} (extractor : Fn) :
      Alike outer outer' → Alike inner inner' →
      Alike (.unary label outer extractor inner) (.unary label' outer' extractor inner')

namespace Alike

variable {s s' t t' : Ty}

lemma eq_of_not_container (h : Alike t t') (ht : t.isContainer = false) : t' = t := by
  cases h with
  | refl => rfl
  | unary => cases ht

lemma symm (h : Alike t t') : Alike t' t := by
  induction h with
  | refl t => exact .refl t
  | unary extractor _ _ iho ihi => exact .unary extractor iho ihi

lemma agrees_left (h : Alike s s') (asksRight : Bool) (t : Ty) :
    agrees asksRight s t = agrees asksRight s' t := by
  induction h generalizing asksRight t with
  | refl => rfl
  | unary extractor _ _ iho ihi => cases t <;> cases asksRight <;> simp [agrees, iho, ihi]

lemma agrees_right (h : Alike t t') (asksRight : Bool) (s : Ty) :
    agrees asksRight s t = agrees asksRight s t' := by
  induction h generalizing asksRight s with
  | refl => rfl
  | unary extractor _ _ iho ihi => cases s <;> cases asksRight <;> simp [agrees, iho, ihi]

lemma equals_eq (hs : Alike s s') (ht : Alike t t') : s.equals t = s'.equals t' :=
  (hs.agrees_left false t).trans (ht.agrees_right false s')

end Alike

/-- One of the given nodes, or a container made of such types. -/
inductive Spanned (ns : List Ty) : Ty → Prop
  | node {t : Ty} : t ∈ ns → Spanned ns t
  | unary (label : Label) (extractor : Fn) {outer inner : Ty} : Spanned ns outer → Spanned ns inner →
      Spanned ns (.unary label outer extractor inner)

namespace Spanned

variable {ns : List Ty} {label : Label} {extractor : Fn} {outer inner t : Ty}

lemma mem (h : Spanned ns t) (ht : t.isContainer = false) : t ∈ ns := by
  cases h with
  | node hmem => exact hmem
  | unary => cases ht

lemma of_unary (h : Spanned ns (.unary label outer extractor inner))
    (hparts : ∀ t ∈ ns, t.parts ⊆ ns) : Spanned ns outer ∧ Spanned ns inner := by
  cases h with
  | node hmem => exact ⟨.node (hparts _ hmem (by simp [parts])), .node (hparts _ hmem (by simp [parts]))⟩
  | unary _ _ ho hi => exact ⟨ho, hi⟩

lemma of_parts (ht : t.isContainer = true) (hparts : t.parts ⊆ ns) : Spanned ns t := by
  cases t with
  | unary label outer extractor inner =>
    exact .unary label extractor (.node (hparts (by simp [parts]))) (.node (hparts (by simp [parts])))
  | _ => cases ht

end Spanned

/-- The number of each node is its place. -/
def Numbered (ns : List Ty) : Prop := ∀ i (t : Ty), ns[i]? = some t → t.id = i

namespace Numbered

variable {ns : List Ty} {t u : Ty}

lemma getElem?_id (h : Numbered ns) (ht : t ∈ ns) : ns[t.id]? = some t := by
  obtain ⟨i, hi⟩ := List.mem_iff_getElem?.mp ht
  rw [h i t hi]
  exact hi

lemma id_lt (h : Numbered ns) (ht : t ∈ ns) : t.id < ns.length :=
  (List.getElem?_eq_some_iff.mp (h.getElem?_id ht)).1

lemma unique (h : Numbered ns) (ht : t ∈ ns) (hu : u ∈ ns) (hid : t.id = u.id) : t = u := by
  have htu := h.getElem?_id ht
  rw [hid, h.getElem?_id hu] at htu
  exact (Option.some.inj htu).symm

/-- The next node comes last. -/
lemma concat (h : Numbered ns) (ht : t.id = ns.length) : Numbered (ns ++ [t]) := by
  intro i u hu
  rw [List.getElem?_append] at hu
  by_cases hi : i < ns.length
  · rw [if_pos hi] at hu
    exact h i u hu
  · rw [if_neg hi] at hu
    have hlt := (List.getElem?_eq_some_iff.mp hu).1
    rw [List.length_singleton] at hlt
    have hzero : i - ns.length = 0 := by omega
    rw [hzero] at hu
    obtain rfl : t = u := Option.some.inj hu
    omega

end Numbered

end Ty

namespace Lattice

/-- `l.Offers d t u` if an edge of `t` leads to `u`, or would lead to it up to labels if somebody asked
for the edges of `t`. -/
inductive Offers (l : Lattice) : Direction → Ty → Ty → Prop
  | stored {d : Direction} {t u : Ty} : t.isContainer = false → l.Edge d t u → Offers l d t u
  | narrowInner {label label' : Label} {outer inner inner' : Ty} {extractor : Fn} :
      Offers l .subsets inner inner' →
      Offers l .subsets (.unary label outer extractor inner) (.unary label' outer extractor inner')
  | narrowOuter {label label' : Label} {outer outer' inner : Ty} {extractor : Fn} :
      Offers l .subsets outer outer' →
      Offers l .subsets (.unary label outer extractor inner) (.unary label' outer' extractor inner)
  | narrowBoth {label label' : Label} {outer outer' inner inner' : Ty} {extractor : Fn} :
      Offers l .subsets outer outer' → Offers l .subsets inner inner' →
      Offers l .subsets (.unary label outer extractor inner) (.unary label' outer' extractor inner')
  | outer {label : Label} {outer inner : Ty} {extractor : Fn} :
      Offers l .supersets (.unary label outer extractor inner) outer
  | widenInner {label label' : Label} {outer inner inner' : Ty} {extractor : Fn} :
      Offers l .supersets inner inner' →
      Offers l .supersets (.unary label outer extractor inner) (.unary label' outer extractor inner')

namespace Offers

variable {l l' : Lattice} {d : Direction} {t t' u : Ty}

lemma edge (h : l.Offers d t u) (ht : t.isContainer = false) : l.Edge d t u := by
  cases h with
  | stored _ hedge => exact hedge
  | _ => cases ht

lemma mono (hl : l.Grows l') (h : l.Offers d t u) : l'.Offers d t u := by
  induction h with
  | stored ht hedge => exact .stored ht (hedge.mono hl)
  | narrowInner _ ih => exact .narrowInner ih
  | narrowOuter _ ih => exact .narrowOuter ih
  | narrowBoth _ _ iho ihi => exact .narrowBoth iho ihi
  | outer => exact .outer
  | widenInner _ ih => exact .widenInner ih

lemma alike (h : l.Offers d t u) (ht : t.Alike t') : ∃ u', l.Offers d t' u' ∧ u.Alike u' := by
  induction h generalizing t' with
  | stored hleaf hedge =>
    rw [ht.eq_of_not_container hleaf]
    exact ⟨_, .stored hleaf hedge, .refl _⟩
  | @narrowInner label label' outer inner inner' extractor hinner ih =>
    cases ht with
    | refl => exact ⟨_, .narrowInner hinner, .refl _⟩
    | unary _ ho hi =>
      obtain ⟨w, hw, halike⟩ := ih hi
      exact ⟨.unary label' _ extractor _, .narrowInner hw, .unary extractor ho halike⟩
  | @narrowOuter label label' outer outer' inner extractor houter ih =>
    cases ht with
    | refl => exact ⟨_, .narrowOuter houter, .refl _⟩
    | unary _ ho hi =>
      obtain ⟨w, hw, halike⟩ := ih ho
      exact ⟨.unary label' _ extractor _, .narrowOuter hw, .unary _ halike hi⟩
  | @narrowBoth label label' outer outer' inner inner' extractor houter hinner iho ihi =>
    cases ht with
    | refl => exact ⟨_, .narrowBoth houter hinner, .refl _⟩
    | unary _ ho hi =>
      obtain ⟨w, hw, halike⟩ := iho ho
      obtain ⟨x, hx, halike'⟩ := ihi hi
      exact ⟨.unary label' _ extractor _, .narrowBoth hw hx, .unary _ halike halike'⟩
  | outer =>
    cases ht with
    | refl => exact ⟨_, .outer, .refl _⟩
    | unary _ ho _ => exact ⟨_, .outer, ho⟩
  | @widenInner label label' outer inner inner' extractor hinner ih =>
    cases ht with
    | refl => exact ⟨_, .widenInner hinner, .refl _⟩
    | unary _ ho hi =>
      obtain ⟨w, hw, halike⟩ := ih hi
      exact ⟨.unary label' _ extractor _, .widenInner hw, .unary _ ho halike⟩

end Offers

/-- What a type offers only depends on the edges stored for nodes that are not containers. -/
lemma Offers.transfer {l l' : Lattice} {ns : List Ty} (hparts : ∀ t ∈ ns, t.parts ⊆ ns)
    (hsame : ∀ t ∈ ns, t.isContainer = false → ∀ d, l'.stored? d t.id = l.stored? d t.id)
    {d : Direction} {t u : Ty} (ht : t.Spanned ns) (h : l.Offers d t u) : l'.Offers d t u := by
  induction h with
  | stored hleaf hedge =>
    obtain ⟨rs, hrs, hu⟩ := hedge
    refine .stored hleaf ⟨rs, ?_, hu⟩
    rw [hsame _ (ht.mem hleaf) hleaf]
    exact hrs
  | narrowInner _ ih => exact .narrowInner (ih (ht.of_unary hparts).2)
  | narrowOuter _ ih => exact .narrowOuter (ih (ht.of_unary hparts).1)
  | narrowBoth _ _ iho ihi => exact .narrowBoth (iho (ht.of_unary hparts).1) (ihi (ht.of_unary hparts).2)
  | outer => exact .outer
  | widenInner _ ih => exact .widenInner (ih (ht.of_unary hparts).2)

/-- The given nodes are what a type offers, each of them up to labels. -/
structure Exact (l : Lattice) (d : Direction) (t : Ty) (us : List Ty) : Prop where
  offered : ∀ u ∈ us, l.Offers d t u
  complete : ∀ u, l.Offers d t u → ∃ u' ∈ us, u.Alike u'

/-- Edges stored for a type as constructors leave them: they are missing only for a container, and
where they are there they are all that the type offers. The evident ones are always there. -/
structure StoredAsOffered (l : Lattice) (stored : Direction → Option (List Referent)) (t : Ty) : Prop where
  settled : t.isContainer = false → ∀ d, ∃ rs, stored d = some rs
  exact : t.isContainer = true → ∀ d us, stored d = some (us.map .type) → l.Exact d t us
  evident : ∀ d, ∀ u ∈ t.evident d, ∃ rs, stored d = some rs ∧ .type u ∈ rs

section StoredEdges

variable {l l' : Lattice} {stored : Direction → Option (List Referent)} {t : Ty}

lemma Exact.transfer {d : Direction} {us : List Ty} (h : l.Exact d t us)
    (hoffers : ∀ d u, l'.Offers d t u ↔ l.Offers d t u) : l'.Exact d t us :=
  ⟨fun u hu => (hoffers d u).mpr (h.offered u hu), fun u hu => h.complete u ((hoffers d u).mp hu)⟩

lemma StoredAsOffered.transfer (h : l.StoredAsOffered stored t)
    (hoffers : t.isContainer = true → ∀ d u, l'.Offers d t u ↔ l.Offers d t u) : l'.StoredAsOffered stored t :=
  ⟨h.settled, fun ht d us hus => (h.exact ht d us hus).transfer (hoffers ht), h.evident⟩

/-- For all but containers it is enough that the edges are there. -/
lemma StoredAsOffered.of_settled (hleaf : t.isContainer = false)
    (hstored : ∀ d, ∃ rs, stored d = some rs)
    (hevident : ∀ d, ∀ u ∈ t.evident d, ∃ rs, stored d = some rs ∧ .type u ∈ rs) :
    l.StoredAsOffered stored t := by
  refine ⟨fun _ => hstored, fun ht => ?_, hevident⟩
  rw [hleaf] at ht
  cases ht

lemma Offers.setLabel {d : Direction} {u : Ty} (ht : t.isContainer = true) (label : Label)
    (h : l.Offers d t u) : l.Offers d (t.setLabel label) u := by
  cases h with
  | stored hleaf => rw [ht] at hleaf; cases hleaf
  | narrowInner hi => exact .narrowInner hi
  | narrowOuter ho => exact .narrowOuter ho
  | narrowBoth ho hi => exact .narrowBoth ho hi
  | outer => exact .outer
  | widenInner hi => exact .widenInner hi

lemma StoredAsOffered.setLabel (h : l.StoredAsOffered stored t) (label : Label) :
    l.StoredAsOffered stored (t.setLabel label) := by
  have hkind : (t.setLabel label).isContainer = t.isContainer := by cases t <;> rfl
  have hback : (t.setLabel label).setLabel t.label = t := by cases t <;> rfl
  refine ⟨fun ht => h.settled (hkind ▸ ht), fun ht d us hus => ?_, fun d u hu => ?_⟩
  · have hexact := h.exact (hkind ▸ ht) d us hus
    refine ⟨fun u hu => (hexact.offered u hu).setLabel (hkind ▸ ht) label, fun u hu => ?_⟩
    have hu' := hu.setLabel ht t.label
    rw [hback] at hu'
    exact hexact.complete u hu'
  · rw [Ty.evident_setLabel] at hu
    exact h.evident d u hu

end StoredEdges

end Lattice

end StructuralTypes
