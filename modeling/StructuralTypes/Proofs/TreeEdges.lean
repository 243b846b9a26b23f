import StructuralTypes.Proofs.Walks

/-!
# Edges between trees

What the edges that constructors declare can lead to, read off the trees alone. An edge to a subset
goes to an operand of a union or narrows the parts of a container. An edge to a superset goes to what
a type was made from, or widens the inner part of a container. All of them lead to smaller trees.
-/

namespace StructuralTypes.Ty

/-- What a type contributes to the operands of an operator that flattens them. -/
def contribution (op : Operator) (t : Ty) : List Ty := (t.absorbed? op).getD [t]

/-- The types that a type is directly made of. -/
def parts : Ty → List Ty
  | .bare _ | .any _ | .predicate .. => []
  | .compound _ _ operands => operands
  | .without _ left right => [left, right]
  | .unary _ outer _ inner => [outer, inner]

/-- `Leads d t u` if a declared edge can lead from `t` to `u`. Labels play no part in it, except that
an edge to a part leads to that very node. -/
inductive Leads : Direction → Ty → Ty → Prop
  | operand {label : Label} {ts : List Ty} {u : Ty} :
      u ∈ ts → Leads .subsets (.compound label .union ts) u
  | narrowInner {label label' : Label} {outer inner inner' : Ty} {extractor : Fn} :
      Leads .subsets inner inner' →
      Leads .subsets (.unary label outer extractor inner) (.unary label' outer extractor inner')
  | narrowOuter {label label' : Label} {outer outer' inner : Ty} {extractor : Fn} :
      Leads .subsets outer outer' →
      Leads .subsets (.unary label outer extractor inner) (.unary label' outer' extractor inner)
  | narrowBoth {label label' : Label} {outer outer' inner inner' : Ty} {extractor : Fn} :
      Leads .subsets outer outer' → Leads .subsets inner inner' →
      Leads .subsets (.unary label outer extractor inner) (.unary label' outer' extractor inner')
  | merged {label : Label} {op : Operator} {ts : List Ty} {u : Ty} :
      op ≠ .union → u.contribution op ⊆ ts → u.size ≤ sizes ts →
      Leads .supersets (.compound label op ts) u
  | left {label : Label} {left right : Ty} : Leads .supersets (.without label left right) left
  | outer {label : Label} {outer inner : Ty} {extractor : Fn} :
      Leads .supersets (.unary label outer extractor inner) outer
  | widenInner {label label' : Label} {outer inner inner' : Ty} {extractor : Fn} :
      Leads .supersets inner inner' →
      Leads .supersets (.unary label outer extractor inner) (.unary label' outer extractor inner')

lemma size_pos (t : Ty) : 0 < t.size := by
  cases t <;> simp [size]

lemma sizes_append (ts us : List Ty) : sizes (ts ++ us) = sizes ts + sizes us := by
  induction ts with
  | nil => simp [sizes]
  | cons t ts ih =>
    rw [List.cons_append, sizes, sizes, ih]
    omega

lemma sizes_perm {ts us : List Ty} (h : ts.Perm us) : sizes ts = sizes us := by
  induction h with
  | nil => rfl
  | cons t _ ih => rw [sizes, sizes, ih]
  | swap t u ts =>
    simp only [sizes]
    omega
  | trans _ _ ih ih' => exact ih.trans ih'

lemma size_le_sizes {t : Ty} {ts : List Ty} (h : t ∈ ts) : t.size ≤ sizes ts := by
  induction ts with
  | nil => cases h
  | cons u ts ih =>
    rw [sizes]
    rcases List.mem_cons.mp h with rfl | h
    · omega
    · have := ih h
      omega

/-- Over types one reasons part by part. -/
@[elab_as_elim, induction_eliminator]
lemma induction {P : Ty → Prop} (bare : ∀ l, P (.bare l)) (any : ∀ l, P (.any l))
    (predicate : ∀ l pred, P (.predicate l pred))
    (compound : ∀ l op ts, (∀ t ∈ ts, P t) → P (.compound l op ts))
    (without : ∀ l left right, P left → P right → P (.without l left right))
    (unary : ∀ l outer extractor inner, P outer → P inner → P (.unary l outer extractor inner)) (t : Ty) :
    P t := by
  induction hn : t.size using Nat.strong_induction_on generalizing t with
  | _ n ih =>
    cases t with
    | bare l => exact bare l
    | any l => exact any l
    | predicate l pred => exact predicate l pred
    | compound l op ts =>
      apply compound
      intro t ht
      have hle := size_le_sizes ht
      rw [size] at hn
      exact ih t.size (by omega) t rfl
    | without l left right =>
      rw [size] at hn
      exact without l left right (ih left.size (by omega) left rfl) (ih right.size (by omega) right rfl)
    | unary l outer extractor inner =>
      rw [size] at hn
      exact unary l outer extractor inner (ih outer.size (by omega) outer rfl)
        (ih inner.size (by omega) inner rfl)

/-- Every edge leads to a smaller tree. -/
lemma Leads.size_lt {d : Direction} {t u : Ty} (h : Leads d t u) : u.size < t.size := by
  induction h with
  | operand hu =>
    have := size_le_sizes hu
    simp only [size]
    omega
  | merged _ _ hsize =>
    simp only [size]
    omega
  | narrowInner _ ih | narrowOuter _ ih | widenInner _ ih =>
    simp only [size]
    omega
  | narrowBoth _ _ iho ihi =>
    simp only [size]
    omega
  | left | outer =>
    simp only [size]
    omega

lemma size_le_of_leads {d : Direction} {t u : Ty} (h : Relation.ReflTransGen (Leads d) t u) :
    u.size ≤ t.size := by
  induction h with
  | refl => exact Nat.le_refl _
  | tail _ hstep ih =>
    have := hstep.size_lt
    omega

lemma eq_or_size_lt_of_leads {d : Direction} {t u : Ty} (h : Relation.ReflTransGen (Leads d) t u) :
    u = t ∨ u.size < t.size := by
  rcases Relation.ReflTransGen.cases_head h with rfl | ⟨v, hfirst, hrest⟩
  · exact .inl rfl
  · have hlt := hfirst.size_lt
    have hle := size_le_of_leads hrest
    exact .inr (by omega)

section Labels

variable (l : Label) (t : Ty)

@[simp] lemma label_setLabel : (t.setLabel l).label = l := by cases t <;> rfl

@[simp] lemma id_setLabel : (t.setLabel l).id = l.id := by rw [id, label_setLabel]

@[simp] lemma parts_setLabel : (t.setLabel l).parts = t.parts := by cases t <;> rfl

variable {t}

lemma Leads.setLabel {d : Direction} {u : Ty} (h : Leads d t u) : Leads d (t.setLabel l) u := by
  cases h with
  | operand hu => exact .operand hu
  | narrowInner hi => exact .narrowInner hi
  | narrowOuter ho => exact .narrowOuter ho
  | narrowBoth ho hi => exact .narrowBoth ho hi
  | merged hop hsub hsize => exact .merged hop hsub hsize
  | left => exact .left
  | outer => exact .outer
  | widenInner hi => exact .widenInner hi

end Labels

/-- A type that no part of is bare, with operands for each of its operators, all of them among those
given. -/
inductive Regular (operators : Operator → Prop) : Ty → Prop
  | any (label : Label) : Regular operators (.any label)
  | predicate (label : Label) (pred : Fn) : Regular operators (.predicate label pred)
  | compound (label : Label) {op : Operator} {ts : List Ty} : operators op → ts ≠ [] →
      (∀ t ∈ ts, Regular operators t) → Regular operators (.compound label op ts)
  | without (label : Label) {left right : Ty} : Regular operators left → Regular operators right →
      Regular operators (.without label left right)
  | unary (label : Label) (extractor : Fn) {outer inner : Ty} : Regular operators outer →
      Regular operators inner → Regular operators (.unary label outer extractor inner)

namespace Regular

variable {operators : Operator → Prop} {t : Ty}

lemma proper (h : Regular operators t) : t.Proper := by
  induction h with
  | any label => exact .any label
  | predicate label pred => exact .predicate label pred
  | compound label _ _ _ ih => exact .compound label _ ih
  | without label _ _ ihl ihr => exact .without label ihl ihr
  | unary label extractor _ _ iho ihi => exact .unary label extractor iho ihi

lemma setLabel (h : Regular operators t) (l : Label) : Regular operators (t.setLabel l) := by
  cases h with
  | any => exact .any l
  | predicate _ pred => exact .predicate l pred
  | compound _ hop hne hts => exact .compound l hop hne hts
  | without _ hl hr => exact .without l hl hr
  | unary _ extractor ho hi => exact .unary l extractor ho hi

lemma contribution_ne_nil (h : Regular operators t) (op : Operator) : t.contribution op ≠ [] := by
  cases h with
  | compound label _ hne _ =>
    simp only [contribution, absorbed?]
    split <;> simp [hne]
  | _ => simp [contribution, absorbed?]

end Regular

section Contribution

variable {operators : Operator → Prop}

lemma contribution_parts {t u : Ty} {op : Operator} (h : u ∈ t.contribution op) : u = t ∨ u ∈ t.parts := by
  cases t with
  | compound label inner ts =>
    simp only [contribution, absorbed?] at h
    split at h
    · exact .inr h
    · exact .inl (List.mem_singleton.mp h)
  | _ => exact .inl (List.mem_singleton.mp h)

lemma contribution_eq_singleton {t : Ty} {op : Operator} (ht : t.absorbed? op = none) :
    t.contribution op = [t] := by
  rw [contribution, ht]
  rfl

/-- A type contributes all of its nodes, or all but the one on top. -/
lemma sizes_contribution (op : Operator) (t : Ty) :
    sizes (t.contribution op) = t.size ∨ sizes (t.contribution op) + 1 = t.size := by
  cases t with
  | compound label inner ts =>
    simp only [contribution, absorbed?]
    split <;> simp [sizes, size]
  | _ => simp [contribution, absorbed?, sizes]

lemma Regular.sizes_contribution_pos {t : Ty} (h : t.Regular operators) (op : Operator) :
    0 < sizes (t.contribution op) := by
  obtain ⟨u, hu⟩ := List.exists_mem_of_ne_nil _ (h.contribution_ne_nil op)
  have hle := size_le_sizes hu
  have hpos := u.size_pos
  omega

end Contribution

end StructuralTypes.Ty
