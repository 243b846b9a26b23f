import StructuralTypes.Proofs.Constructors
import StructuralTypes.Proofs.Exploration
import StructuralTypes.Proofs.PredictedEdges
import StructuralTypes.Proofs.Search

/-!
# Lattices that come about by construction

All that can happen to a lattice whose edges nobody overwrites: types are constructed from types at
hand, taken apart, asked for their edges, searched and explored, in any order and whether it succeeds
or not. Every such lattice is well formed, with all types at hand among its nodes.
-/

namespace StructuralTypes

/-- A function from types to types, with all its other operands at hand. -/
inductive Refiner where
  | operator (op : Operator) (left : Ty)
  | without (left : Ty)
  | container (outer : Ty) (extractor : Fn)
  | suchThat (pred : Fn)
  | withAlias (name : String)
  | withoutAlias
  | withDocs (docs : List String)

namespace Refiner

def apply : Refiner → Referent → Build Ty
  | .operator op left => Build.compound op (.type left)
  | .without left => Build.without (.type left)
  | .container outer extractor => Build.container (.type outer) extractor
  | .suchThat pred => Build.suchThat pred
  | .withAlias name => Build.withAlias name
  | .withoutAlias => Build.withoutAlias
  | .withDocs docs => Build.withMetadata none (some docs)

def Allowed (terms : Terms) (ts : List Ty) : Refiner → Prop
  | .operator op left => terms.operators op ∧ left ∈ ts
  | .without left => left ∈ ts
  | .container outer _ => outer ∈ ts
  | .withDocs docs => terms.documented → docs ≠ []
  | .suchThat _ | .withAlias _ | .withoutAlias => True

end Refiner

/-- One thing that happens to a lattice. -/
inductive Act where
  | any
  | predicate (pred : Fn) (name? : Option String)
  | refine (refiner : Refiner) (operand : Ty)
  | compose (name : String) (base : Ty) (refiners : List Refiner)
  | parts (of : Ty)
  | edges (d : Direction) (of : Ty)
  | search (sup sub : Ty)
  | explore (d : Direction) (root : Ty)

namespace Act

/-- The types among what edges lead to. -/
def typesOf (rs : List Referent) : List Ty :=
  rs.filterMap fun
    | .type t => some t
    | .plain .. => none

/-- Carries out an act and hands out the types that are at hand from then on. -/
def run : Act → Build (List Ty)
  | .any => return [← Build.any]
  | .predicate pred name? => return [← Build.predicate pred name?]
  | .refine refiner operand => return [← refiner.apply (.type operand)]
  | .compose name base refiners =>
    return [← Build.compose name (.type base) (refiners.map Refiner.apply)]
  | .parts of => return of.parts
  | .edges d of => return typesOf (← of.edges d)
  | .search sup sub => do
    let _ ← Build.supersedes (.type sup) (.type sub)
    return []
  | .explore d root => do
    let _ ← Build.reachable d (.type root)
    return []

def Allowed (terms : Terms) (ts : List Ty) : Act → Prop
  | .any | .predicate .. => True
  | .refine refiner operand => refiner.Allowed terms ts ∧ operand ∈ ts
  | .compose _ base refiners => base ∈ ts ∧ ∀ f ∈ refiners, f.Allowed terms ts
  | .parts of | .edges _ of => of ∈ ts
  | .search sup sub => sup ∈ ts ∧ sub ∈ ts
  | .explore _ root => root ∈ ts

/-- What an act gains, which is nothing if it fails. -/
def gained : Attempt (List Ty) → List Ty
  | .ok ts => ts
  | .error _ => []

end Act

/-- A lattice that comes about from the empty one by allowed acts, with the types at hand. -/
inductive Made (terms : Terms) : Lattice → List Ty → Prop
  | nothing : Made terms .empty []
  | act {l : Lattice} {ts : List Ty} (a : Act) : Made terms l ts → a.Allowed terms ts →
      Made terms (a.run l).2 (Act.gained (a.run l).1 ++ ts)

section WellFormedness

variable {terms : Terms} {l : Lattice} {ns : List Ty}

lemma WellFormed.explorable (terms : Terms) (d : Direction) : Explorable d (WellFormed terms) where
  unique := fun h ht hu => h.unique ht hu
  edges := by
    intro l ns t h ht
    obtain ⟨ns', hpop, hsub, hgrows, -, hQ⟩ := yields_edges h ht d
    refine ⟨ns', hpop, hsub, hgrows, fun rs hrs => ?_⟩
    obtain ⟨⟨us, rfl, hus⟩, hstored⟩ := hQ rs hrs
    exact ⟨hstored, us, rfl, hus.mem⟩

lemma WellFormed.walkable (terms : Terms) : Walkable (WellFormed terms) where
  explorable := explorable terms
  comparable := fun h ht hu =>
    Ty.equals_answers (h.sound _ ht).regular.proper (h.sound _ hu).regular.proper

lemma Refiner.Allowed.mono {ts ts' : List Ty} (hsub : ts ⊆ ts') {f : Refiner} (h : f.Allowed terms ts) :
    f.Allowed terms ts' := by
  cases f with
  | operator op left => exact ⟨h.1, hsub h.2⟩
  | without left => exact hsub h
  | container outer extractor => exact hsub h
  | withDocs docs => exact h
  | _ => trivial

lemma makes_apply (h : WellFormed terms l ns) {f : Refiner} (hf : f.Allowed terms ns) {t : Ty}
    (ht : t ∈ ns) : Makes terms l ns (f.apply (.type t)) := by
  cases f with
  | operator op left => exact makes_compound h hf.1 hf.2 ht
  | without left => exact (makes_without h hf ht).mono fun _ _ _ _ hu => hu.1
  | container outer extractor =>
    exact (makes_container h hf ht extractor).mono fun _ _ _ _ hu => hu.1
  | suchThat pred => exact makes_suchThat h pred ht
  | withAlias name => exact (copies_withAlias h name ht).makes
  | withoutAlias => exact (copies_withoutAlias h ht).makes
  | withDocs docs => exact (copies_withMetadata h hf ht).makes

lemma yields_refined (h : WellFormed terms l ns) {fs : List Refiner} (hfs : ∀ f ∈ fs, f.Allowed terms ns)
    {t : Ty} (ht : t ∈ ns) :
    Yields terms l ns ((fs.map Refiner.apply).foldlM (fun r f => do return .type (← f r)) (.type t))
      fun _ ns' r => ∃ u, r = .type u ∧ u ∈ ns' := by
  induction fs generalizing l ns t with
  | nil => exact Yields.pure h ⟨t, rfl, ht⟩
  | cons f fs ih =>
    rw [List.map_cons, List.foldlM_cons]
    have hstep : Yields terms l ns (do return Referent.type (← f.apply (.type t)))
        fun _ ns' r => ∃ u, r = .type u ∧ u ∈ ns' := by
      refine (makes_apply h (hfs f List.mem_cons_self) ht).bind ?_
      intro u l' ns' h' _ _ hu
      exact Yields.pure h' ⟨u, rfl, hu⟩
    refine hstep.bind ?_
    rintro _ l' ns' h' hsub _ ⟨u, rfl, hu⟩
    exact ih h' (fun g hg => (hfs g (List.mem_cons_of_mem f hg)).mono hsub) hu

lemma makes_compose (h : WellFormed terms l ns) (name : String) {base : Ty} (hbase : base ∈ ns)
    {fs : List Refiner} (hfs : ∀ f ∈ fs, f.Allowed terms ns) :
    Makes terms l ns (Build.compose name (.type base) (fs.map Refiner.apply)) := by
  refine (yields_refined h hfs hbase).bind ?_
  rintro _ l' ns' h' _ _ ⟨u, rfl, hu⟩
  exact (copies_withAlias h' name hu).makes

/-- A computation that leads to a well-formed lattice, whether it fails or not, with all that it hands out among
the nodes. -/
def PreservesWellFormed (terms : Terms) (l : Lattice) (ns : List Ty) (x : Build (List Ty)) : Prop :=
  ∃ ns', WellFormed terms (x l).2 ns' ∧ ns ⊆ ns' ∧ Act.gained (x l).1 ⊆ ns'

lemma Yields.preservesWellFormed {x : Build (List Ty)}
    (h : Yields terms l ns x fun _ ns' ts => ts ⊆ ns') : PreservesWellFormed terms l ns x := by
  obtain ⟨ns', hpop, hsub, -, -, hQ⟩ := h
  refine ⟨ns', hpop, hsub, ?_⟩
  rcases hrun : (x l).1 with fault | ts
  · exact List.nil_subset _
  · exact hQ ts hrun

lemma Yields.preservesWellFormed_one {x : Build Ty} (h : Makes terms l ns x) :
    PreservesWellFormed terms l ns (do return [← x]) := by
  apply Yields.preservesWellFormed
  refine h.bind ?_
  intro t l' ns' h' _ _ ht
  exact Yields.pure h' (by simpa using ht)

lemma preservesWellFormed_of_run {α : Type} {x : Build α} {ns' : List Ty} (h : WellFormed terms (x l).2 ns')
    (hsub : ns ⊆ ns') : PreservesWellFormed terms l ns (do let _ ← x; return []) := by
  refine ⟨ns', ?_⟩
  rcases hrun : x l with ⟨fault | a, l'⟩
  · rw [hrun] at h
    rw [bind_of_error hrun]
    exact ⟨h, hsub, List.nil_subset _⟩
  · rw [hrun] at h
    rw [bind_of_ok hrun]
    exact ⟨h, hsub, List.nil_subset _⟩

lemma typesOf_map (us : List Ty) : Act.typesOf (us.map .type) = us := Referent.types_map us

/-- An allowed act preserves that the lattice is well formed. -/
theorem preservesWellFormed_act (h : WellFormed terms l ns) {a : Act} (ha : a.Allowed terms ns) :
    PreservesWellFormed terms l ns a.run := by
  cases a with
  | any => exact (makes_any h).preservesWellFormed_one
  | predicate pred name? => exact (makes_predicate h pred name?).preservesWellFormed_one
  | refine f t => exact (makes_apply h ha.1 ha.2).preservesWellFormed_one
  | compose name base fs => exact (makes_compose h name ha.1 ha.2).preservesWellFormed_one
  | parts t => exact Yields.preservesWellFormed (Yields.pure h (h.sound t ha).parts)
  | edges d t =>
    apply Yields.preservesWellFormed
    refine (yields_edges h ha d).bind ?_
    rintro _ l' ns' h' _ _ ⟨⟨us, rfl, hus⟩, -⟩
    apply Yields.pure h'
    rw [typesOf_map]
    exact hus.mem
  | search sup sub =>
    obtain ⟨ns', hpop, hsub, -⟩ := supersedes_outcome (WellFormed.walkable terms) h ha.1 ha.2
    exact preservesWellFormed_of_run hpop hsub
  | explore d root =>
    obtain ⟨ns', hpop, hsub, -⟩ := reachable_outcome (WellFormed.explorable terms d) h ha
    exact preservesWellFormed_of_run hpop hsub

lemma Act.Allowed.mono {ts ts' : List Ty} (hsub : ts ⊆ ts') {a : Act} (h : a.Allowed terms ts) :
    a.Allowed terms ts' := by
  cases a with
  | refine f t => exact ⟨h.1.mono hsub, hsub h.2⟩
  | compose name base fs => exact ⟨hsub h.1, fun f hf => (h.2 f hf).mono hsub⟩
  | parts t => exact hsub h
  | edges d t => exact hsub h
  | search sup sub => exact ⟨hsub h.1, hsub h.2⟩
  | explore d root => exact hsub h
  | _ => trivial

/-- Every lattice that comes about by construction is well formed, with all types at hand among its nodes. -/
theorem Made.wellFormed {ts : List Ty} (h : Made terms l ts) :
    ∃ ns, WellFormed terms l ns ∧ ts ⊆ ns := by
  induction h with
  | nothing => exact ⟨[], WellFormed.empty terms, List.nil_subset _⟩
  | act a _ ha ih =>
    obtain ⟨ns, hpop, hsub⟩ := ih
    obtain ⟨ns', hpop', hsub', hgained⟩ := preservesWellFormed_act hpop (ha.mono hsub)
    refine ⟨ns', hpop', fun t ht => ?_⟩
    rcases List.mem_append.mp ht with ht | ht
    · exact hgained ht
    · exact hsub' (hsub ht)

end WellFormedness

section Boxes

/-- Boxes of numbers that are even or odd, boxes of even numbers, and all that they are made from, in
the order of their identities from the last one down. -/
def boxTypes : List Ty :=
  let test (id : Nat) (name : String) : Ty :=
    .predicate ⟨id, id, some [name], some [Build.docLink "predicate"]⟩ (.named name)
  let either : Ty := .compound ⟨3, 3, some ["(even ∪ odd)"],
    some [Build.docLink "union", Build.docLink "predicate", Build.docLink "predicate"]⟩ .union
    [test 0 "even", test 1 "odd"]
  [.unary ⟨5, 5, some ["(box even)"],
      some [Build.docLink "unary", Build.docLink "predicate", Build.docLink "predicate"]⟩
      (test 2 "box") (.named "contents") (test 0 "even"),
    .unary ⟨4, 4, some ["(box (even ∪ odd))"],
      some [Build.docLink "unary", Build.docLink "predicate", Build.docLink "union"]⟩
      (test 2 "box") (.named "contents") either,
    either, test 2 "box", test 1 "odd", test 0 "even"]

def boxType (i : Nat) : Ty := boxTypes.getD i default

def boxLattice : Lattice :=
  ⟨#[.empty, .empty, .empty, ⟨some [.type (boxType 5), .type (boxType 4)], some []⟩, .pending, .pending],
    6⟩

lemma boxLattice_made (terms : Terms) : Made terms boxLattice boxTypes := by
  have htests : Made terms ⟨#[.empty, .empty, .empty], 3⟩ (boxTypes.drop 3) :=
    .act (.predicate (.named "box") none) (.act (.predicate (.named "odd") none)
      (.act (.predicate (.named "even") none) .nothing trivial) trivial) trivial
  have hunion : Made terms
      ⟨#[.empty, .empty, .empty, ⟨some [.type (boxType 5), .type (boxType 4)], some []⟩], 4⟩
      (boxTypes.drop 2) :=
    .act (.refine (.operator .union (boxType 5)) (boxType 4)) htests
      ⟨⟨by simp [Terms.operators], by simp [boxTypes, boxType]⟩, by simp [boxTypes, boxType]⟩
  have hboxes : Made terms ⟨#[.empty, .empty, .empty,
      ⟨some [.type (boxType 5), .type (boxType 4)], some []⟩, .pending], 5⟩ (boxTypes.drop 1) :=
    .act (.refine (.container (boxType 3) (.named "contents")) (boxType 2)) hunion
      ⟨by simp [Refiner.Allowed, boxTypes, boxType], by simp [boxTypes, boxType]⟩
  exact .act (.refine (.container (boxType 3) (.named "contents")) (boxType 5)) hboxes
    ⟨by simp [Refiner.Allowed, boxTypes, boxType], by simp [boxTypes, boxType]⟩

end Boxes

section Numbers

/-- The numbers that two tests accept, taken together in each way, in the order of their identities
from the last one down. -/
def numberTypes : List Ty :=
  let test (id : Nat) (name : String) : Ty :=
    .predicate ⟨id, id, some [name], some [Build.docLink "predicate"]⟩ (.named name)
  let joined (id : Nat) (name : String) (op : Operator) : Ty :=
    .compound ⟨id, id, some [name],
      some [Build.docLink op.kind, Build.docLink "predicate", Build.docLink "predicate"]⟩ op
      [test 0 "even", test 1 "positive"]
  [joined 4 "(even ⊖ positive)" .difference, joined 3 "(even ∪ positive)" .union,
    joined 2 "(even ∩ positive)" .intersection, test 1 "positive", test 0 "even"]

def numberType (i : Nat) : Ty := numberTypes.getD i default

def numberLattice : Lattice :=
  let both : List Referent := [.type (numberType 4), .type (numberType 3)]
  ⟨#[.empty, .empty, ⟨some [], some both⟩, ⟨some both, some []⟩, ⟨some [], some both⟩], 5⟩

lemma numberLattice_made {terms : Terms} (hterms : terms.differences) :
    Made terms numberLattice numberTypes := by
  have htests : Made terms ⟨#[.empty, .empty], 2⟩ (numberTypes.drop 3) :=
    .act (.predicate (.named "positive") none) (.act (.predicate (.named "even") none) .nothing trivial)
      trivial
  have hboth : Made terms ⟨#[.empty, .empty,
      ⟨some [], some [.type (numberType 4), .type (numberType 3)]⟩], 3⟩ (numberTypes.drop 2) :=
    .act (.refine (.operator .intersection (numberType 4)) (numberType 3)) htests
      ⟨⟨by simp [Terms.operators], by simp [numberTypes, numberType]⟩, by simp [numberTypes, numberType]⟩
  have heither : Made terms ⟨#[.empty, .empty,
      ⟨some [], some [.type (numberType 4), .type (numberType 3)]⟩,
      ⟨some [.type (numberType 4), .type (numberType 3)], some []⟩], 4⟩ (numberTypes.drop 1) :=
    .act (.refine (.operator .union (numberType 4)) (numberType 3)) hboth
      ⟨⟨by simp [Terms.operators], by simp [numberTypes, numberType]⟩, by simp [numberTypes, numberType]⟩
  exact .act (.refine (.operator .difference (numberType 4)) (numberType 3)) heither
    ⟨⟨fun _ => hterms, by simp [numberTypes, numberType]⟩, by simp [numberTypes, numberType]⟩

end Numbers

section Groupings

/-- The numbers that pass three tests, with the tests taken together in two ways, in the order of their
identities from the last one down. -/
def groupedTypes : List Ty :=
  let test (id : Nat) (name : String) : Ty :=
    .predicate ⟨id, id, some [name], some [Build.docLink "predicate"]⟩ (.named name)
  let joined (id : Nat) (name : String) (ts : List Ty) : Ty :=
    .compound ⟨id, id, some [name],
      some (Build.docLink "intersection" :: ts.map fun _ => Build.docLink "predicate")⟩ .intersection ts
  let all := [test 0 "even", test 1 "positive", test 2 "small"]
  [joined 6 "(even ∩ positive ∩ small)" all, joined 5 "(positive ∩ small)" (all.drop 1),
    joined 4 "(even ∩ positive ∩ small)" all, joined 3 "(even ∩ positive)" (all.take 2),
    test 2 "small", test 1 "positive", test 0 "even"]

def groupedType (i : Nat) : Ty := groupedTypes.getD i default

/-- The supersets of the four intersections: each names the two types that it was made of first. -/
def groupedSupersets : List Edges :=
  [⟨some [], some [.type (groupedType 6), .type (groupedType 5)]⟩,
    ⟨some [], some [.type (groupedType 3), .type (groupedType 4), .type (groupedType 6), .type (groupedType 5)]⟩,
    ⟨some [], some [.type (groupedType 5), .type (groupedType 4)]⟩,
    ⟨some [], some [.type (groupedType 6), .type (groupedType 1), .type (groupedType 5), .type (groupedType 4)]⟩]

def groupedEntries (n : Nat) : Array Edges := ⟨.replicate 3 .empty ++ groupedSupersets.take n⟩

def groupedLattice : Lattice := ⟨groupedEntries 4, 7⟩

lemma groupedLattice_made (terms : Terms) : Made terms groupedLattice groupedTypes := by
  have htests : Made terms ⟨groupedEntries 0, 3⟩ (groupedTypes.drop 4) :=
    .act (.predicate (.named "small") none) (.act (.predicate (.named "positive") none)
      (.act (.predicate (.named "even") none) .nothing trivial) trivial) trivial
  have hpair : Made terms ⟨groupedEntries 1, 4⟩ (groupedTypes.drop 3) :=
    .act (.refine (.operator .intersection (groupedType 6)) (groupedType 5)) htests
      ⟨⟨by simp [Terms.operators], by simp [groupedTypes, groupedType]⟩, by simp [groupedTypes, groupedType]⟩
  have hleft : Made terms ⟨groupedEntries 2, 5⟩ (groupedTypes.drop 2) :=
    .act (.refine (.operator .intersection (groupedType 3)) (groupedType 4)) hpair
      ⟨⟨by simp [Terms.operators], by simp [groupedTypes, groupedType]⟩, by simp [groupedTypes, groupedType]⟩
  have htail : Made terms ⟨groupedEntries 3, 6⟩ (groupedTypes.drop 1) :=
    .act (.refine (.operator .intersection (groupedType 5)) (groupedType 4)) hleft
      ⟨⟨by simp [Terms.operators], by simp [groupedTypes, groupedType]⟩, by simp [groupedTypes, groupedType]⟩
  exact .act (.refine (.operator .intersection (groupedType 6)) (groupedType 1)) htail
    ⟨⟨by simp [Terms.operators], by simp [groupedTypes, groupedType]⟩, by simp [groupedTypes, groupedType]⟩

end Groupings

end StructuralTypes
