import StructuralTypes.Proofs.Additions
import StructuralTypes.Proofs.Constructors
import StructuralTypes.Proofs.LatticeEmbedding

/-!
# Constructors on embedded lattices

A constructor that is given the images of its operands makes the image of its result, or fails on both sides
alike. The numbers that it takes correspond on both sides, and operands are sorted and edges declared alike
because that depends on the order of numbers only.
-/

namespace StructuralTypes

variable {c : Comparison} {untouched strict : Prop} {ρ : Renumbering} {ns : List Ty} {l l' : Lattice}

/-- A referent that an edge may lead to. -/
def Referent.Usable (untouched : Prop) (ns : List Ty) (r : Referent) : Prop :=
  r.Known ns ∧ (untouched → ∃ t, r = .type t)

lemma Referent.usable_type {t : Ty} (ht : t ∈ ns) : (Referent.type t).Usable untouched ns :=
  ⟨ht, fun _ => ⟨t, rfl⟩⟩

lemma NodeEnumeration.usable (h : NodeEnumeration untouched l ns) {t : Ty} (ht : t ∈ ns) {d : Direction}
    {rs : List Referent} (hrs : l.stored? d t.id = some rs) : ∀ r ∈ rs, r.Usable untouched ns := by
  intro r hr
  refine ⟨h.known t ht d rs hrs r hr, fun hun => ?_⟩
  have htypes : ∃ us : List Ty, rs = us.map .type := by
    by_cases hcontainer : t.isContainer = true
    · obtain ⟨us, _, hus, _⟩ := (h.untouched hun).worked t ht hcontainer d rs hrs
      exact ⟨us, hus⟩
    · obtain ⟨us, hus, _⟩ := (h.untouched hun).settled t ht (by simpa using hcontainer) d
      rw [hus] at hrs
      exact ⟨us, (Option.some.inj hrs).symm⟩
  obtain ⟨us, rfl⟩ := htypes
  obtain ⟨u, _, rfl⟩ := List.mem_map.mp hr
  exact ⟨u, rfl⟩

section Attempts

variable {r r' : Referent} {t : Ty}

lemma eq_type_of_expect {feature : Feature} (h : r.expect feature = .ok t) : r = .type t := by
  cases r with
  | type u =>
    obtain rfl : u = t := Except.ok.inj h
    rfl
  | plain => cases h

lemma related_expect (h : r.RenumbersTo ρ ns r') (feature : Feature) :
    RelatedResults c (Ty.RenumbersTo ρ ns) (r.expect feature) (r'.expect feature) := by
  obtain ⟨hr, rfl⟩ := h
  rw [Referent.expect_renumber]
  apply RelatedResults.of_map
  intro t ht
  rw [eq_type_of_expect ht] at hr
  exact ⟨hr, rfl⟩

lemma related_canonicalName (t : Ty) : RelatedResults c Eq t.canonicalName (t.renumber ρ).canonicalName := by
  rw [Ty.canonicalName_renumber]
  exact .of_eq

lemma related_firstDoc (t : Ty) : RelatedResults c Eq t.firstDoc (t.renumber ρ).firstDoc := by
  rw [Ty.firstDoc_renumber]
  exact .of_eq

lemma related_names (t : Ty) : RelatedResults c Eq t.names (t.renumber ρ).names := by
  rw [Ty.names_renumber]
  exact .of_eq

end Attempts

section Nodes

/-- A new node whose edges are those of the other side under new numbers. -/
lemma buildSimulates_new (h : LatticeEmbedding c strict ρ ns l l') {e : Edges} {t t' : Nat → Ty}
    (ht : AdmissibleNode c.untouched l ns e (t l.entries.size))
    (heq : t' (ρ.id l.entries.size) = (t l.entries.size).renumber ρ) :
    BuildSimulates c strict ρ ns l l' (do return t (← Build.register e))
      (do return t' (← Build.register (e.renumber ρ))) (Ty.RenumbersTo ρ) := by
  apply buildSimulates_node h ht
  · intro d rs hrs
    rw [Edges.get?_renumber, hrs, Option.map_some]
  · intro _ d hnone
    rw [Edges.get?_renumber, hnone, Option.map_none]
  · exact heq

/-- A node that is no container and has known edges of either kind. -/
lemma AdmissibleNode.of_edges {t : Ty} (hid : t.id = l.entries.size) (hparts : t.parts ⊆ ns)
    (hserial : t.serial < l.nextSerial) (hleaf : t.isContainer = false) {below above : List Referent}
    (hbelow : ∀ r ∈ below, r.Usable untouched ns) (habove : ∀ r ∈ above, r.Usable untouched ns) :
    AdmissibleNode untouched l ns ⟨some below, some above⟩ t := by
  have hedges : ∀ d, ∃ rs, Edges.get? ⟨some below, some above⟩ d = some rs ∧ ∀ r ∈ rs, r.Usable untouched ns := by
    intro d
    cases d with
    | subsets => exact ⟨below, rfl, hbelow⟩
    | supersets => exact ⟨above, rfl, habove⟩
  refine ⟨hid, hparts, hserial, ?_, ?_, ?_⟩
  · intro d rs hrs r hr
    obtain ⟨rs', hrs', husable⟩ := hedges d
    rw [hrs'] at hrs
    rw [← Option.some.inj hrs] at hr
    exact (husable r hr).1
  · intro hun _ d
    obtain ⟨rs, hrs, husable⟩ := hedges d
    obtain ⟨us, rfl, _⟩ := exists_types fun r hr => ((husable r hr).2 hun).imp fun _ ht => ⟨ht, trivial⟩
    exact ⟨us, hrs⟩
  · intro _ hcontainer
    rw [hleaf] at hcontainer
    cases hcontainer

/-- A node without parts and edges. -/
lemma buildSimulates_leaf (h : LatticeEmbedding c strict ρ ns l l') (make : Label → Ty)
    (names? docs? : Option (List String)) (hlabel : ∀ label, (make label).label = label)
    (hparts : ∀ label, (make label).parts = [])
    (hleaf : ∀ label, (make label).isContainer = false)
    (hmake : ∀ label, make (label.renumber ρ) = (make label).renumber ρ) :
    BuildSimulates c strict ρ ns l l'
      (do
        let serial ← Build.takeSerial
        let id ← Build.register .empty
        return make ⟨id, serial, names?, docs?⟩)
      (do
        let serial ← Build.takeSerial
        let id ← Build.register .empty
        return make ⟨id, serial, names?, docs?⟩) (Ty.RenumbersTo ρ) := by
  apply buildSimulates_takeSerial h
  intro h
  apply buildSimulates_new h (e := .empty)
  · have hedges : ∀ r ∈ ([] : List Referent), r.Usable c.untouched ns := by simp
    apply AdmissibleNode.of_edges _ _ _ (hleaf _) hedges hedges
    · rw [Ty.id, hlabel]
    · rw [hparts]
      exact List.nil_subset ns
    · rw [Ty.serial, hlabel]
      exact Nat.lt_succ_self _
  · exact hmake ⟨_, _, names?, docs?⟩

lemma buildSimulates_any (h : LatticeEmbedding c strict ρ ns l l') :
    BuildSimulates c strict ρ ns l l' Build.any Build.any (Ty.RenumbersTo ρ) :=
  buildSimulates_leaf h .any _ _ (fun _ => rfl) (fun _ => rfl) (fun _ => rfl) fun _ => rfl

lemma buildSimulates_bare (h : LatticeEmbedding c strict ρ ns l l') :
    BuildSimulates c strict ρ ns l l' Build.bare Build.bare (Ty.RenumbersTo ρ) :=
  buildSimulates_leaf h .bare _ _ (fun _ => rfl) (fun _ => rfl) (fun _ => rfl) fun _ => rfl

lemma buildSimulates_predicate (h : LatticeEmbedding c strict ρ ns l l') (pred : Fn) (name? : Option String) :
    BuildSimulates c strict ρ ns l l' (Build.predicate pred name?) (Build.predicate pred name?)
      (Ty.RenumbersTo ρ) :=
  buildSimulates_leaf h (.predicate · pred) _ _ (fun _ => rfl) (fun _ => rfl) (fun _ => rfl) fun _ => rfl

end Nodes

section Operators

lemma mem_splice {part? : Referent → Option (List Referent)} {left right r : Referent}
    (h : r ∈ splice part? left right) :
    r = left ∨ r = right ∨ (∃ rs, part? left = some rs ∧ r ∈ rs) ∨ ∃ rs, part? right = some rs ∧ r ∈ rs := by
  unfold splice at h
  cases hl : part? left <;> cases hr : part? right <;> rw [hl, hr] at h <;> simp at h ⊢ <;> tauto

lemma mem_splice_of_none {part? : Referent → Option (List Referent)} {left right : Referent} :
    (part? left = none → left ∈ splice part? left right) ∧ (part? right = none → right ∈ splice part? left right) := by
  unfold splice
  cases part? left <;> cases part? right <;> simp

/-- Only types can be merged. -/
lemma types_of_mergeOperands {op : Operator} {left right : Referent} {ranked : List Ranked}
    (h : mergeOperands op left right = .ok ranked) : ∃ a b, left = .type a ∧ right = .type b := by
  rw [mergeOperands_eq] at h
  cases hmap : (splice (absorbedPart? op) left right).mapM Ranked.ofReferent with
  | error fault =>
    rw [hmap] at h
    cases h
  | ok as =>
    have htype : ∀ r ∈ splice (absorbedPart? op) left right, ∃ t, r = .type t := by
      intro r hr
      obtain ⟨a, _, ha⟩ := exists_related_right (forall₂_of_mapM hmap) hr
      cases r with
      | type t => exact ⟨t, rfl⟩
      | plain => cases ha
    have hside : ∀ r : Referent, (absorbedPart? op r = none → r ∈ splice (absorbedPart? op) left right) →
        ∃ t, r = .type t := by
      intro r hr
      cases r with
      | type t => exact ⟨t, rfl⟩
      | plain => exact htype _ (hr rfl)
    obtain ⟨a, ha⟩ := hside left mem_splice_of_none.1
    obtain ⟨b, hb⟩ := hside right mem_splice_of_none.2
    exact ⟨a, b, ha, hb⟩

lemma mem_of_dropRepeats_fold {rs ks us : List Referent}
    (h : (rs.foldlM (fun kept r => do
      r.checkHashable
      return if kept.any (·.isSameMember r) then kept else kept ++ [r]) ks : Attempt (List Referent)) = .ok us) :
    us ⊆ ks ++ rs := by
  induction rs generalizing ks with
  | nil =>
    obtain rfl : ks = us := Except.ok.inj h
    exact List.subset_append_left ks []
  | cons r rs ih =>
    rw [List.foldlM_cons] at h
    cases hhash : r.checkHashable with
    | error fault =>
      rw [hhash] at h
      cases h
    | ok =>
      rw [hhash] at h
      intro u hu
      have hmem := ih h hu
      split at hmem <;> simp only [List.mem_append, List.mem_cons] at hmem ⊢ <;> tauto

lemma mem_of_dropRepeats {rs us : List Referent} (h : dropRepeats rs = .ok us) : us ⊆ rs :=
  mem_of_dropRepeats_fold h

/-- Lists of referents that edges may lead to, the second one under new numbers. -/
def RenumbersAllTo (untouched : Prop) (ρ : Renumbering) (ns : List Ty) (rs rs' : List Referent) : Prop :=
  rs' = rs.map (Referent.renumber ρ) ∧ ∀ r ∈ rs, r.Usable untouched ns

lemma related_dropRepeats {rs : List Referent} (h : ∀ r ∈ rs, r.Usable c.untouched ns) :
    RelatedResults c (RenumbersAllTo c.untouched ρ ns) (dropRepeats rs)
      (dropRepeats (rs.map (Referent.renumber ρ))) := by
  rw [dropRepeats_renumber]
  apply RelatedResults.of_map
  intro us hus
  exact ⟨rfl, fun u hu => h u (mem_of_dropRepeats hus hu)⟩

lemma RenumbersAllTo.flatten {rss rss' : List (List Referent)}
    (h : List.Forall₂ (RenumbersAllTo untouched ρ ns) rss rss') :
    RenumbersAllTo untouched ρ ns rss.flatten rss'.flatten := by
  induction h with
  | nil => exact ⟨rfl, by simp⟩
  | cons hhead _ ih =>
    refine ⟨?_, fun r hr => ?_⟩
    · rw [List.flatten_cons, List.flatten_cons, List.map_append, hhead.1, ih.1]
    · rcases List.mem_append.mp hr with hr | hr
      · exact hhead.2 r hr
      · exact ih.2 r hr

section Depth

lemma supersetLeaves_mono {n m : Nat} (hle : n ≤ m) {r : Referent} {rs : List Referent}
    (h : supersetLeaves l n r = .ok rs) : supersetLeaves l m r = .ok rs := by
  induction n generalizing m r rs with
  | zero => cases h
  | succ n ih =>
    obtain ⟨m, rfl⟩ : ∃ k, m = k + 1 := ⟨m - 1, by omega⟩
    cases r with
    | plain => exact h
    | type t =>
      cases t with
      | compound label op ts =>
        cases op with
        | union => exact h
        | difference => exact h
        | intersection =>
          rw [supersetLeaves] at h ⊢
          obtain ⟨rss, hrss, h⟩ := ok_of_attempt h
          have hmore := (forall₂_of_mapM hrss).imp fun _ _ => ih (Nat.le_of_succ_le_succ hle)
          rw [mapM_of_forall₂ hmore]
          exact h
      | _ => exact h

lemma supersetLeaves_fault {n : Nat} {r : Referent} {fault : Fault} (h : supersetLeaves l n r = .error fault) :
    fault = .tooDeep := by
  induction n generalizing r fault with
  | zero => exact (Except.error.inj h).symm
  | succ n ih =>
    cases r with
    | plain => cases h
    | type t =>
      cases t with
      | compound label op ts =>
        cases op with
        | union => cases h
        | difference => cases h
        | intersection =>
          rw [supersetLeaves] at h
          rcases habove : ((l.stored? .supersets label.id).getD []).mapM (supersetLeaves l n) with fault' | rss
          · rw [habove] at h
            obtain rfl : fault' = fault := Except.error.inj h
            obtain ⟨s, -, hs⟩ := exists_error_of_mapM habove
            exact ih hs
          · rw [habove] at h
            cases h
      | _ => cases h

/-- If `n + 1` is the first depth that is enough for a node, it leads to a node for which `n` is the first
such depth, and so on: these nodes are all different. -/
lemma descent_of_supersetLeaves (h : NodeEnumeration untouched l ns) {n : Nat} {t : Ty} (ht : t ∈ ns)
    (hok : ∃ rs, supersetLeaves l (n + 1) (.type t) = .ok rs) (hless : ∀ rs, supersetLeaves l n (.type t) ≠ .ok rs)
    {seen : List Nat} (hseen : ∀ i ∈ seen, ∃ u ∈ ns, u.id = i ∧ ∀ rs, supersetLeaves l (n + 1) (.type u) ≠ .ok rs) :
    Descent (fun _ _ : Ty => True) (· ∈ ns) Ty.id seen n t := by
  induction n generalizing t seen with
  | zero => exact .stop _ _
  | succ n ih =>
    obtain ⟨rs, hok⟩ := hok
    have hnew : t.id ∉ seen := by
      intro hmem
      obtain ⟨u, hu, hid, hnone⟩ := hseen _ hmem
      rw [h.unique hu ht hid] at hnone
      exact hnone rs hok
    cases t with
    | compound label op ts =>
      cases op with
      | union => exact absurd rfl (hless _)
      | difference => exact absurd rfl (hless _)
      | intersection =>
        rw [supersetLeaves] at hok
        obtain ⟨rss, hrss, -⟩ := ok_of_attempt hok
        -- one of the nodes above needs the whole depth that is left
        obtain ⟨s, hs, hnone⟩ : ∃ s ∈ (l.stored? .supersets label.id).getD [],
            ∀ rs, supersetLeaves l n s ≠ .ok rs := by
          by_contra hall
          simp only [not_exists, not_and, not_forall, not_not] at hall
          obtain ⟨rss', hrss'⟩ := mapM_answers hall
          refine hless rss'.flatten ?_
          rw [supersetLeaves, hrss']
          rfl
        obtain ⟨ss, -, hss⟩ := exists_related_right (forall₂_of_mapM hrss) hs
        cases n with
        | zero => exact .step hnew ht trivial (.stop _ (.compound label .intersection ts))
        | succ n =>
          cases s with
          | plain => exact absurd rfl (hnone _)
          | type u =>
            have hu : u ∈ ns := by
              cases hstored : l.stored? .supersets label.id with
              | none =>
                rw [hstored] at hs
                cases hs
              | some us =>
                rw [hstored] at hs
                exact h.known _ ht .supersets us hstored _ hs
            refine .step hnew ht trivial (ih hu ⟨ss, hss⟩ hnone ?_)
            intro i hi
            rcases List.mem_cons.mp hi with rfl | hi
            · exact ⟨_, ht, rfl, hless⟩
            · obtain ⟨v, hv, hid, hfar⟩ := hseen i hi
              exact ⟨v, hv, hid, fun rs hrs => hfar rs (supersetLeaves_mono (Nat.le_succ _) hrs)⟩
    | _ => exact absurd rfl (hless _)

/-- A depth that exceeds the number of nodes is as good as any. -/
lemma supersetLeaves_enough (h : NodeEnumeration untouched l ns) {r : Referent} (hr : r.Known ns) {n : Nat}
    {rs : List Referent} (hok : supersetLeaves l n r = .ok rs) :
    supersetLeaves l (l.entries.size + 1) r = .ok rs := by
  induction n generalizing rs with
  | zero => cases hok
  | succ n ih =>
    by_cases hless : ∃ ss, supersetLeaves l n r = .ok ss
    · obtain ⟨ss, hss⟩ := hless
      rw [supersetLeaves_mono (Nat.le_succ n) hss] at hok
      rw [← Except.ok.inj hok]
      exact ih hss
    · cases r with
      | plain => exact hok
      | type t =>
        have hdescent : Descent (fun _ _ : Ty => True) (· ∈ ns) Ty.id [] n t :=
          descent_of_supersetLeaves h hr ⟨rs, hok⟩ (fun ss hss => hless ⟨ss, hss⟩) (by simp)
        have hle := hdescent.add_length_le (List.range l.entries.size)
          (fun u hu => List.mem_range.mpr (h.id_lt hu)) List.nodup_nil (List.nil_subset _)
        rw [List.length_range, List.length_nil] at hle
        exact supersetLeaves_mono (by omega) hok

lemma supersetLeaves_eq (h : NodeEnumeration untouched l ns) {r : Referent} (hr : r.Known ns) {depth : Nat}
    (hdepth : l.entries.size < depth) : supersetLeaves l depth r = supersetLeaves l (l.entries.size + 1) r := by
  cases hrun : supersetLeaves l depth r with
  | ok rs => exact (supersetLeaves_enough h hr hrun).symm
  | error fault =>
    cases hrun' : supersetLeaves l (l.entries.size + 1) r with
    | error fault' => rw [supersetLeaves_fault hrun, supersetLeaves_fault hrun']
    | ok rs =>
      rw [supersetLeaves_mono hdepth hrun'] at hrun
      cases hrun

end Depth

/-- The image of what lies above an operand lies above the image of the operand. -/
lemma related_supersetLeaves (h : LatticeEmbedding c strict ρ ns l l') (depth : Nat) {r : Referent}
    (hr : r.Usable c.untouched ns) :
    RelatedResults c (RenumbersAllTo c.untouched ρ ns) (supersetLeaves l depth r)
      (supersetLeaves l' depth (r.renumber ρ)) := by
  have hself : RenumbersAllTo c.untouched ρ ns [r] [r.renumber ρ] := ⟨rfl, by simpa using hr⟩
  induction depth generalizing r with
  | zero => exact .error (c.refl _)
  | succ depth ih =>
    cases r with
    | plain => exact .ok hself
    | type t =>
      cases t with
      | compound label op ts =>
        cases op with
        | union => exact .ok hself
        | difference => exact .ok hself
        | intersection =>
          have hstored := h.stored?_eq hr.1 (fun hcontainer => by cases hcontainer) .supersets
          change l'.stored? .supersets (ρ.id label.id) = (l.stored? .supersets label.id).map _ at hstored
          have habove : RenumbersAllTo c.untouched ρ ns ((l.stored? .supersets label.id).getD [])
              ((l'.stored? .supersets (ρ.id label.id)).getD []) := by
            rw [hstored]
            cases hrs : l.stored? .supersets label.id with
            | none => exact ⟨rfl, by simp⟩
            | some rs => exact ⟨rfl, h.enumeration.usable hr.1 hrs⟩
          rw [Referent.renumber_type, Ty.renumber, supersetLeaves, Label.renumber, supersetLeaves, habove.1]
          refine RelatedResults.bind (Q := List.Forall₂ (RenumbersAllTo c.untouched ρ ns)) (RelatedResults.mapM ?_)
            fun rss rss' _ hrss =>
            .ok (RenumbersAllTo.flatten hrss)
          rw [List.forall₂_map_right_iff]
          exact List.forall₂_same.mpr fun s hs => ih (habove.2 s hs) ⟨rfl, by simpa using habove.2 s hs⟩
      | _ => exact .ok hself

lemma related_intersectionSupersets (h : LatticeEmbedding c strict ρ ns l l') {left right : Referent}
    (hl : left.Usable c.untouched ns) (hr : right.Usable c.untouched ns) :
    RelatedResults c (RenumbersAllTo c.untouched ρ ns) (intersectionSupersets l left right)
      (intersectionSupersets l' (left.renumber ρ) (right.renumber ρ)) := by
  have hdepth : l.entries.size < l'.entries.size + 1 := Nat.lt_succ_of_le h.size_le
  unfold intersectionSupersets
  dsimp only
  rw [← supersetLeaves_eq h.enumeration hl.1 hdepth, ← supersetLeaves_eq h.enumeration hr.1 hdepth]
  apply (related_supersetLeaves h _ hl).bind
  intro ls ls' _ hls
  apply (related_supersetLeaves h _ hr).bind
  intro rs rs' _ hrs
  have hall : left.renumber ρ :: right.renumber ρ :: ls' ++ rs' =
      (left :: right :: ls ++ rs).map (Referent.renumber ρ) := by
    rw [hls.1, hrs.1, List.map_append, List.map_cons, List.map_cons]
  rw [hall]
  apply related_dropRepeats
  intro r hmem
  simp only [List.cons_append, List.mem_cons, List.mem_append] at hmem
  rcases hmem with rfl | rfl | hmem | hmem
  · exact hl
  · exact hr
  · exact hls.2 r hmem
  · exact hrs.2 r hmem

lemma subsetPart?_renumbersTo (h : LatticeEmbedding c strict ρ ns l l') {r : Referent} (hr : r.Known ns) :
    subsetPart? l' (r.renumber ρ) = (subsetPart? l r).map (·.map (Referent.renumber ρ)) := by
  cases r with
  | plain => rfl
  | type t =>
    cases t with
    | compound label op ts =>
      cases op with
      | union =>
        have hstored := h.stored?_eq hr (fun hcontainer => by cases hcontainer) .subsets
        change l'.stored? .subsets (ρ.id label.id) = (l.stored? .subsets label.id).map _ at hstored
        rw [Referent.renumber_type, Ty.renumber, Label.renumber, subsetPart?, subsetPart?, hstored]
        cases l.stored? .subsets label.id <;> rfl
      | _ => rfl
    | _ => rfl

lemma subsetPart?_usable (h : NodeEnumeration untouched l ns) {r : Referent} (hr : r.Known ns) {rs : List Referent}
    (hrs : subsetPart? l r = some rs) : ∀ s ∈ rs, s.Usable untouched ns := by
  cases r with
  | plain => cases hrs
  | type t =>
    cases t with
    | compound label op ts =>
      cases op with
      | union =>
        cases hstored : l.stored? .subsets label.id with
        | none =>
          rw [subsetPart?, hstored] at hrs
          rw [← Option.some.inj hrs]
          simp
        | some ss =>
          rw [subsetPart?, hstored] at hrs
          obtain rfl : ss = rs := Option.some.inj hrs
          exact h.usable hr hstored
      | _ => cases hrs
    | _ => cases hrs

lemma related_unionSubsets (h : LatticeEmbedding c strict ρ ns l l') {left right : Referent}
    (hl : left.Usable c.untouched ns) (hr : right.Usable c.untouched ns) :
    RelatedResults c (RenumbersAllTo c.untouched ρ ns) (dropRepeats (unionSubsets l left right))
      (dropRepeats (unionSubsets l' (left.renumber ρ) (right.renumber ρ))) := by
  rw [unionSubsets_eq, unionSubsets_eq, splice_renumber ρ (subsetPart?_renumbersTo h hl.1)
    (subsetPart?_renumbersTo h hr.1)]
  apply related_dropRepeats
  intro r hmem
  rcases mem_splice hmem with rfl | rfl | ⟨rs, hrs, hmem⟩ | ⟨rs, hrs, hmem⟩
  · exact hl
  · exact hr
  · exact subsetPart?_usable h.enumeration hl.1 hrs r hmem
  · exact subsetPart?_usable h.enumeration hr.1 hrs r hmem

/-- Edges of both kinds, worked out alike on both sides. -/
def RenumbersEdgesTo (untouched : Prop) (ρ : Renumbering) (ns : List Ty) (e e' : Edges) : Prop :=
  e' = e.renumber ρ ∧ ∃ below above, e = ⟨some below, some above⟩ ∧
    (∀ r ∈ below, r.Usable untouched ns) ∧ ∀ r ∈ above, r.Usable untouched ns

lemma related_declaredEdges (h : LatticeEmbedding c strict ρ ns l l') {left right : Referent}
    (hl : left.Usable c.untouched ns) (hr : right.Usable c.untouched ns) (op : Operator) :
    RelatedResults c (RenumbersEdgesTo c.untouched ρ ns) (Build.declaredEdges l left right op)
      (Build.declaredEdges l' (left.renumber ρ) (right.renumber ρ) op) := by
  have hnone : ∀ r ∈ ([] : List Referent), r.Usable c.untouched ns := by simp
  cases op with
  | intersection =>
    apply (related_intersectionSupersets h hl hr).bind
    rintro rs _ _ ⟨rfl, hrs⟩
    exact .ok ⟨rfl, [], rs, rfl, hnone, hrs⟩
  | union =>
    apply (related_unionSubsets h hl hr).bind
    rintro rs _ _ ⟨rfl, hrs⟩
    exact .ok ⟨rfl, rs, [], rfl, hrs, hnone⟩
  | difference =>
    refine .ok ⟨rfl, [], [left, right], rfl, hnone, fun r hmem => ?_⟩
    rcases List.mem_pair.mp hmem with rfl | rfl
    · exact hl
    · exact hr

lemma related_firstDocs (ts : List Ty) :
    RelatedResults c Eq (ts.mapM (·.firstDoc)) ((ts.map (Ty.renumber ρ)).mapM (·.firstDoc)) := by
  have hdocs : RelatedResults c (List.Forall₂ Eq) (ts.mapM Ty.firstDoc)
      ((ts.map (Ty.renumber ρ)).mapM Ty.firstDoc) := by
    apply RelatedResults.mapM
    rw [List.forall₂_map_right_iff]
    exact List.forall₂_same.mpr fun t _ => related_firstDoc t
  rw [List.forall₂_eq_eq_eq] at hdocs
  exact hdocs

lemma NodeEnumeration.contribution_mem (h : NodeEnumeration untouched l ns) {t : Ty} (ht : t ∈ ns) (op : Operator) :
    t.contribution op ⊆ ns := by
  intro u hu
  rcases Ty.contribution_parts hu with rfl | hpart
  · exact ht
  · exact h.parts t ht hpart

lemma buildSimulates_compound (h : LatticeEmbedding c strict ρ ns l l') (op : Operator)
    {left left' right right' : Referent} (hl : left.RenumbersTo ρ ns left') (hr : right.RenumbersTo ρ ns right') :
    BuildSimulates c strict ρ ns l l' (Build.compound op left right) (Build.compound op left' right')
      (Ty.RenumbersTo ρ) := by
  obtain ⟨hl, rfl⟩ := hl
  obtain ⟨hr, rfl⟩ := hr
  apply buildSimulates_takeSerial h
  intro h
  apply Simulates.attempt_bind h (P := fun ranked ranked' => ranked' = ranked.map (Ranked.renumber ρ))
  · rw [mergeOperands_renumber]
    exact .of_map fun _ _ => rfl
  · rintro ranked _ hranked rfl
    obtain ⟨a, b, rfl, rfl⟩ := types_of_mergeOperands hranked
    have hoperands : ranked.map (·.type) ⊆ ns := by
      intro t ht
      rcases List.mem_append.mp ((mergeOperands_perm hranked).mem_iff.mp ht) with ht | ht
      · exact h.enumeration.contribution_mem hl op ht
      · exact h.enumeration.contribution_mem hr op ht
    have htypes : (ranked.map (Ranked.renumber ρ)).map (·.type) = (ranked.map (·.type)).map (Ty.renumber ρ) := by
      rw [List.map_map, List.map_map]
      rfl
    have hnames : (ranked.map (Ranked.renumber ρ)).map (·.canonicalName) = ranked.map (·.canonicalName) := by
      rw [List.map_map]
      rfl
    simp only [htypes, hnames]
    apply Simulates.attempt_bind h (related_firstDocs _)
    rintro docs _ _ rfl
    apply Simulates.get
    apply Simulates.attempt_bind h
      (related_declaredEdges h (Referent.usable_type hl) (Referent.usable_type hr) op)
    rintro _ _ _ ⟨rfl, below, above, rfl, hbelow, habove⟩
    apply buildSimulates_new h
    · exact .of_edges rfl hoperands (Nat.lt_succ_self _) rfl hbelow habove
    · rw [Ty.renumber, Ty.renumberAll_eq]
      rfl

lemma buildSimulates_excluded (h : LatticeEmbedding c strict ρ ns l l') {right right' : Referent}
    (hr : right.RenumbersTo ρ ns right') :
    BuildSimulates c strict ρ ns l l' (Build.excluded right) (Build.excluded right') (Referent.RenumbersTo ρ) := by
  obtain ⟨hr, rfl⟩ := hr
  cases right with
  | plain => exact .pure h ⟨hr, rfl⟩
  | type t =>
    cases t with
    | without label a b =>
      have ha : (Referent.type a).RenumbersTo ρ ns (.type (a.renumber ρ)) :=
        ⟨h.enumeration.parts _ hr (by simp [Ty.parts]), rfl⟩
      have hb : (Referent.type b).RenumbersTo ρ ns (.type (b.renumber ρ)) :=
        ⟨h.enumeration.parts _ hr (by simp [Ty.parts]), rfl⟩
      apply (buildSimulates_compound h .union ha hb).bind
      intro t t' ns' l₁ l₁' _ _ h' ht
      exact .pure h' ht.type
    | _ => exact .pure h ⟨hr, rfl⟩

lemma buildSimulates_without (h : LatticeEmbedding c strict ρ ns l l') {left left' right right' : Referent}
    (hl : left.RenumbersTo ρ ns left') (hr : right.RenumbersTo ρ ns right') :
    BuildSimulates c strict ρ ns l l' (Build.without left right) (Build.without left' right') (Ty.RenumbersTo ρ) := by
  apply buildSimulates_takeSerial h
  intro h
  apply (buildSimulates_excluded h hr).bind
  intro taken taken' ns' l₁ l₁' hrun hns h' htaken
  -- the serial number was taken before anything was excluded
  have hserial : l.nextSerial < l₁.nextSerial := by
    have hextended := extending_excluded right { l with nextSerial := l.nextSerial + 1 }
    rw [hrun] at hextended
    exact hextended.serial_le
  have hl := hl.mono hns
  apply Simulates.attempt_bind h' (related_expect hl .canonicalName)
  rintro leftType _ hleft ⟨hleftMem, rfl⟩
  apply Simulates.attempt_bind h' (related_canonicalName leftType)
  rintro leftName _ _ rfl
  apply Simulates.attempt_bind h' (related_expect htaken .canonicalName)
  rintro rightType _ _ ⟨hrightMem, rfl⟩
  apply Simulates.attempt_bind h' (related_canonicalName rightType)
  rintro rightName _ _ rfl
  apply Simulates.attempt_bind h' (related_firstDoc leftType)
  rintro leftDoc _ _ rfl
  apply Simulates.attempt_bind h' (related_firstDoc rightType)
  rintro rightDoc _ _ rfl
  obtain ⟨-, rfl⟩ := hl
  obtain rfl := eq_type_of_expect hleft
  apply buildSimulates_new h' (e := ⟨some [], some [.type leftType]⟩)
  · apply AdmissibleNode.of_edges
    · rfl
    · exact parts_pair hleftMem hrightMem
    · exact hserial
    · rfl
    · simp
    · simpa using Referent.usable_type hleftMem
  · rfl

end Operators

lemma buildSimulates_container (h : LatticeEmbedding c strict ρ ns l l') {outer outer' inner inner' : Referent}
    (extractor : Fn) (ho : outer.RenumbersTo ρ ns outer') (hi : inner.RenumbersTo ρ ns inner') :
    BuildSimulates c strict ρ ns l l' (Build.container outer extractor inner)
      (Build.container outer' extractor inner') (Ty.RenumbersTo ρ) := by
  apply buildSimulates_takeSerial h
  intro h
  apply Simulates.attempt_bind h (related_expect ho .canonicalName)
  rintro outerType _ _ ⟨houter, rfl⟩
  apply Simulates.attempt_bind h (related_canonicalName outerType)
  rintro outerName _ _ rfl
  apply Simulates.attempt_bind h (related_expect hi .canonicalName)
  rintro innerType _ _ ⟨hinner, rfl⟩
  apply Simulates.attempt_bind h (related_canonicalName innerType)
  rintro innerName _ _ rfl
  apply Simulates.attempt_bind h (related_firstDoc outerType)
  rintro outerDoc _ _ rfl
  apply Simulates.attempt_bind h (related_firstDoc innerType)
  rintro innerDoc _ _ rfl
  apply buildSimulates_new h (e := .pending)
  · refine ⟨rfl, parts_pair houter hinner, Nat.lt_succ_self _, ?_, ?_, ?_⟩
    · intro d rs hrs
      cases d <;> cases hrs
    · intro _ hleaf
      cases hleaf
    · intro _ _ d rs hrs
      cases d <;> cases hrs
  · rfl

section Refinements

lemma Lattice.entry_of_lt {id : Nat} (h : id < l.entries.size) :
    ∃ e, l.entries[id]?.getD .empty = e ∧ ∀ d, e.get? d = l.stored? d id := by
  refine ⟨l.entries[id], ?_, fun d => ?_⟩
  · rw [Array.getElem?_eq_getElem h, Option.getD_some]
  · rw [stored?, Array.getElem?_eq_getElem h, Option.bind_some]

/-- A copy has the edges that its original has at this moment, on either side. -/
lemma buildSimulates_relabel (h : LatticeEmbedding c strict ρ ns l l') {t : Ty} (ht : t ∈ ns)
    (names? docs? : Option (List String)) :
    BuildSimulates c strict ρ ns l l' (Build.relabel t names? docs?)
      (Build.relabel (t.renumber ρ) names? docs?) (Ty.RenumbersTo ρ) := by
  obtain ⟨e, he, hedges⟩ := Lattice.entry_of_lt (h.enumeration.id_lt ht)
  obtain ⟨e', he', hedges'⟩ := Lattice.entry_of_lt (h.id_lt ht)
  have hkind : ∀ label, (t.setLabel label).isContainer = t.isContainer := by cases t <;> exact fun _ => rfl
  apply Simulates.get
  rw [he, Ty.id_renumber, he']
  apply buildSimulates_node h
  · refine ⟨?_, ?_, ?_, ?_, ?_, ?_⟩
    · rw [Ty.id, Ty.label_setLabel]
    · have hparts : (t.setLabel ⟨l.entries.size, t.label.serial, names?.or t.label.names?,
          docs?.or t.label.docs?⟩).parts = t.parts := by cases t <;> rfl
      rw [hparts]
      exact h.enumeration.parts t ht
    · rw [Ty.serial, Ty.label_setLabel]
      exact h.enumeration.serial_lt t ht
    · intro d rs hrs
      rw [hedges] at hrs
      exact h.enumeration.known t ht d rs hrs
    · intro hun hleaf d
      rw [hkind] at hleaf
      obtain ⟨us, hus, _⟩ := (h.enumeration.untouched hun).settled t ht hleaf d
      exact ⟨us, (hedges d).trans hus⟩
    · intro hun hcontainer d rs hrs
      rw [hkind] at hcontainer
      rw [hedges] at hrs
      obtain ⟨us, vs, hus, hvs, hnumbers⟩ := (h.enumeration.untouched hun).worked t ht hcontainer d rs hrs
      exact ⟨us, vs, hus, (Lattice.predicted_setLabel hcontainer d _).trans hvs, hnumbers⟩
  · intro d rs hrs
    rw [hedges] at hrs
    rw [hedges']
    exact h.stored t ht d rs hrs
  · intro hstrict d hnone
    rw [hkind] at hstrict
    rw [hedges] at hnone
    rw [hedges']
    exact h.unstored t ht hstrict d hnone
  · rw [Ty.renumber_setLabel, Ty.label_renumber]
    rfl

lemma buildSimulates_suchThat (h : LatticeEmbedding c strict ρ ns l l') (pred : Fn) {parent parent' : Referent}
    (hp : parent.RenumbersTo ρ ns parent') :
    BuildSimulates c strict ρ ns l l' (Build.suchThat pred parent) (Build.suchThat pred parent')
      (Ty.RenumbersTo ρ) := by
  apply (buildSimulates_predicate h pred none).bind
  intro guard guard' ns' l₁ l₁' _ hns h' hguard
  exact buildSimulates_compound h' .intersection hguard.type (hp.mono hns)

lemma buildSimulates_withAlias (h : LatticeEmbedding c strict ρ ns l l') (name : String) {parent parent' : Referent}
    (hp : parent.RenumbersTo ρ ns parent') :
    BuildSimulates c strict ρ ns l l' (Build.withAlias name parent) (Build.withAlias name parent')
      (Ty.RenumbersTo ρ) := by
  apply Simulates.attempt_bind h (related_expect hp .relabel)
  rintro t _ _ ⟨ht, rfl⟩
  apply Simulates.attempt_bind h (related_names t)
  rintro names _ _ rfl
  exact buildSimulates_relabel h ht _ _

lemma buildSimulates_withoutAlias (h : LatticeEmbedding c strict ρ ns l l') {parent parent' : Referent}
    (hp : parent.RenumbersTo ρ ns parent') :
    BuildSimulates c strict ρ ns l l' (Build.withoutAlias parent) (Build.withoutAlias parent')
      (Ty.RenumbersTo ρ) := by
  apply Simulates.attempt_bind h (related_expect hp .names)
  rintro t _ _ ⟨ht, rfl⟩
  apply Simulates.attempt_bind h (related_names t)
  rintro names _ _ rfl
  by_cases hone : names.length = 1
  · rw [if_pos hone, if_pos hone]
    exact .pure h ⟨ht, rfl⟩
  · rw [if_neg hone, if_neg hone]
    exact buildSimulates_relabel h ht _ _

lemma buildSimulates_withMetadata (h : LatticeEmbedding c strict ρ ns l l') (names? docs? : Option (List String))
    {parent parent' : Referent} (hp : parent.RenumbersTo ρ ns parent') :
    BuildSimulates c strict ρ ns l l' (Build.withMetadata names? docs? parent)
      (Build.withMetadata names? docs? parent') (Ty.RenumbersTo ρ) := by
  apply Simulates.attempt_bind h (related_expect hp .relabel)
  rintro t _ _ ⟨ht, rfl⟩
  exact buildSimulates_relabel h ht _ _

/-- Functions from types to types that make images of images, now and later. -/
def Refines (c : Comparison) (strict : Prop) (ρ : Renumbering) (ns : List Ty) (f f' : Referent → Build Ty) : Prop :=
  ∀ ns' l l' r r', ns ⊆ ns' → LatticeEmbedding c strict ρ ns' l l' → r.RenumbersTo ρ ns' r' →
    BuildSimulates c strict ρ ns' l l' (f r) (f' r') (Ty.RenumbersTo ρ)

lemma Refines.mono {ns ns' : List Ty} {f f' : Referent → Build Ty} (hns : ns ⊆ ns')
    (h : Refines c strict ρ ns f f') : Refines c strict ρ ns' f f' :=
  fun ns'' l l' r r' hns' => h ns'' l l' r r' fun _ ht => hns' (hns ht)

lemma buildSimulates_compose (h : LatticeEmbedding c strict ρ ns l l') (name : String) {base base' : Referent}
    (hbase : base.RenumbersTo ρ ns base') {fs fs' : List (Referent → Build Ty)}
    (hfs : List.Forall₂ (Refines c strict ρ ns) fs fs') :
    BuildSimulates c strict ρ ns l l' (Build.compose name base fs) (Build.compose name base' fs')
      (Ty.RenumbersTo ρ) := by
  have hfold : BuildSimulates c strict ρ ns l l'
      (fs.foldlM (fun current f => do return Referent.type (← f current)) base)
      (fs'.foldlM (fun current f => do return Referent.type (← f current)) base') (Referent.RenumbersTo ρ) := by
    apply Simulates.foldlM (P := Refines c strict ρ) (fun _ _ _ _ hns hf => hf.mono hns) _ h hbase hfs
    intro r r' f f' ns l l' h hr hf
    apply (hf ns l l' r r' (List.Subset.refl ns) h hr).bind
    intro t t' ns' l₁ l₁' _ _ h' ht
    exact .pure h' ht.type
  apply hfold.bind
  intro refined refined' ns' l₁ l₁' _ _ h' hrefined
  exact buildSimulates_withAlias h' name hrefined

end Refinements

end StructuralTypes
