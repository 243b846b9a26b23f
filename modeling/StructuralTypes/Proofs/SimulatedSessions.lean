import StructuralTypes.Proofs.SimulatedInspections
import StructuralTypes.Session

/-!
# Embedded sessions

Two sessions with the same names, bound to types of one lattice and to their images in the other one, answer
alike. Constructions and questions about the structure of types do so in any case, all other steps if the
embedding is a strict one.
-/

namespace StructuralTypes

variable {c : Comparison} {strict untouched : Prop} {ρ : Renumbering} {ns : List Ty} {s s' : Session}

/-- The same session on a lattice that the lattice of the first one embeds into. Reports and picks only have to be
the same if the embedding is strict. -/
structure SessionEmbedding (c : Comparison) (strict : Prop) (ρ : Renumbering) (ns : List Ty) (s s' : Session) :
    Prop where
  lattice : LatticeEmbedding c strict ρ ns s.lattice s'.lattice
  prelude : s'.prelude = s.prelude.renumber ρ
  prelude_known : s.prelude.Known ns
  bindings : s'.bindings = s.bindings.map (Prod.map (fun name => name) (Referent.renumber ρ))
  bindings_known : ∀ b ∈ s.bindings, b.2.Known ns
  reports : strict → s'.reports = s.reports
  picks : strict → s'.picks = s.picks
  nextHandle : s'.nextHandle = s.nextHandle
  console : s'.console = s.console
  calls : s'.calls = s.calls

/-- Steps of two sessions, the first of them embedded into the second, with related results. -/
abbrev StepSimulates (c : Comparison) (strict : Prop) (ρ : Renumbering) (ns : List Ty) (s s' : Session) {α β : Type}
    (x : Stepping α) (y : Stepping β) (Q : List Ty → α → β → Prop) : Prop :=
  Simulates c (SessionEmbedding c strict ρ) ns s s' x y Q

section Names

lemma SessionEmbedding.scope_eq (h : SessionEmbedding c strict ρ ns s s') :
    s'.scope = s.scope.map (Prod.map (fun name => name) (Referent.renumber ρ)) := by
  have hshared : s'.sharedNames = s.sharedNames.map (Prod.map (fun name => name) (Referent.renumber ρ)) := by
    unfold Session.sharedNames
    rw [h.prelude]
    rfl
  unfold Session.scope
  rw [h.bindings, hshared, List.map_append]

lemma SessionEmbedding.scope_known (h : SessionEmbedding c strict ρ ns s s') : ∀ b ∈ s.scope, b.2.Known ns := by
  intro b hb
  rcases List.mem_append.mp hb with hb | hb
  · exact h.bindings_known b hb
  · rcases List.mem_cons.mp hb with rfl | hb
    · exact h.prelude_known.1
    · obtain ⟨entry, hentry, rfl⟩ := List.mem_map.mp hb
      exact h.prelude_known.2 entry hentry

lemma related_resolve (h : SessionEmbedding c strict ρ ns s s') (name : String) :
    RelatedResults c (Referent.RenumbersTo ρ ns) (s.resolve name) (s'.resolve name) := by
  unfold Session.resolve
  rw [h.scope_eq, lookup_map_snd]
  cases hlookup : s.scope.lookup name with
  | none => exact .error (c.refl _)
  | some r => exact .ok ⟨h.scope_known _ (mem_of_lookup hlookup), rfl⟩

lemma stepSimulates_resolve (h : SessionEmbedding c strict ρ ns s s') (name : String) :
    StepSimulates c strict ρ ns s s' (Stepping.resolve name) (Stepping.resolve name) (Referent.RenumbersTo ρ) := by
  apply Simulates.get
  exact .attempt h (related_resolve h name)

lemma SessionEmbedding.view_eq (h : SessionEmbedding c strict ρ ns s s') (r : Referent) :
    s'.view (r.renumber ρ) = s.view r := by
  have hbinding : s'.bindingOf? (r.renumber ρ) = s.bindingOf? r := by
    unfold Session.bindingOf?
    rw [h.scope_eq, List.find?_map]
    have hsame : ((fun b : String × Referent => b.2.isSame (r.renumber ρ)) ∘
        Prod.map (fun name => name) (Referent.renumber ρ)) = fun b => b.2.isSame r := by
      funext b
      exact Referent.isSame_renumber ρ b.2 r
    change Option.map Prod.fst (Option.map _ (List.find? ((fun b : String × Referent => b.2.isSame (r.renumber ρ)) ∘
        Prod.map (fun name => name) (Referent.renumber ρ)) s.scope)) = _
    rw [hsame, Option.map_map]
    rfl
  cases r with
  | plain => rfl
  | type t =>
    unfold Session.view
    rw [Referent.renumber_type] at hbinding ⊢
    simp only [hbinding, Ty.name_renumber]

lemma SessionEmbedding.composition_eq (h : SessionEmbedding c strict ρ ns s s') (t : Ty) :
    s'.composition (t.renumber ρ) = s.composition t := by
  have hview : ∀ u : Ty, s'.view (.type (u.renumber ρ)) = s.view (.type u) := fun u => h.view_eq (.type u)
  cases t with
  | compound label op ts =>
    have hviews : (ts.map (Ty.renumber ρ)).mapM (fun t => s'.view (.type t)) = ts.mapM fun t => s.view (.type t) := by
      rw [List.mapM_map]
      congr 1
      funext u
      exact hview u
    rw [Ty.renumber, Ty.renumberAll_eq, Session.composition, Session.composition, hviews]
  | without label left right => rw [Ty.renumber, Session.composition, Session.composition, hview, hview]
  | unary label outer extractor inner => rw [Ty.renumber, Session.composition, Session.composition, hview, hview]
  | _ => rfl

lemma SessionEmbedding.describe_eq (h : SessionEmbedding c strict ρ ns s s') (r : Referent) :
    s'.describe (r.renumber ρ) = s.describe r := by
  unfold Session.describe
  rw [Referent.expect_renumber]
  cases r with
  | plain => rfl
  | type t =>
    have hcomposition := h.composition_eq t
    simp only [Referent.expect, Except.map, bind, Except.bind, Ty.kind_renumber, Ty.names_renumber,
      Ty.docs_renumber, Ty.name_renumber, Ty.canonicalName_renumber, hcomposition]

lemma elementAt_map {α β : Type} (f : α → β) (xs : List α) (index : Int) :
    elementAt (xs.map f) index = (elementAt xs index).map f := by
  unfold elementAt
  rw [List.length_map]
  generalize (if index < 0 then index + (xs.length : Int) else index) = place
  dsimp only
  rw [List.getElem?_map]
  by_cases hword : (!fitsWord index) = true
  · rw [if_pos hword, if_pos hword]
    rfl
  · rw [if_neg hword, if_neg hword]
    by_cases hplace : place < 0
    · rw [if_pos hplace, if_pos hplace]
      rfl
    · rw [if_neg hplace, if_neg hplace]
      cases xs[place.toNat]? <;> rfl

lemma mem_of_elementAt {α : Type} {xs : List α} {index : Int} {a : α} (h : elementAt xs index = .ok a) : a ∈ xs := by
  unfold elementAt at h
  generalize (if index < 0 then index + (xs.length : Int) else index) = place at h
  dsimp only at h
  by_cases hword : (!fitsWord index) = true
  · rw [if_pos hword] at h
    cases h
  · by_cases hplace : place < 0
    · rw [if_neg hword, if_pos hplace] at h
      cases h
    · rw [if_neg hword, if_neg hplace] at h
      cases hget : xs[place.toNat]? with
      | none =>
        rw [hget] at h
        cases h
      | some b =>
        rw [hget] at h
        cases h
        exact List.mem_of_getElem? hget

lemma related_operands {r r' : Referent} (h : r.RenumbersTo ρ ns r') (hparts : ∀ t ∈ ns, t.parts ⊆ ns) :
    RelatedResults c (fun ts ts' => ts' = ts.map (Ty.renumber ρ) ∧ ts ⊆ ns) r.operands r'.operands := by
  obtain ⟨hr, rfl⟩ := h
  cases r with
  | plain => exact .error (c.refl _)
  | type t =>
    cases t with
    | compound label op ts =>
      refine .ok ⟨Ty.renumberAll_eq ρ ts, ?_⟩
      exact hparts _ hr
    | _ => exact .error (c.refl _)

end Names

section Constructions

lemma stepSimulates_ofBuild (h : SessionEmbedding c strict ρ ns s s') {α β : Type} {x : Build α} {y : Build β}
    {Q : List Ty → α → β → Prop} (hx : BuildSimulates c strict ρ ns s.lattice s'.lattice x y Q) :
    StepSimulates c strict ρ ns s s' (Stepping.ofBuild x) (Stepping.ofBuild y) Q := by
  obtain ⟨ns', hns, hlattice, hresults⟩ := hx
  refine ⟨ns', hns, ⟨hlattice, h.prelude, h.prelude_known.mono hns, h.bindings, ?_, h.reports, h.picks,
    h.nextHandle, h.console, h.calls⟩, hresults⟩
  exact fun b hb => (h.bindings_known b hb).mono hns

/-- Refinements with their names looked up. -/
lemma related_refinement (h : SessionEmbedding c strict ρ ns s s') (f : Refinement) :
    RelatedResults c (Refines c strict ρ ns) (f.resolve s) (f.resolve s') := by
  have hprelude : ∀ t ∈ s.prelude.types, (Referent.type t.2).RenumbersTo ρ ns (.type (t.2.renumber ρ)) :=
    fun t ht => ⟨h.prelude_known.2 t ht, rfl⟩
  cases f with
  | operator op left =>
    apply (related_resolve h left).bind
    intro r r' _ hr
    exact .ok fun ns' l l' t t' hns hlattice ht => buildSimulates_compound hlattice op (hr.mono hns) ht
  | without left =>
    apply (related_resolve h left).bind
    intro r r' _ hr
    exact .ok fun ns' l l' t t' hns hlattice ht => buildSimulates_without hlattice (hr.mono hns) ht
  | container outer extractor =>
    apply (related_resolve h outer).bind
    intro r r' _ hr
    exact .ok fun ns' l l' t t' hns hlattice ht => buildSimulates_container hlattice extractor (hr.mono hns) ht
  | suchThat pred => exact .ok fun ns' l l' t t' _ hlattice ht => buildSimulates_suchThat hlattice pred ht
  | withAlias name => exact .ok fun ns' l l' t t' _ hlattice ht => buildSimulates_withAlias hlattice name ht
  | withoutAlias => exact .ok fun ns' l l' t t' _ hlattice ht => buildSimulates_withoutAlias hlattice ht
  | withMetadata names? docs? =>
    exact .ok fun ns' l l' t t' _ hlattice ht => buildSimulates_withMetadata hlattice names? docs? ht
  | arrayOf =>
    refine .ok fun ns' l l' t t' hns hlattice ht => ?_
    rw [h.prelude]
    exact buildSimulates_container hlattice .elements
      ((hprelude ("Array", s.prelude.array) (by simp [Prelude.types])).mono hns) ht
  | mappingOf =>
    refine .ok fun ns' l l' t t' hns hlattice ht => ?_
    rw [h.prelude]
    exact buildSimulates_container hlattice .values
      ((hprelude ("Mapping", s.prelude.mapping) (by simp [Prelude.types])).mono hns) ht
  | optional =>
    refine .ok fun ns' l l' t t' hns hlattice ht => ?_
    rw [h.prelude]
    exact buildSimulates_compound hlattice .union
      ((hprelude ("Null", s.prelude.null) (by simp [Prelude.types])).mono hns) ht

/-- A new type, made on both sides. -/
lemma stepSimulates_type (h : SessionEmbedding c strict ρ ns s s') {x y : Build Ty}
    (hx : BuildSimulates c strict ρ ns s.lattice s'.lattice x y (Ty.RenumbersTo ρ)) :
    StepSimulates c strict ρ ns s s' (do return Referent.type (← Stepping.ofBuild x))
      (do return Referent.type (← Stepping.ofBuild y)) (Referent.RenumbersTo ρ) := by
  apply (stepSimulates_ofBuild h hx).bind
  intro t t' ns' s₁ s₁' _ _ h' ht
  exact .pure h' ht.type

/-- Constructions other than a step along an edge. -/
def Construction.isPlain : Construction → Bool
  | .edge .. => false
  | _ => true

theorem stepSimulates_construct (h : SessionEmbedding c strict ρ ns s s') {k : Construction} (hk : k.isPlain = true) :
    StepSimulates c strict ρ ns s s' (Stepping.construct k) (Stepping.construct k) (Referent.RenumbersTo ρ) := by
  cases k with
  | predicate pred name? => exact stepSimulates_type h (buildSimulates_predicate h.lattice pred name?)
  | bare => exact stepSimulates_type h (buildSimulates_bare h.lattice)
  | fetch of => exact stepSimulates_resolve h of
  | edge => cases hk
  | refine refinement operand =>
    apply Simulates.get
    apply Simulates.attempt_bind h (related_refinement h refinement)
    intro f f' _ hf
    apply (stepSimulates_resolve h operand).bind
    intro r r' ns₁ s₁ s₁' _ hns₁ h₁ hr
    exact stepSimulates_type h₁ (hf ns₁ _ _ r r' hns₁ h₁.lattice hr)
  | compose name base refinements =>
    apply (stepSimulates_resolve h base).bind
    intro r r' ns₁ s₁ s₁' _ hns₁ h₁ hr
    apply Simulates.get
    have hsteps : RelatedResults c (List.Forall₂ (Refines c strict ρ ns₁)) (refinements.mapM fun f => f.resolve s₁)
        (refinements.mapM fun f => f.resolve s₁') :=
      .mapM (List.forall₂_same.mpr fun f _ => related_refinement h₁ f)
    apply Simulates.attempt_bind h₁ hsteps
    intro fs fs' _ hfs
    exact stepSimulates_type h₁ (buildSimulates_compose h₁.lattice name hr hfs)
  | plain written =>
    apply Simulates.attempt_bind h RelatedResults.of_eq
    rintro v _ _ rfl
    apply Simulates.get
    rw [h.nextHandle]
    have hset : StepSimulates c strict ρ ns s s' (set { s with nextHandle := s.nextHandle + 1 } : Stepping PUnit)
        (set { s' with nextHandle := s.nextHandle + 1 } : Stepping PUnit) fun _ _ _ => True :=
      ⟨ns, List.Subset.refl ns, ⟨h.lattice, h.prelude, h.prelude_known, h.bindings, h.bindings_known, h.reports,
        h.picks, rfl, h.console, h.calls⟩, .ok trivial⟩
    apply hset.bind
    intro _ _ ns₁ s₁ s₁' _ _ h₁ _
    exact .pure h₁ ⟨trivial, rfl⟩
  | operand of index =>
    apply (stepSimulates_resolve h of).bind
    intro r r' ns₁ s₁ s₁' _ hns₁ h₁ hr
    apply Simulates.attempt_bind h₁ (related_operands hr h₁.lattice.enumeration.parts)
    rintro ts _ _ ⟨rfl, hts⟩
    have helement : RelatedResults c (Ty.RenumbersTo ρ ns₁) (elementAt ts index)
        (elementAt (ts.map (Ty.renumber ρ)) index) := by
      rw [elementAt_map]
      exact .of_map fun t ht => ⟨hts (mem_of_elementAt ht), rfl⟩
    apply Simulates.attempt_bind h₁ helement
    intro t t' _ ht
    exact .pure h₁ ht.type

lemma putNamed_map {α β : Type} (f : α → β) (name : String) (a : α) (xs : List (String × α)) :
    putNamed name (f a) (xs.map (Prod.map (fun name => name) f)) =
      (putNamed name a xs).map (Prod.map (fun name => name) f) := by
  induction xs with
  | nil => rfl
  | cons x xs ih =>
    obtain ⟨key, b⟩ := x
    by_cases hkey : key = name
    · simp [putNamed, hkey]
    · simpa [putNamed, hkey] using ih

lemma mem_putNamed {α : Type} {name : String} {a : α} {xs : List (String × α)} {x : String × α}
    (h : x ∈ putNamed name a xs) : x.2 = a ∨ x ∈ xs := by
  induction xs with
  | nil =>
    rw [putNamed, List.mem_singleton] at h
    exact .inl (by rw [h])
  | cons y xs ih =>
    obtain ⟨key, b⟩ := y
    rw [putNamed] at h
    split at h
    · rcases List.mem_cons.mp h with rfl | h
      · exact .inl rfl
      · exact .inr (List.mem_cons_of_mem _ h)
    · rcases List.mem_cons.mp h with rfl | h
      · exact .inr List.mem_cons_self
      · exact (ih h).imp_right (List.mem_cons_of_mem _)

/-- What is answered to a construction once its result is there. -/
lemma stepSimulates_bind {x y : Stepping Referent}
    (hx : StepSimulates c strict ρ ns s s' x y (Referent.RenumbersTo ρ)) (bind? : Option String) :
    StepSimulates c strict ρ ns s s'
      (do
        let r ← x
        if let some name := bind? then
          modify fun s => { s with bindings := putNamed name r s.bindings }
        match r with
        | .type t => return Answer.built t.kind? (t.label.names?.getD [])
        | .plain _ v => return Answer.plain v)
      (do
        let r ← y
        if let some name := bind? then
          modify fun s => { s with bindings := putNamed name r s.bindings }
        match r with
        | .type t => return Answer.built t.kind? (t.label.names?.getD [])
        | .plain _ v => return Answer.plain v) fun _ => Eq := by
  have hanswer : ∀ ns s s' (r : Referent), SessionEmbedding c strict ρ ns s s' → StepSimulates c strict ρ ns s s'
      (match r with
        | .type t => return Answer.built t.kind? (t.label.names?.getD [])
        | .plain _ v => return Answer.plain v)
      (match r.renumber ρ with
        | .type t => return Answer.built t.kind? (t.label.names?.getD [])
        | .plain _ v => return Answer.plain v) fun _ => Eq := by
    intro ns s s' r h
    cases r with
    | plain => exact .pure h rfl
    | type t =>
      refine .pure h ?_
      rw [Ty.kind?_renumber, Ty.label_renumber]
      rfl
  apply hx.bind
  rintro r _ ns₁ s₁ s₁' _ hns₁ h₁ ⟨hr, rfl⟩
  cases bind? with
  | none => exact hanswer ns₁ s₁ s₁' r h₁
  | some name =>
    have hbind : StepSimulates c strict ρ ns₁ s₁ s₁'
        (modify fun s => { s with bindings := putNamed name r s.bindings } : Stepping Unit)
        (modify fun s => { s with bindings := putNamed name (r.renumber ρ) s.bindings }) fun _ _ _ => True := by
      refine .modify ⟨h₁.lattice, h₁.prelude, h₁.prelude_known, ?_, ?_, h₁.reports, h₁.picks, h₁.nextHandle,
        h₁.console, h₁.calls⟩ trivial
      · rw [h₁.bindings, putNamed_map]
      · intro b hb
        rcases mem_putNamed hb with hb | hb
        · rw [hb]
          exact hr
        · exact h₁.bindings_known b hb
    apply hbind.bind
    intro _ _ ns₂ s₂ s₂' _ _ h₂ _
    exact hanswer ns₂ s₂ s₂' r h₂

end Constructions

section Questions

variable {I : Interpretation}

/-- Questions about what types are made of, none of which needs an edge. -/
def Question.isPlain : Question → Bool
  | .supersedes .. | .edges .. => false
  | _ => true

lemma stepSimulates_ask (h : SessionEmbedding c strict ρ ns s s') {q : Question} (hq : q.isPlain = true) :
    StepSimulates c strict ρ ns s s' (Stepping.ask I q) (Stepping.ask I q) fun _ => Eq := by
  cases q with
  | supersedes => cases hq
  | edges => cases hq
  | has of written =>
    apply (stepSimulates_resolve h of).bind
    intro r r' ns₁ s₁ s₁' _ _ h₁ hr
    apply Simulates.attempt_bind h₁ (related_expect hr .membership)
    rintro t _ _ ⟨_, rfl⟩
    apply Simulates.attempt_bind h₁ RelatedResults.of_eq
    rintro v _ _ rfl
    rw [Ty.has_renumber]
    have hcalls : StepSimulates c strict ρ ns₁ s₁ s₁'
        (modify fun s => { s with calls := s.calls ++ (t.has I v).calls } : Stepping Unit)
        (modify fun s => { s with calls := s.calls ++ (t.has I v).calls }) fun _ _ _ => True := by
      refine .modify ⟨h₁.lattice, h₁.prelude, h₁.prelude_known, h₁.bindings, h₁.bindings_known, h₁.reports,
        h₁.picks, h₁.nextHandle, h₁.console, ?_⟩ trivial
      rw [h₁.calls]
    apply hcalls.bind
    intro _ _ ns₂ s₂ s₂' _ _ h₂ _
    apply Simulates.attempt_bind h₂ RelatedResults.of_eq
    rintro found _ _ rfl
    exact .pure h₂ rfl
  | equals left right =>
    apply (stepSimulates_resolve h left).bind
    rintro l l' ns₁ s₁ s₁' _ _ h₁ hl
    apply Simulates.attempt_bind h₁ (related_expect hl .equality)
    intro _ _ _ _
    apply (stepSimulates_resolve h₁ right).bind
    rintro r _ ns₂ s₂ s₂' _ _ h₂ ⟨_, rfl⟩
    obtain ⟨_, rfl⟩ := hl
    rw [Referent.equals_renumber]
    apply Simulates.attempt_bind h₂ RelatedResults.of_eq
    rintro equal _ _ rfl
    exact .pure h₂ rfl
  | same left right =>
    apply (stepSimulates_resolve h left).bind
    rintro l _ ns₁ s₁ s₁' _ _ h₁ ⟨_, rfl⟩
    apply (stepSimulates_resolve h₁ right).bind
    rintro r _ ns₂ s₂ s₂' _ _ h₂ ⟨_, rfl⟩
    rw [Referent.isSame_renumber]
    exact .pure h₂ rfl
  | describe of =>
    apply (stepSimulates_resolve h of).bind
    rintro r _ ns₁ s₁ s₁' _ _ h₁ ⟨_, rfl⟩
    apply Simulates.get
    rw [h₁.describe_eq]
    apply Simulates.attempt_bind h₁ RelatedResults.of_eq
    rintro description _ _ rfl
    exact .pure h₁ rfl
  | outline of indent =>
    apply (stepSimulates_resolve h of).bind
    rintro r _ ns₁ s₁ s₁' _ _ h₁ ⟨_, rfl⟩
    rw [Referent.outline_renumber]
    apply Simulates.attempt_bind h₁ RelatedResults.of_eq
    rintro lines _ _ rfl
    exact .pure h₁ rfl

end Questions

section Steps

variable {I : Interpretation}

/-- Fetching an edge, with what it depends on. -/
lemma stepSimulates_edge (h : SessionEmbedding (.byMessage untouched) True ρ ns s s') (of : String) (d : Direction)
    (index : Int) :
    StepSimulates (.byMessage untouched) True ρ ns s s' (Stepping.construct (.edge of d index))
      (Stepping.construct (.edge of d index)) (Referent.RenumbersTo ρ) := by
  apply (stepSimulates_resolve h of).bind
  intro r r' ns₁ s₁ s₁' _ _ h₁ hr
  apply (stepSimulates_ofBuild h₁ (buildSimulates_referent_edges h₁.lattice hr d)).bind
  intro nodes nodes' ns₂ s₂ s₂' _ _ h₂ hnodes
  obtain ⟨hmap, hknown⟩ := eq_map_of_renumbersTo hnodes
  refine .attempt h₂ ?_
  rw [hmap, elementAt_map]
  exact .of_map fun node hnode => ⟨hknown node (mem_of_elementAt hnode), rfl⟩

lemma stepSimulates_questions (h : SessionEmbedding (.byMessage untouched) True ρ ns s s') (q : Question) :
    StepSimulates (.byMessage untouched) True ρ ns s s' (Stepping.ask I q) (Stepping.ask I q) fun _ => Eq := by
  by_cases hq : q.isPlain = true
  · exact stepSimulates_ask h hq
  cases q with
  | supersedes sup sub =>
    apply (stepSimulates_resolve h sup).bind
    intro above above' ns₁ s₁ s₁' _ _ h₁ habove
    apply (stepSimulates_resolve h₁ sub).bind
    intro below below' ns₂ s₂ s₂' _ hns₂ h₂ hbelow
    apply (stepSimulates_ofBuild h₂ (buildSimulates_supersedes h₂.lattice (habove.mono hns₂) hbelow)).bind
    rintro found _ ns₃ s₃ s₃' _ _ h₃ rfl
    exact .pure h₃ rfl
  | edges of d =>
    apply (stepSimulates_resolve h of).bind
    intro r r' ns₁ s₁ s₁' _ _ h₁ hr
    apply (stepSimulates_ofBuild h₁ (buildSimulates_referent_edges h₁.lattice hr d)).bind
    intro nodes nodes' ns₂ s₂ s₂' _ _ h₂ hnodes
    apply Simulates.get
    have hviews : nodes'.mapM s₂'.view = nodes.mapM s₂.view := by
      rw [(eq_map_of_renumbersTo hnodes).1, List.mapM_map]
      congr 1
      funext node
      exact h₂.view_eq node
    rw [hviews]
    apply Simulates.attempt_bind h₂ RelatedResults.of_eq
    rintro views _ _ rfl
    exact .pure h₂ rfl
  | has => exact absurd rfl hq
  | equals => exact absurd rfl hq
  | same => exact absurd rfl hq
  | describe => exact absurd rfl hq
  | outline => exact absurd rfl hq

/-- Work whose result is handled alike. -/
lemma stepSimulates_ofWork (h : SessionEmbedding (.byMessage untouched) True ρ ns s s') {report : Report}
    {α β γ δ : Type} {work : Work α} {work' : Work β} {Q : List Ty → α → β → Prop} {P : List Ty → γ → δ → Prop}
    (hwork : ∀ w w', WorkbenchEmbedding untouched ρ ns w w' → WorkSimulates untouched ρ ns w w' work work' Q)
    {f : Attempt α × Report → Stepping γ} {g : Attempt β × Report → Stepping δ}
    (hf : ∀ x y report ns' s₁ s₁', RelatedResults (.byMessage untouched) (Q ns') x y →
      SessionEmbedding (.byMessage untouched) True ρ ns' s₁ s₁' →
      StepSimulates (.byMessage untouched) True ρ ns' s₁ s₁' (f (x, report)) (g (y, report)) P) :
    StepSimulates (.byMessage untouched) True ρ ns s s' (Stepping.ofWork report work >>= f)
      (Stepping.ofWork report work' >>= g) P := by
  let w : Workbench := ⟨s.lattice, report, s.console, s.picks, s.calls⟩
  let w' : Workbench := ⟨s'.lattice, report, s'.console, s'.picks, s'.calls⟩
  have hw : WorkbenchEmbedding untouched ρ ns w w' := by
    refine ⟨s'.lattice, h.lattice, ?_⟩
    change (⟨s'.lattice, report, s'.console, s'.picks, s'.calls⟩ : Workbench) = _
    rw [h.console, h.picks trivial, h.calls]
  have hrun : Stepping.ofWork report work s = (.ok ((work w).1, (work w).2.report), { s with
      lattice := (work w).2.lattice, console := (work w).2.console, picks := (work w).2.picks,
      calls := (work w).2.calls }) := rfl
  have hrun' : Stepping.ofWork report work' s' = (.ok ((work' w').1, (work' w').2.report), { s' with
      lattice := (work' w').2.lattice, console := (work' w').2.console, picks := (work' w').2.picks,
      calls := (work' w').2.calls }) := rfl
  unfold StepSimulates Simulates
  rw [bind_of_ok hrun, bind_of_ok hrun']
  obtain ⟨ns', hns, ⟨l', hlattice, hsame⟩, hresults⟩ := hwork w w' hw
  rw [hsame]
  have h' : SessionEmbedding (.byMessage untouched) True ρ ns'
      { s with lattice := (work w).2.lattice, console := (work w).2.console, picks := (work w).2.picks,
               calls := (work w).2.calls }
      { s' with lattice := l', console := (work w).2.console, picks := (work w).2.picks,
                calls := (work w).2.calls } :=
    ⟨hlattice, h.prelude, h.prelude_known.mono hns, h.bindings, fun b hb => (h.bindings_known b hb).mono hns,
      h.reports, fun _ => rfl, h.nextHandle, rfl, rfl⟩
  obtain ⟨ns'', hns', h'', hresults'⟩ := hf _ _ (work w).2.report ns' _ _ hresults h'
  exact ⟨ns'', fun t ht => hns' (hns ht), h'', hresults'⟩

lemma stepSimulates_report (h : SessionEmbedding (.byMessage untouched) True ρ ns s s') (name : String) {α : Type}
    {f f' : Report → Stepping α}
    (hf : ∀ report, StepSimulates (.byMessage untouched) True ρ ns s s' (f report) (f' report) fun _ => Eq) :
    StepSimulates (.byMessage untouched) True ρ ns s s'
      (do
        let report ← Stepping.ofAttempt ((← get).resolveReport name)
        f report)
      (do
        let report ← Stepping.ofAttempt ((← get).resolveReport name)
        f' report) fun _ => Eq := by
  apply Simulates.get
  have hreport : s'.resolveReport name = s.resolveReport name := by
    unfold Session.resolveReport
    rw [h.reports trivial]
  rw [hreport]
  apply Simulates.attempt_bind h RelatedResults.of_eq
  rintro report _ _ rfl
  exact hf report

lemma stepSimulates_putReport (h : SessionEmbedding (.byMessage untouched) True ρ ns s s') (name : String)
    (report : Report) :
    StepSimulates (.byMessage untouched) True ρ ns s s'
      (modify fun s => { s with reports := putNamed name report s.reports } : Stepping Unit)
      (modify fun s => { s with reports := putNamed name report s.reports }) fun _ => Eq := by
  refine .modify ⟨h.lattice, h.prelude, h.prelude_known, h.bindings, h.bindings_known, fun _ => ?_, h.picks,
    h.nextHandle, h.console, h.calls⟩ rfl
  rw [h.reports trivial]

lemma stepSimulates_withReport (h : SessionEmbedding (.byMessage untouched) True ρ ns s s') (name : String)
    {work work' : Work Unit} (hwork : ∀ w w', WorkbenchEmbedding untouched ρ ns w w' →
      WorkSimulates untouched ρ ns w w' work work' fun _ => Eq) :
    StepSimulates (.byMessage untouched) True ρ ns s s' (Stepping.withReport name work) (Stepping.withReport name work')
      fun _ => Eq := by
  refine stepSimulates_report h name fun report => ?_
  refine stepSimulates_ofWork h hwork ?_
  intro x y report ns₁ s₁ s₁' hxy h₁
  apply (stepSimulates_putReport h₁ name report).bind
  rintro _ _ ns₂ s₂ s₂' _ _ h₂ rfl
  have hxy' : RelatedResults (.byMessage untouched) (fun _ _ => True) x y := hxy.mono fun _ _ _ _ => trivial
  apply Simulates.attempt_bind h₂ hxy'
  intro _ _ _ _
  exact .pure h₂ rfl

lemma stepSimulates_resolveAll (h : SessionEmbedding c strict ρ ns s s') (names : List String) :
    StepSimulates c strict ρ ns s s' (names.mapM Stepping.resolve) (names.mapM Stepping.resolve)
      fun ns => List.Forall₂ (Referent.RenumbersTo ρ ns) := by
  have hsame : List.Forall₂ Eq names names := List.forall₂_same.mpr fun _ _ => rfl
  refine Simulates.mapM (P := fun _ => Eq) (fun _ _ _ _ _ hab => hab) (fun _ _ _ _ hns hr => hr.mono hns) ?_ h hsame
  rintro name _ ns s s' h rfl
  exact stepSimulates_resolve h name

lemma stepSimulates_word (h : SessionEmbedding (.byMessage untouched) True ρ ns s s') (g : Grievance) :
    StepSimulates (.byMessage untouched) True ρ ns s s' (Stepping.word g) (Stepping.word g) fun _ => Eq := by
  cases g with
  | complaint => exact .pure h rfl
  | noSuchType => exact .pure h rfl
  | badMember => exact .pure h rfl
  | notAType text found =>
    apply Simulates.attempt_bind h RelatedResults.of_eq
    rintro v _ _ rfl
    exact .pure h rfl
  | cyclicLattice edge cycle =>
    apply (stepSimulates_resolveAll h cycle).bind
    intro nodes nodes' ns₁ s₁ s₁' _ _ h₁ hnodes
    refine .attempt h₁ ?_
    rw [(eq_map_of_renumbersTo hnodes).1, cyclicLattice_renumber]
    exact .of_eq

lemma stepSimulates_setEdges (htouched : ¬untouched) (h : SessionEmbedding (.byMessage untouched) True ρ ns s s')
    (of : String) (d : Direction) (targets : List String) :
    StepSimulates (.byMessage untouched) True ρ ns s s' (Stepping.perform I (.setEdges of d targets))
      (Stepping.perform I (.setEdges of d targets)) fun _ => Eq := by
  apply (stepSimulates_resolve h of).bind
  intro r r' ns₁ s₁ s₁' _ _ h₁ hr
  apply (stepSimulates_resolveAll h₁ targets).bind
  intro nodes nodes' ns₂ s₂ s₂' _ hns₂ h₂ hnodes
  apply Simulates.attempt_bind h₂ (related_expect (hr.mono hns₂) d.feature)
  rintro t _ _ ⟨ht, rfl⟩
  obtain ⟨rfl, hknown⟩ := eq_map_of_renumbersTo hnodes
  have hstore : StepSimulates (.byMessage untouched) True ρ ns₂ s₂ s₂'
      (modify fun s => { s with lattice := s.lattice.store d t.id nodes } : Stepping Unit)
      (modify fun s => { s with lattice := s.lattice.store d (t.renumber ρ).id (nodes.map (Referent.renumber ρ)) })
      fun _ => Eq := by
    refine .modify ⟨?_, h₂.prelude, h₂.prelude_known, h₂.bindings, h₂.bindings_known, h₂.reports, h₂.picks,
      h₂.nextHandle, h₂.console, h₂.calls⟩ rfl
    rw [Ty.id_renumber]
    exact h₂.lattice.store ht hknown fun hun => absurd hun htouched
  apply hstore.bind
  rintro _ _ ns₃ s₃ s₃' _ _ h₃ rfl
  exact .pure h₃ rfl

lemma SessionEmbedding.module_eq (h : SessionEmbedding c strict ρ ns s s') :
    Stepping.sessionModule s' = (Stepping.sessionModule s).renumber ρ := by
  have hlookup : ∀ name, s'.bindings.lookup name = (s.bindings.lookup name).map (Referent.renumber ρ) := by
    intro name
    rw [h.bindings, lookup_map_snd]
  have hkind : Stepping.sessionKind s' = Stepping.sessionKind s := by
    unfold Stepping.sessionKind
    rw [hlookup]
    rcases s.bindings.lookup "__path__" with _ | t | _
    · rfl
    · exact congrArg CommandLine.ModuleKind.brokenPackage (Referent.className_renumber ρ (.type t))
    · rfl
  have htitle : Stepping.sessionTitle? s' = Stepping.sessionTitle? s := by
    unfold Stepping.sessionTitle?
    rw [hlookup]
    rcases s.bindings.lookup "__name__" with _ | _ | ⟨_, _ | _⟩ <;> rfl
  have hfallback : (s'.bindings.lookup "__getattr__").map Referent.className =
      (s.bindings.lookup "__getattr__").map Referent.className := by
    rw [hlookup, Option.map_map]
    congr 1
    funext r
    exact Referent.className_renumber ρ r
  have hattributes : (Stepping.sessionModule s').attributes =
      CommandLine.renumberAttributes ρ (Stepping.sessionModule s).attributes := by
    unfold Stepping.sessionModule CommandLine.renumberAttributes
    rw [h.bindings, List.map_append, List.map_append, List.map_map, List.map_map]
    refine congrArg₂ (· ++ ·) (congrArg₂ (· ++ ·) (List.map_congr_left ?_) rfl) rfl
    rintro ⟨name, _ | _⟩ _ <;> rfl
  have hmodule : ∀ s, Stepping.sessionModule s = ⟨"session", Stepping.sessionKind s,
      (Stepping.sessionModule s).attributes, Stepping.sessionTitle? s,
      (s.bindings.lookup "__getattr__").map Referent.className⟩ := fun _ => rfl
  rw [hmodule s', hkind, htitle, hfallback, hattributes]
  rfl

lemma SessionEmbedding.module_known (h : SessionEmbedding c strict ρ ns s s') :
    CommandLine.AllKnown ns (Stepping.sessionModule s).attributes := by
  unfold Stepping.sessionModule
  simp only [CommandLine.allKnown_append, CommandLine.allKnown_map, CommandLine.Catalog.things_known, and_true]
  rintro ⟨name, r⟩ hb
  have hknown := h.bindings_known _ hb
  cases r with
  | type t => exact hknown
  | plain => trivial

lemma stepSimulates_commandLine (h : SessionEmbedding (.byMessage untouched) True ρ ns s s') (arguments : List String) :
    StepSimulates (.byMessage untouched) True ρ ns s s' (Stepping.commandLine I arguments)
      (Stepping.commandLine I arguments)
      fun _ => Eq := by
  let env : CommandLine.Environment :=
    ⟨I, s.prelude, Stepping.sessionModule s :: CommandLine.Catalog.library s.prelude⟩
  have henv : (⟨I, s'.prelude, Stepping.sessionModule s' :: CommandLine.Catalog.library s'.prelude⟩ :
      CommandLine.Environment) = env.renumber ρ := by
    rw [h.module_eq, h.prelude, CommandLine.Catalog.library_renumber]
    rfl
  have hknown : env.Known ns := by
    refine ⟨h.prelude_known, fun m hm => ?_⟩
    rcases List.mem_cons.mp hm with rfl | hm
    · exact h.module_known
    · exact CommandLine.Catalog.library_known h.prelude_known m hm
  apply Simulates.get
  rw [henv]
  refine stepSimulates_ofWork h (fun w w' hw => CommandLine.workSimulates_execute hw hknown arguments) ?_
  intro x y report ns₁ s₁ s₁' hxy h₁
  apply Simulates.attempt_bind h₁ hxy
  rintro status _ _ rfl
  exact .pure h₁ rfl

/-- Every step, except that edges are only overwritten if that is granted. -/
theorem stepSimulates_perform (h : SessionEmbedding (.byMessage untouched) True ρ ns s s') {st : Step}
    (hst : untouched → ∀ of d targets, st ≠ .setEdges of d targets) :
    StepSimulates (.byMessage untouched) True ρ ns s s' (Stepping.perform I st) (Stepping.perform I st)
      fun _ => Eq := by
  cases st with
  | construct bind? k =>
    have hk : StepSimulates (.byMessage untouched) True ρ ns s s' (Stepping.construct k) (Stepping.construct k)
        (Referent.RenumbersTo ρ) := by
      by_cases hplain : k.isPlain = true
      · exact stepSimulates_construct h hplain
      · cases k with
        | edge of d index => exact stepSimulates_edge h of d index
        | _ => exact absurd rfl hplain
    exact stepSimulates_bind hk bind?
  | ask q => exact stepSimulates_questions h q
  | setEdges of d targets => exact stepSimulates_setEdges (fun hun => hst hun of d targets rfl) h of d targets
  | setPicks picks =>
    have hset : StepSimulates (.byMessage untouched) True ρ ns s s' (modify fun s => { s with picks } : Stepping Unit)
        (modify fun s => { s with picks }) fun _ _ _ => True :=
      .modify ⟨h.lattice, h.prelude, h.prelude_known, h.bindings, h.bindings_known, h.reports, fun _ => rfl,
        h.nextHandle, h.console, h.calls⟩ trivial
    apply hset.bind
    intro _ _ ns₁ s₁ s₁' _ _ h₁ _
    exact .pure h₁ rfl
  | newReport name verbose cap? =>
    apply (stepSimulates_putReport h name _).bind
    intro _ _ ns₁ s₁ s₁' _ _ h₁ _
    exact .pure h₁ rfl
  | raise report g =>
    refine stepSimulates_report h report fun _ => ?_
    apply (stepSimulates_word h g).bind
    rintro complaint _ ns₁ s₁ s₁' _ _ h₁ rfl
    exact stepSimulates_withReport h₁ report fun w w' hw => (IgnoresLattice.complain complaint).workSimulates hw
  | inform report words =>
    exact stepSimulates_withReport h report fun w w' hw => (IgnoresLattice.inform _).workSimulates hw
  | stateOf report => exact stepSimulates_report h report fun _ => .pure h rfl
  | complain report =>
    exact stepSimulates_withReport h report fun w w' hw => IgnoresLattice.complainToConsole.workSimulates hw
  | assertNoIssues report message =>
    exact stepSimulates_withReport h report fun w w' hw => (IgnoresLattice.assertNoIssues message).workSimulates hw
  | check of report =>
    apply (stepSimulates_resolve h of).bind
    intro r r' ns₁ s₁ s₁' _ _ h₁ hr
    exact stepSimulates_withReport h₁ report fun w w' hw => workSimulates_checkLattice hw hr
  | commandLine arguments => exact stepSimulates_commandLine h arguments

end Steps

end StructuralTypes
