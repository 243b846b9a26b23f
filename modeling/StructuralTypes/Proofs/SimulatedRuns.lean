import StructuralTypes.Proofs.Additions
import StructuralTypes.Proofs.SimulatedSessions

/-!
# Runs of embedded sessions

What was shown for single steps extends to whole runs. A session embeds into itself as long as all its types
are nodes of its lattice, which holds at the start and after each step. Where the lattice on one side goes on
alone and gets more nodes, the renumbering is continued from the numbers that it hands out next.
-/

namespace StructuralTypes

section Numbers

/-- As before below `n`, and counting up from `m` from there on. -/
def continued (f : Nat → Nat) (n m i : Nat) : Nat := if i < n then f i else m + (i - n)

lemma continued_of_lt (f : Nat → Nat) {n i : Nat} (m : Nat) (h : i < n) : continued f n m i = f i := if_pos h

lemma continued_add (f : Nat → Nat) (n m i : Nat) : continued f n m (n + i) = m + i := by
  unfold continued
  rw [if_neg (by omega)]
  omega

lemma strictMono_continued {f : Nat → Nat} {n m : Nat} (hf : StrictMono f) (h : f n ≤ m) :
    StrictMono (continued f n m) := by
  intro i j hij
  unfold continued
  by_cases hj : j < n
  · rw [if_pos hj, if_pos (hij.trans hj)]
    exact hf hij
  · rw [if_neg hj]
    by_cases hi : i < n
    · rw [if_pos hi]
      have hin := hf hi
      omega
    · rw [if_neg hi]
      omega

/-- Goes on with other numbers for the nodes and serial numbers to come. -/
def Renumbering.resume (ρ : Renumbering) {n m k j : Nat} (hid : ρ.id n ≤ m) (hserial : ρ.serial k ≤ j) :
    Renumbering where
  id := continued ρ.id n m
  serial := continued ρ.serial k j
  id_strictMono := strictMono_continued ρ.id_strictMono hid
  serial_strictMono := strictMono_continued ρ.serial_strictMono hserial

lemma Label.renumber_congr {ρ ρ' : Renumbering} {l : Label} (hid : ρ'.id l.id = ρ.id l.id)
    (hserial : ρ'.serial l.serial = ρ.serial l.serial) : l.renumber ρ' = l.renumber ρ := by
  unfold Label.renumber
  rw [hid, hserial]

/-- Only the numbers that were handed out count. -/
lemma NodeEnumeration.renumber_congr {untouched : Prop} {l : Lattice} {ns : List Ty}
    (h : NodeEnumeration untouched l ns) {ρ ρ' : Renumbering} (hid : ∀ i < l.entries.size, ρ'.id i = ρ.id i)
    (hserial : ∀ n < l.nextSerial, ρ'.serial n = ρ.serial n) {t : Ty} (ht : t ∈ ns) :
    t.renumber ρ' = t.renumber ρ := by
  have hlabel : ∀ t ∈ ns, t.label.renumber ρ' = t.label.renumber ρ := fun t ht =>
    Label.renumber_congr (hid _ (h.id_lt ht)) (hserial _ (h.serial_lt t ht))
  induction t with
  | bare label => exact congrArg Ty.bare (hlabel _ ht)
  | any label => exact congrArg Ty.any (hlabel _ ht)
  | predicate label pred => exact congrArg (Ty.predicate · pred) (hlabel _ ht)
  | compound label op ts ih =>
    have hts : ts.map (Ty.renumber ρ') = ts.map (Ty.renumber ρ) := by
      apply List.map_congr_left
      intro t htt
      exact ih t htt (h.parts _ ht htt)
    rw [Ty.renumber, Ty.renumber, Ty.renumberAll_eq, Ty.renumberAll_eq, hts]
    exact congrArg (Ty.compound · op _) (hlabel _ ht)
  | without label left right ihl ihr =>
    have hparts : [left, right] ⊆ ns := h.parts _ ht
    rw [Ty.renumber, Ty.renumber, ihl (hparts (by simp)), ihr (hparts (by simp))]
    exact congrArg (Ty.without · _ _) (hlabel _ ht)
  | unary label outer extractor inner iho ihi =>
    have hparts : [outer, inner] ⊆ ns := h.parts _ ht
    rw [Ty.renumber, Ty.renumber, iho (hparts (by simp)), ihi (hparts (by simp))]
    exact congrArg (Ty.unary · _ extractor _) (hlabel _ ht)

lemma NodeEnumeration.known_renumber_congr {untouched : Prop} {l : Lattice} {ns : List Ty}
    (h : NodeEnumeration untouched l ns) {ρ ρ' : Renumbering} (hid : ∀ i < l.entries.size, ρ'.id i = ρ.id i)
    (hserial : ∀ n < l.nextSerial, ρ'.serial n = ρ.serial n) {r : Referent} (hr : r.Known ns) :
    r.renumber ρ' = r.renumber ρ := by
  cases r with
  | plain => rfl
  | type t => exact congrArg Referent.type (h.renumber_congr hid hserial hr)

end Numbers

section Lattices

variable {c : Comparison} {strict : Prop} {ρ : Renumbering} {ns : List Ty} {l l' l'' : Lattice}

lemma NodeEnumeration.embedding_self (h : NodeEnumeration c.untouched l ns) :
    LatticeEmbedding c strict .refl ns l l := by
  have hsame : Referent.renumber .refl = fun r => r := funext Referent.renumber_refl
  refine ⟨h, fun _ => rfl, fun _ => rfl, fun t _ d rs hrs => ?_, fun t _ _ d hnone => hnone⟩
  rw [hsame, List.map_id']
  exact hrs

/-- One lattice goes on and keeps the edges that were stored; the renumbering is continued from there. -/
lemma LatticeEmbedding.resume (h : LatticeEmbedding c strict ρ ns l l') (hsize : ρ.id l.entries.size ≤ l''.entries.size)
    (hserial : ρ.serial l.nextSerial ≤ l''.nextSerial)
    (hkept : ∀ t ∈ ns, ∀ d rs, l'.stored? d (ρ.id t.id) = some rs → l''.stored? d (ρ.id t.id) = some rs)
    (hmissing : ∀ t ∈ ns, (t.isContainer = true → strict) → ∀ d, l'.stored? d (ρ.id t.id) = none →
      l''.stored? d (ρ.id t.id) = none) : LatticeEmbedding c strict (ρ.resume hsize hserial) ns l l'' := by
  have hid : ∀ i < l.entries.size, (ρ.resume hsize hserial).id i = ρ.id i :=
    fun i hi => continued_of_lt ρ.id _ hi
  have hserials : ∀ n < l.nextSerial, (ρ.resume hsize hserial).serial n = ρ.serial n :=
    fun n hn => continued_of_lt ρ.serial _ hn
  refine ⟨h.enumeration, continued_add ρ.id _ _, continued_add ρ.serial _ _, ?_, ?_⟩
  · intro t ht d rs hrs
    rw [hid _ (h.enumeration.id_lt ht), hkept t ht d _ (h.stored t ht d rs hrs)]
    congr 1
    apply List.map_congr_left
    intro r hr
    exact (h.enumeration.known_renumber_congr hid hserials (h.enumeration.known t ht d rs hrs r hr)).symm
  · intro t ht hstrict d hnone
    rw [hid _ (h.enumeration.id_lt ht)]
    exact hmissing t ht hstrict d (h.unstored t ht hstrict d hnone)

end Lattices

section Sessions

variable {c : Comparison} {strict untouched : Prop} {ρ : Renumbering} {ns : List Ty} {s s' : Session}

/-- The types of a session are nodes of its lattice. -/
structure Session.Known (untouched : Prop) (ns : List Ty) (s : Session) : Prop where
  enumeration : NodeEnumeration untouched s.lattice ns
  prelude : s.prelude.Known ns
  bindings : ∀ b ∈ s.bindings, b.2.Known ns

lemma SessionEmbedding.known (h : SessionEmbedding c strict ρ ns s s') : s.Known c.untouched ns :=
  ⟨h.lattice.enumeration, h.prelude_known, h.bindings_known⟩

lemma Prelude.renumber_congr {ρ ρ' : Renumbering} {p : Prelude} (hp : p.Known ns)
    (h : ∀ t ∈ ns, t.renumber ρ' = t.renumber ρ) : p.renumber ρ' = p.renumber ρ := by
  obtain ⟨hany, htypes⟩ := hp
  simp only [Prelude.types, List.forall_mem_cons] at htypes
  obtain ⟨hnull, hboolean, hnumber, hstring, harray, hmapping, hinteger, hscalar, -⟩ := htypes
  unfold Prelude.renumber
  rw [h _ hany, h _ hnull, h _ hboolean, h _ hnumber, h _ hstring, h _ harray, h _ hmapping, h _ hinteger,
    h _ hscalar]

lemma Prelude.renumber_refl (p : Prelude) : p.renumber .refl = p := by
  simp only [Prelude.renumber, Ty.renumber_refl]

lemma Session.Known.embedding_self (h : s.Known c.untouched ns) : SessionEmbedding c strict .refl ns s s := by
  refine ⟨h.enumeration.embedding_self, s.prelude.renumber_refl.symm, h.prelude, ?_, h.bindings,
    fun _ => rfl, fun _ => rfl,
    rfl, rfl, rfl⟩
  have hsame : Prod.map (fun name : String => name) (Referent.renumber .refl) = fun b => b := by
    funext b
    exact Prod.ext rfl b.2.renumber_refl
  rw [hsame, List.map_id']

/-- The session that another one embeds into may go on with a lattice that has more nodes. -/
lemma SessionEmbedding.resume (h : SessionEmbedding c strict ρ ns s s') {l'' : Lattice}
    (hsize : ρ.id s.lattice.entries.size ≤ l''.entries.size) (hserial : ρ.serial s.lattice.nextSerial ≤ l''.nextSerial)
    (hlattice : LatticeEmbedding c strict (ρ.resume hsize hserial) ns s.lattice l'') :
    SessionEmbedding c strict (ρ.resume hsize hserial) ns s { s' with lattice := l'' } := by
  have hid : ∀ i < s.lattice.entries.size, (ρ.resume hsize hserial).id i = ρ.id i :=
    fun i hi => continued_of_lt ρ.id _ hi
  have hserials : ∀ n < s.lattice.nextSerial, (ρ.resume hsize hserial).serial n = ρ.serial n :=
    fun n hn => continued_of_lt ρ.serial _ hn
  have henum := h.lattice.enumeration
  refine ⟨hlattice, ?_, h.prelude_known, ?_, h.bindings_known, h.reports, h.picks, h.nextHandle, h.console, h.calls⟩
  · rw [Prelude.renumber_congr h.prelude_known fun t ht => henum.renumber_congr hid hserials ht]
    exact h.prelude
  · change s'.bindings = _
    rw [h.bindings]
    apply List.map_congr_left
    intro b hb
    exact Prod.ext rfl (henum.known_renumber_congr hid hserials (h.bindings_known b hb)).symm

/-- The session as the next step finds it: nothing printed, nothing called. -/
def Session.fresh (s : Session) : Session := { s with console := ⟨"", ""⟩, calls := [] }

lemma SessionEmbedding.fresh (h : SessionEmbedding c strict ρ ns s s') :
    SessionEmbedding c strict ρ ns s.fresh s'.fresh :=
  ⟨h.lattice, h.prelude, h.prelude_known, h.bindings, h.bindings_known, h.reports, h.picks, h.nextHandle, rfl, rfl⟩

lemma Session.Known.fresh (h : s.Known untouched ns) : s.fresh.Known untouched ns :=
  ⟨h.enumeration, h.prelude, h.bindings⟩

end Sessions

section Start

variable {c : Comparison} {strict : Prop} {ρ : Renumbering} {ns : List Ty} {l l' : Lattice}

lemma buildSimulates_prelude (h : LatticeEmbedding c strict ρ ns l l') :
    BuildSimulates c strict ρ ns l l' Prelude.build Prelude.build fun ns p _ => p.Known ns := by
  apply (buildSimulates_any h).bind
  intro any any' ns₁ l₁ l₁' _ _ h₁ hany
  apply (buildSimulates_predicate h₁ .isNull _).bind
  intro null null' ns₂ l₂ l₂' _ hns₂ h₂ hnull
  apply (buildSimulates_predicate h₂ .isBoolean _).bind
  intro boolean boolean' ns₃ l₃ l₃' _ hns₃ h₃ hboolean
  apply (buildSimulates_predicate h₃ .isNumber _).bind
  intro number number' ns₄ l₄ l₄' _ hns₄ h₄ hnumber
  apply (buildSimulates_predicate h₄ .isString _).bind
  intro string string' ns₅ l₅ l₅' _ hns₅ h₅ hstring
  apply (buildSimulates_predicate h₅ .isArray _).bind
  intro array array' ns₆ l₆ l₆' _ hns₆ h₆ harray
  apply (buildSimulates_predicate h₆ .isMapping _).bind
  intro mapping mapping' ns₇ l₇ l₇' _ hns₇ h₇ hmapping
  have hns₄₇ : ns₄ ⊆ ns₇ := fun t ht => hns₇ (hns₆ (hns₅ ht))
  apply (buildSimulates_suchThat h₇ .isIntegral (hnumber.mono hns₄₇).type).bind
  intro whole whole' ns₈ l₈ l₈' _ hns₈ h₈ hwhole
  apply (buildSimulates_withAlias h₈ "Integer" hwhole.type).bind
  intro integer integer' ns₉ l₉ l₉' _ hns₉ h₉ hinteger
  have hns₃₉ : ns₃ ⊆ ns₉ := fun t ht => hns₉ (hns₈ (hns₄₇ (hns₄ ht)))
  apply (buildSimulates_compound h₉ .union ((hnull.mono hns₃).mono hns₃₉).type (hboolean.mono hns₃₉).type).bind
  intro small small' ms₁ m₁ m₁' _ hms₁ k₁ hsmall
  have hns₅₁ : ns₅ ⊆ ms₁ := fun t ht => hms₁ (hns₉ (hns₈ (hns₇ (hns₆ ht))))
  apply (buildSimulates_compound k₁ .union ((hnumber.mono hns₅).mono hns₅₁).type (hstring.mono hns₅₁).type).bind
  intro large large' ms₂ m₂ m₂' _ hms₂ k₂ hlarge
  apply (buildSimulates_compound k₂ .union (hsmall.mono hms₂).type hlarge.type).bind
  intro all all' ms₃ m₃ m₃' _ hms₃ k₃ hall
  apply (buildSimulates_withAlias k₃ "Scalar" hall.type).bind
  intro scalar scalar' ms₄ m₄ m₄' _ hms₄ k₄ hscalar
  have hrest : ns₉ ⊆ ms₄ := fun t ht => hms₄ (hms₃ (hms₂ (hms₁ ht)))
  have hmapping' : ns₇ ⊆ ms₄ := fun t ht => hrest (hns₉ (hns₈ ht))
  have harray' : ns₆ ⊆ ms₄ := List.Subset.trans hns₇ hmapping'
  have hstring' : ns₅ ⊆ ms₄ := List.Subset.trans hns₆ harray'
  have hnumber' : ns₄ ⊆ ms₄ := List.Subset.trans hns₅ hstring'
  have hboolean' : ns₃ ⊆ ms₄ := List.Subset.trans hns₄ hnumber'
  have hnull' : ns₂ ⊆ ms₄ := List.Subset.trans hns₃ hboolean'
  refine .pure k₄ ⟨hnull' (hns₂ hany.1), ?_⟩
  simp only [Prelude.types, List.forall_mem_cons]
  exact ⟨hnull' hnull.1, hboolean' hboolean.1, hnumber' hnumber.1, hstring' hstring.1, harray' harray.1,
    hmapping' hmapping.1, hrest hinteger.1, hscalar.1, List.forall_mem_nil _⟩

/-- The prelude can be built, and it is what a session starts with. -/
lemma Session.initial_eq : ∃ p l, Prelude.build .empty = (.ok p, l) ∧
    Session.initial = ⟨p, l, [], [], [], 0, ⟨"", ""⟩, []⟩ := by
  obtain ⟨p, l, hbuilt⟩ : ∃ p l, Prelude.build .empty = (.ok p, l) := ⟨_, _, rfl⟩
  refine ⟨p, l, hbuilt, ?_⟩
  unfold Session.initial Prelude.initial
  rw [hbuilt]

lemma Session.initial_known (untouched : Prop) : ∃ ns, Session.initial.Known untouched ns := by
  obtain ⟨p, l, hbuilt, hinitial⟩ := Session.initial_eq
  have hempty : LatticeEmbedding (.byMessage untouched) True .refl [] .empty .empty :=
    NodeEnumeration.embedding_self (.empty untouched)
  obtain ⟨ns, _, hlattice, hresults⟩ := buildSimulates_prelude hempty
  rw [hbuilt] at hlattice hresults
  cases hresults with
  | ok hknown =>
    rw [hinitial]
    exact ⟨ns, hlattice.enumeration, hknown, List.forall_mem_nil _⟩

end Start

/-- Answers that are the same, or faults of one kind with the same message. -/
inductive Attempt.Alike {α : Type} : Attempt α → Attempt α → Prop
  | ok (a : α) : Attempt.Alike (.ok a) (.ok a)
  | error {fault fault' : Fault} : fault.Alike fault' → fault'.message = fault.message →
      Attempt.Alike (.error fault) (.error fault')

/-- Outcomes that cannot be distinguished by what they say. -/
structure Outcome.Alike (o o' : Outcome) : Prop where
  result : Attempt.Alike o.result o'.result
  console : o'.console = o.console
  calls : o'.calls = o.calls

lemma Outcome.Alike.refl (o : Outcome) : o.Alike o := by
  refine ⟨?_, rfl, rfl⟩
  cases o.result with
  | ok a => exact .ok a
  | error fault => exact .error (.refl fault) rfl

section Runs

variable {I : Interpretation} {untouched : Prop} {ρ : Renumbering} {ns : List Ty} {s s' : Session}

def Step.overwrites : Step → Bool
  | .setEdges .. => true
  | _ => false

/-- A step of two sessions, the first of them embedded into the second: the outcomes are alike, and the session
after the one step embeds into the session after the other. -/
lemma SessionEmbedding.step (h : SessionEmbedding (.byMessage untouched) True ρ ns s.fresh s'.fresh) {st : Step}
    (hst : untouched → st.overwrites = false) :
    (s.step I st).1.Alike (s'.step I st).1 ∧
      ∃ ns', SessionEmbedding (.byMessage untouched) True ρ ns' (s.step I st).2 (s'.step I st).2 := by
  have hkept : untouched → ∀ of d targets, st ≠ .setEdges of d targets := by
    rintro hun of d targets rfl
    cases hst hun
  obtain ⟨ns', _, h', hresults⟩ := stepSimulates_perform (I := I) h hkept
  refine ⟨⟨?_, h'.console, h'.calls⟩, ns', h'⟩
  change Attempt.Alike (Stepping.perform I st s.fresh).1 (Stepping.perform I st s'.fresh).1
  generalize (Stepping.perform I st s.fresh).1 = x at hresults ⊢
  generalize (Stepping.perform I st s'.fresh).1 = y at hresults ⊢
  cases hresults with
  | ok heq =>
    subst heq
    exact .ok _
  | error halike => exact .error halike halike.message_eq

/-- Runs of two sessions, the first of them embedded into the second. -/
theorem SessionEmbedding.run (h : SessionEmbedding (.byMessage untouched) True ρ ns s.fresh s'.fresh)
    {steps : List Step} (hsteps : untouched → ∀ st ∈ steps, st.overwrites = false) :
    List.Forall₂ Outcome.Alike (s.run I steps) (s'.run I steps) := by
  induction steps generalizing ns s s' with
  | nil => exact .nil
  | cons st steps ih =>
    obtain ⟨halike, ns', h'⟩ := h.step (I := I) (fun hun => hsteps hun st List.mem_cons_self)
    exact .cons halike (ih h'.fresh fun hun st' hst' => hsteps hun st' (List.mem_cons_of_mem st hst'))

lemma Session.Known.step (h : s.Known untouched ns) {st : Step} (hst : untouched → st.overwrites = false) :
    ∃ ns', (s.step I st).2.Known untouched ns' := by
  have hself : SessionEmbedding (.byMessage untouched) True .refl ns s.fresh s.fresh :=
    Session.Known.embedding_self h.fresh
  obtain ⟨-, ns', h'⟩ := hself.step (I := I) hst
  exact ⟨ns', h'.known⟩

end Runs

end StructuralTypes
