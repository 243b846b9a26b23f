import StructuralTypes.Proofs.Search
import StructuralTypes.Proofs.SimulatedQuestions
import StructuralTypes.Proofs.Verdicts

/-!
# Searches on demand

As long as no edge is overwritten, a search answers with the predicted verdict. It remembers pairs that it has
decided, and these are decided right. It never meets a pair that is still being decided, since pairs get
smaller along edges.
-/

namespace StructuralTypes

/-- A search that hands on the pairs being decided as it found them. -/
def PreservesPending {α : Type} (x : Searching α) : Prop := ∀ s a, (x s).1 = .ok a → (x s).2.pending = s.pending

namespace PreservesPending

variable {α β : Type}

lemma attempt (a : Attempt α) : PreservesPending (Searching.ofAttempt a) := fun _ _ _ => rfl

lemma pure (a : α) : PreservesPending (Pure.pure a) := fun _ _ _ => rfl

lemma ofBuild (x : Build α) : PreservesPending (Searching.ofBuild x) := fun _ _ _ => rfl

lemma of_run {x : Searching α} (hx : PreservesPending x) {s s₁ : Search} {a : α} (hrun : x s = (.ok a, s₁)) :
    s₁.pending = s.pending := by
  have hkept := hx s a (congrArg Prod.fst hrun)
  rw [hrun] at hkept
  exact hkept

lemma bind {x : Searching α} {f : α → Searching β} (hx : PreservesPending x) (hf : ∀ a, PreservesPending (f a)) :
    PreservesPending (x >>= f) := by
  intro s b hb
  obtain ⟨a, s₁, hrun, hb⟩ := ok_of_bind hb
  rw [bind_of_ok hrun, hf a s₁ b hb, hx.of_run hrun]

lemma anyM {f : α → Searching Bool} (hf : ∀ a, PreservesPending (f a)) (as : List α) :
    PreservesPending (as.anyM f) := by
  induction as with
  | nil => exact pure false
  | cons a as ih =>
    apply (hf a).bind
    intro found
    cases found with
    | true => exact pure true
    | false => exact ih

lemma settle {search : Referent → Referent → Searching Bool} (hsearch : ∀ a b, PreservesPending (search a b))
    (sup sub : Referent) : PreservesPending (Searching.settle search sup sub) := by
  apply (attempt _).bind
  intro same
  cases same with
  | true => exact pure true
  | false =>
    apply (ofBuild _).bind
    intro below
    apply (anyM (fun r => hsearch r sub) below).bind
    intro found
    cases found with
    | true => exact pure true
    | false =>
      apply (ofBuild _).bind
      intro above
      exact anyM (fun r => hsearch sup r) above

lemma supersedes (depth : Nat) (sup sub : Referent) : PreservesPending (Searching.supersedes depth sup sub) := by
  induction depth generalizing sup sub with
  | zero =>
    intro s a ha
    cases ha
  | succ depth ih =>
    unfold Searching.supersedes
    apply (attempt _).bind
    intro _
    apply (attempt _).bind
    intro _ s answer hanswer
    rw [get_bind] at hanswer ⊢
    cases hlookup : s.decided.lookup (sup.identity, sub.identity) with
    | some known => simp only [pure_apply]
    | none =>
      simp only [hlookup] at hanswer ⊢
      rw [get_bind] at hanswer ⊢
      by_cases hpending : s.pending.contains (sup.identity, sub.identity) = true
      · rw [if_pos hpending] at hanswer
        cases hanswer
      · rw [if_neg hpending] at hanswer ⊢
        let s₁ : Search := { s with pending := (sup.identity, sub.identity) :: s.pending }
        have hstart : Searching.start (sup.identity, sub.identity) s = (.ok (), s₁) := rfl
        rw [bind_of_ok hstart] at hanswer ⊢
        obtain ⟨answer', s₂, hsettle, hanswer⟩ := ok_of_bind hanswer
        rw [bind_of_ok hsettle]
        change s₂.pending.erase (sup.identity, sub.identity) = s.pending
        rw [(settle ih sup sub).of_run hsettle, List.erase_cons_head]

end PreservesPending

/-- A node that is made of nodes from the start. The only plain value around is `p`. -/
def Referent.Inside (r : Referent) (ns₀ ns : List Ty) (p : Referent) : Prop :=
  match r with
  | .type t => t ∈ ns ∧ t.Spanned ns₀
  | .plain handle v => p = .plain handle v

lemma forall₂_and_right {α β : Type} {R : α → β → Prop} {P : β → Prop} {as : List α} {bs : List β}
    (h : List.Forall₂ R as bs) (hP : ∀ b ∈ bs, P b) : List.Forall₂ (fun a b => R a b ∧ P b) as bs := by
  induction h with
  | nil => exact .nil
  | cons hab _ ih =>
    obtain ⟨hb, hbs⟩ := List.forall_mem_cons.mp hP
    exact .cons ⟨hab, hb⟩ (ih hbs)

section Insides

variable {ns₀ ns ns' : List Ty} {p r s : Referent}

lemma Referent.Inside.mono (hns : ns ⊆ ns') (h : r.Inside ns₀ ns p) : r.Inside ns₀ ns' p := by
  cases r with
  | type t => exact ⟨hns h.1, h.2⟩
  | plain => exact h

lemma Referent.Inside.spanned (h : r.Inside ns₀ ns p) : r.Spanned ns₀ := by
  cases r with
  | type t => exact h.2
  | plain => trivial

lemma Referent.Inside.unique {l : Lattice} (h : NodeEnumeration True l ns) (hr : r.Inside ns₀ ns p)
    (hs : s.Inside ns₀ ns p) (hid : r.identity = s.identity) : r = s := by
  cases r with
  | type t =>
    cases s with
    | type u => exact congrArg Referent.type (h.unique hr.1 hs.1 (Identity.type.inj hid))
    | plain => cases hid
  | plain =>
    cases s with
    | type u => cases hid
    | plain => exact hr.symm.trans hs

end Insides

/-- What holds during a search: the lattice was extended on demand, and the pairs decided so far were decided
right. -/
structure SearchInvariant (l₀ : Lattice) (ns₀ : List Ty) (p : Referent) (ns : List Ty) (s : Search) (_ : Unit) :
    Prop where
  lattice : DemandExtension l₀ ns₀ ns s.lattice ()
  decided : ∀ e ∈ s.decided, ∃ a b : Referent, a.Inside ns₀ ns p ∧ b.Inside ns₀ ns p ∧
    e.1 = (a.identity, b.identity) ∧ ∀ depth, a.rank + b.rank < depth → l₀.verdict depth a b = .ok e.2

/-- The pairs being decided are all at least so large. -/
def PendingAbove (ns₀ : List Ty) (p : Referent) (n : Nat) (ns : List Ty) (s : Search) : Prop :=
  ∀ q ∈ s.pending, ∃ a b : Referent, a.Inside ns₀ ns p ∧ b.Inside ns₀ ns p ∧ q = (a.identity, b.identity) ∧
    n ≤ a.rank + b.rank

section Searches

variable {l₀ : Lattice} {ns₀ ns : List Ty} {p : Referent} {s : Search} {n : Nat}

lemma PendingAbove.mono {ns' : List Ty} {s' : Search} (h : PendingAbove ns₀ p n ns s) (hns : ns ⊆ ns')
    (hs : s'.pending = s.pending) : PendingAbove ns₀ p n ns' s' := by
  intro q hq
  rw [hs] at hq
  obtain ⟨a, b, ha, hb, hkey, hle⟩ := h q hq
  exact ⟨a, b, ha.mono hns, hb.mono hns, hkey, hle⟩

/-- A smaller pair is not being decided. -/
lemma PendingAbove.not_mem (h : PendingAbove ns₀ p n ns s) {l : Lattice} (henum : NodeEnumeration True l ns)
    {a b : Referent} (ha : a.Inside ns₀ ns p) (hb : b.Inside ns₀ ns p) (hlt : a.rank + b.rank < n) :
    (a.identity, b.identity) ∉ s.pending := by
  intro hmem
  obtain ⟨a', b', ha', hb', hkey, hle⟩ := h _ hmem
  obtain ⟨hida, hidb⟩ := Prod.mk.inj hkey
  rw [ha.unique henum ha' hida, hb.unique henum hb' hidb] at hlt
  omega

/-- Asked for its edges during a search, a node gives those predicted. -/
lemma simulates_predict (h₀ : NodeEnumeration True l₀ ns₀) (h : SearchInvariant l₀ ns₀ p ns s ()) {r : Referent}
    (hr : r.Inside ns₀ ns p) (d : Direction) :
    Simulates .exact (SearchInvariant l₀ ns₀ p) ns s () (Searching.ofBuild (r.edges d))
      (Attempt.stateless (l₀.predict d r))
      fun ns rs vs => List.Forall₂ (fun a v => a.Inside ns₀ ns p ∧ a.SameUpToNumbers v) rs vs := by
  cases r with
  | plain handle v => exact .attempt h (.error rfl)
  | type t =>
    obtain ⟨ns', hns, h', hresults⟩ :=
      (computes_edges h.lattice.enumeration (.refl h.lattice.enumeration) hr.1 d).with_result
    have hsame : s.lattice.predicted d t = l₀.predicted d t := h₀.predicted_grows h.lattice.grows hr.2 d
    have hinvariant : SearchInvariant l₀ ns₀ p ns' { s with lattice := (t.edges d s.lattice).2 } () := by
      refine ⟨h.lattice.trans h', fun e he => ?_⟩
      obtain ⟨a, b, ha, hb, hkey, hverdict⟩ := h.decided e he
      exact ⟨a, b, ha.mono hns, hb.mono hns, hkey, hverdict⟩
    refine ⟨ns', hns, hinvariant, ?_⟩
    change RelatedResults _ _ (t.edges d s.lattice).1 (l₀.predict d (.type t))
    change RelatedResults _ _ _ (s.lattice.predicted d t) at hresults
    rw [hsame] at hresults
    rw [l₀.predict_type]
    generalize (t.edges d s.lattice).1 = x at hresults
    cases hvs : l₀.predicted d t with
    | error fault =>
      rw [hvs] at hresults
      cases hresults with
      | error halike => exact .error halike
    | ok vs =>
      rw [hvs] at hresults
      cases hresults with
      | ok hrs =>
        refine .ok (List.forall₂_map_right_iff.mpr ?_)
        have hspanned := spanned_of_predicted (h₀.untouched trivial) h₀.parts hr.2 hvs
        refine (forall₂_and_right hrs.2 hspanned).imp ?_
        rintro _ v ⟨⟨u, hu, rfl, hnumbers⟩, hv⟩
        exact ⟨⟨hu, hnumbers.symm.spanned h₀.parts hv⟩, .type hnumbers⟩

/-- A search over a list comes to what the verdicts on its members come to. -/
lemma simulates_anyM {α : Type} {f : α → Searching Bool} {g : α → Attempt Bool}
    (hpreserves : ∀ a, PreservesPending (f a)) {as : List α}
    (hf : ∀ a ∈ as, ∀ ns' s, ns ⊆ ns' → SearchInvariant l₀ ns₀ p ns' s () → PendingAbove ns₀ p n ns' s →
      Simulates .exact (SearchInvariant l₀ ns₀ p) ns' s () (f a) (Attempt.stateless (g a)) fun _ => Eq)
    (h : SearchInvariant l₀ ns₀ p ns s ()) (hpending : PendingAbove ns₀ p n ns s) :
    Simulates .exact (SearchInvariant l₀ ns₀ p) ns s () (as.anyM f) (Attempt.stateless (as.anyM g)) fun _ => Eq := by
  induction as generalizing ns s with
  | nil => exact .pure h rfl
  | cons a as ih =>
    rw [List.anyM, List.anyM, Attempt.stateless_bind]
    apply (hf a List.mem_cons_self ns s (List.Subset.refl ns) h hpending).bind
    rintro found _ ns₁ s₁ _ hrun hns₁ h₁ rfl
    cases found with
    | true => exact .pure h₁ rfl
    | false =>
      refine ih ?_ h₁ (hpending.mono hns₁ ((hpreserves a).of_run hrun))
      exact fun b hb ns' s' hns' => hf b (List.mem_cons_of_mem a hb) ns' s' fun t ht => hns' (hns₁ ht)

/-- A search that answers what the verdict is for all pairs below some size. -/
def SearchesRight (l₀ : Lattice) (ns₀ : List Ty) (p : Referent) (n : Nat)
    (search : Referent → Referent → Searching Bool) : Prop :=
  ∀ ns s a b, SearchInvariant l₀ ns₀ p ns s () → PendingAbove ns₀ p n ns s → a.Inside ns₀ ns p → b.Inside ns₀ ns p →
    a.rank + b.rank < n → Simulates .exact (SearchInvariant l₀ ns₀ p) ns s () (search a b)
      (Attempt.stateless (l₀.verdict n a b)) fun _ => Eq

/-- A search goes on along the edges of a node, which are smaller. -/
lemma simulates_branches (h₀ : NodeEnumeration True l₀ ns₀) (h : SearchInvariant l₀ ns₀ p ns s ())
    (hpending : PendingAbove ns₀ p n ns s) {r : Referent} (hr : r.Inside ns₀ ns p) (d : Direction)
    {f : Referent → Searching Bool}
    {g g' : Referent → Attempt Bool} (hpreserves : ∀ a, PreservesPending (f a))
    (hnumbers : ∀ a v : Referent, a.Spanned ns₀ → a.SameUpToNumbers v → a.rank < r.rank → g a = g' v)
    (hf : ∀ (a : Referent) ns' s, ns ⊆ ns' → a.Inside ns₀ ns' p → a.rank < r.rank → SearchInvariant l₀ ns₀ p ns' s () →
      PendingAbove ns₀ p n ns' s →
      Simulates .exact (SearchInvariant l₀ ns₀ p) ns' s () (f a) (Attempt.stateless (g a)) fun _ => Eq) :
    Simulates .exact (SearchInvariant l₀ ns₀ p) ns s () (Searching.ofBuild (r.edges d) >>= fun nodes => nodes.anyM f)
      (Attempt.stateless (l₀.predict d r >>= fun vs => vs.anyM g')) fun _ => Eq := by
  rw [Attempt.stateless_bind]
  apply (simulates_predict h₀ h hr d).with_result.bind
  rintro nodes vs ns₁ s₁ _ hrun hns₁ h₁ ⟨hvs, hnodes⟩
  have hdown := descends_of_predict h₀ hr.spanned hvs
  have hsmaller : List.Forall₂
      (fun a v => (Referent.Inside a ns₀ ns₁ p ∧ Referent.SameUpToNumbers a v) ∧ a.rank < r.rank)
      nodes vs := by
    refine (forall₂_and_right hnodes fun v hv => (hdown v hv).2).imp fun a v hav => ⟨hav.1, ?_⟩
    rw [hav.1.2.rank_eq]
    exact hav.2
  -- the nodes and those predicted have the same verdicts
  have hsame : nodes.anyM g = vs.anyM g' := by
    apply eq_of_relatedResults
    apply RelatedResults.anyM
    refine hsmaller.imp fun a v hav => ?_
    rw [hnumbers a v hav.1.1.spanned hav.1.2 hav.2]
    exact .of_eq
  rw [← hsame]
  refine simulates_anyM hpreserves ?_ h₁ (hpending.mono hns₁ ((PreservesPending.ofBuild _).of_run hrun))
  intro a ha ns' s' hns' h' hpending'
  obtain ⟨v, _, hav, hlt⟩ := exists_related_right hsmaller ha
  exact hf a ns' s' (fun t ht => hns' (hns₁ ht)) (hav.1.mono hns') hlt h' hpending'

lemma simulates_settled (h₀ : NodeEnumeration True l₀ ns₀) {search : Referent → Referent → Searching Bool}
    (hsearch : SearchesRight l₀ ns₀ p n search) (hpreserves : ∀ a b, PreservesPending (search a b))
    (h : SearchInvariant l₀ ns₀ p ns s ()) (hpending : PendingAbove ns₀ p n ns s) {sup sub : Referent}
    (hsup : sup.Inside ns₀ ns p) (hsub : sub.Inside ns₀ ns p) (hrank : sup.rank + sub.rank ≤ n) {depth : Nat}
    (hdepth : sup.rank + sub.rank ≤ depth) :
    Simulates .exact (SearchInvariant l₀ ns₀ p) ns s () (Searching.settle search sup sub)
      (Attempt.stateless do
        if ← sup.equals sub then return true
        let below ← l₀.predict .subsets sup
        if ← below.anyM fun r => l₀.verdict depth r sub then return true
        let above ← l₀.predict .supersets sub
        above.anyM fun r => l₀.verdict depth sup r) fun _ => Eq := by
  rw [Attempt.stateless_bind]
  apply Simulates.attempt_bind h RelatedResults.of_eq
  rintro same _ _ rfl
  cases same with
  | true => exact .pure h rfl
  | false =>
    simp only [Bool.false_eq_true, if_false]
    rw [← bind_assoc, ← bind_assoc, Attempt.stateless_bind]
    have hdown : Simulates .exact (SearchInvariant l₀ ns₀ p) ns s ()
        (Searching.ofBuild (sup.edges .subsets) >>= fun below => below.anyM fun r => search r sub)
        (Attempt.stateless (l₀.predict .subsets sup >>= fun below => below.anyM fun r => l₀.verdict depth r sub))
        fun _ => Eq := by
      refine simulates_branches h₀ h hpending hsup .subsets (fun r => hpreserves r sub)
        (g := fun r => l₀.verdict n r sub) ?_ ?_
      · intro a v ha hav hlt
        rw [verdict_sameUpToNumbers h₀ depth ha hsub.spanned hav (.refl sub)]
        exact verdict_stable h₀ ha hsub.spanned (by omega) (by omega)
      · intro a ns' s' hns' ha hlt h' hpending'
        exact hsearch ns' s' a sub h' hpending' ha (hsub.mono hns') (by omega)
    apply hdown.bind
    rintro found _ ns₁ s₁ _ hrun hns₁ h₁ rfl
    cases found with
    | true => exact .pure h₁ rfl
    | false =>
      have hpreserves₁ : PreservesPending
          (Searching.ofBuild (sup.edges .subsets) >>= fun below => below.anyM fun r => search r sub) :=
        (PreservesPending.ofBuild _).bind fun below => .anyM (fun r => hpreserves r sub) below
      have hsup₁ := hsup.mono hns₁
      refine simulates_branches h₀ h₁ (hpending.mono hns₁ (hpreserves₁.of_run hrun)) (hsub.mono hns₁) .supersets
        (fun r => hpreserves sup r) (g := fun r => l₀.verdict n sup r) ?_ ?_
      · intro a v ha hav hlt
        rw [verdict_sameUpToNumbers h₀ depth hsup.spanned ha (.refl sup) hav]
        exact verdict_stable h₀ hsup.spanned ha (by omega) (by omega)
      · intro a ns' s' hns' ha hlt h' hpending'
        exact hsearch ns' s' sup a h' hpending' (hsup₁.mono hns') ha (by omega)

/-- A search of sufficient depth answers what the verdict is. -/
theorem supersedes_right (h₀ : NodeEnumeration True l₀ ns₀) {depth : Nat} (hdepth : n ≤ depth) :
    SearchesRight l₀ ns₀ p n (Searching.supersedes depth) := by
  induction depth generalizing n with
  | zero =>
    intro ns s a b _ _ _ _ hlt
    omega
  | succ depth ih =>
    intro ns s a b h hpending ha hb hlt
    obtain ⟨k, rfl⟩ : ∃ k, n = k + 1 := ⟨n - 1, by omega⟩
    rw [Lattice.verdict, Attempt.stateless_bind]
    unfold Searching.supersedes
    apply Simulates.attempt_bind h RelatedResults.of_eq
    rintro _ _ hhasha rfl
    rw [Attempt.stateless_bind]
    apply Simulates.attempt_bind h RelatedResults.of_eq
    rintro _ _ hhashb rfl
    have hverdict : ∀ {answer : Bool}, (do
        if ← a.equals b then return true
        let below ← l₀.predict .subsets a
        if ← below.anyM fun r => l₀.verdict k r b then return true
        let above ← l₀.predict .supersets b
        above.anyM fun r => l₀.verdict k a r) = .ok answer ↔ l₀.verdict (k + 1) a b = .ok answer := by
      intro answer
      rw [Lattice.verdict, hhasha, hhashb]
      rfl
    have hget : (get : Searching Search) s = (.ok s, s) := rfl
    apply Simulates.after_ok hget
    cases hlookup : s.decided.lookup (a.identity, b.identity) with
    | some answer =>
      -- the pair was decided before, and right
      obtain ⟨a', b', ha', hb', hkey, hright⟩ := h.decided _ (mem_of_lookup hlookup)
      obtain ⟨hida, hidb⟩ := Prod.mk.inj hkey
      rw [← ha.unique h.lattice.enumeration ha' hida, ← hb.unique h.lattice.enumeration hb' hidb] at hright
      rw [hverdict.mpr (hright (k + 1) hlt)]
      exact .pure h rfl
    | none =>
      apply Simulates.after_ok hget
      have hnew : s.pending.contains (a.identity, b.identity) = false := by
        simpa using hpending.not_mem h.lattice.enumeration ha hb hlt
      simp only [hnew, Bool.false_eq_true, if_false]
      let s₁ : Search := { s with pending := (a.identity, b.identity) :: s.pending }
      have hstart : Searching.start (a.identity, b.identity) s = (.ok (), s₁) := rfl
      apply Simulates.after_ok hstart
      have h₁ : SearchInvariant l₀ ns₀ p ns s₁ () := ⟨h.lattice, h.decided⟩
      have hpending₁ : PendingAbove ns₀ p (a.rank + b.rank) ns s₁ := by
        intro q hq
        rcases List.mem_cons.mp hq with rfl | hq
        · exact ⟨a, b, ha, hb, rfl, le_rfl⟩
        · obtain ⟨a', b', ha', hb', hkey, hle⟩ := hpending q hq
          exact ⟨a', b', ha', hb', hkey, by omega⟩
      have hsettled := (simulates_settled h₀ (ih (n := a.rank + b.rank) (by omega))
        (PreservesPending.supersedes depth) h₁
        hpending₁ ha hb le_rfl (Nat.lt_succ_iff.mp hlt)).with_result
      rw [← bind_pure (Attempt.stateless _)]
      apply hsettled.bind
      rintro answer _ ns₂ s₂ _ hrun hns₂ h₂ ⟨hanswer, rfl⟩
      -- what was just found out is remembered
      let s₃ : Search := { s₂ with decided := ((a.identity, b.identity), answer) :: s₂.decided,
                                   pending := s₂.pending.erase (a.identity, b.identity) }
      have hfinish : Searching.finish (a.identity, b.identity) answer s₂ = (.ok (), s₃) := rfl
      apply Simulates.after_ok hfinish
      refine .pure ⟨h₂.lattice, fun e he => ?_⟩ rfl
      rcases List.mem_cons.mp he with rfl | he
      · refine ⟨a, b, ha.mono hns₂, hb.mono hns₂, rfl, fun depth' hdepth' => ?_⟩
        rw [← hverdict.mp hanswer]
        exact verdict_stable h₀ ha.spanned hb.spanned hdepth' hlt
      · exact h₂.decided e he

end Searches

section Questions

variable {l : Lattice} {ns : List Ty} {sup sub : Referent}

/-- A plain value cannot be asked whether it contains anything. -/
lemma supersedesWithin_of_plain (handle : Nat) (v : Value) (n m : Nat) :
    Build.supersedesWithin (.plain handle v) sub (m + 1) l = (l.verdict (n + 1) (.plain handle v) sub, l) := by
  unfold Build.supersedesWithin
  rw [Lattice.verdict, Searching.supersedes]
  cases hv : (Referent.plain handle v).checkHashable with
  | error fault => rfl
  | ok =>
    cases hsub : sub.checkHashable with
    | error fault => rfl
    | ok => rfl

/-- A search to a depth beyond the ranks answers with the predicted verdict and extends the lattice on demand. -/
lemma supersedesWithin_verdict (h : NodeEnumeration True l ns) (hsup : sup.Known ns) (hsub : sub.Known ns) {depth : Nat}
    (hdepth : sup.rank + sub.rank < depth) :
    (Build.supersedesWithin sup sub depth l).1 = l.verdict (sup.rank + sub.rank + 1) sup sub ∧
      ∃ ns', DemandExtension l ns ns' (Build.supersedesWithin sup sub depth l).2 () := by
  cases sup with
  | plain handle v =>
    obtain ⟨m, rfl⟩ : ∃ m, depth = m + 1 := ⟨depth - 1, by omega⟩
    rw [supersedesWithin_of_plain handle v]
    exact ⟨rfl, ns, .refl h⟩
  | type t =>
    have hinside : sub.Inside ns ns sub := by
      cases sub with
      | type u => exact ⟨hsub, .node hsub⟩
      | plain => rfl
    have hstart : SearchInvariant l ns sub ns ⟨l, [], []⟩ () := ⟨.refl h, fun e he => absurd he List.not_mem_nil⟩
    have hpending : PendingAbove ns sub ((Referent.type t).rank + sub.rank + 1) ns ⟨l, [], []⟩ :=
      fun q hq => absurd hq List.not_mem_nil
    obtain ⟨ns', _, h', hresults⟩ := supersedes_right h hdepth ns ⟨l, [], []⟩ (.type t) sub hstart hpending
      ⟨hsup, .node hsup⟩ hinside (Nat.lt_succ_self _)
    exact ⟨eq_of_relatedResults hresults, ns', h'.lattice⟩

/-- Whether one type contains another is answered with the predicted verdict, and the lattice is extended on
demand. -/
theorem supersedes_verdict (h : NodeEnumeration True l ns) (hsup : sup.Known ns) (hsub : sub.Known ns) :
    (Build.supersedes sup sub l).1 = l.verdict (sup.rank + sub.rank + 1) sup sub ∧
      ∃ ns', DemandExtension l ns ns' (Build.supersedes sup sub l).2 () := by
  have hmono := Build.monotoneInDepth_supersedesWithin sup sub
  have hbeyond := fun n => supersedesWithin_verdict h hsup hsub (Nat.lt_succ_of_le (Nat.le_add_left _ n))
  unfold Build.supersedes
  rcases Build.unlimited_cases (Build.supersedesWithin sup sub) l with ⟨n, hrun, hn⟩ | hrun
  · rw [hrun, ← hmono n (n + (sup.rank + sub.rank) + 1) (by omega) l hn]
    exact hbeyond n
  · rw [hrun, ← (hbeyond 0).1, hmono.tooDeep (congrArg Prod.fst hrun)]
    exact ⟨rfl, ns, .refl h⟩

end Questions

end StructuralTypes
