import StructuralTypes.Proofs.StructuralEquality
import StructuralTypes.Proofs.WellFounded

/-!
# What searches find in constructed lattices

Whether a search finds that one type contains another does not depend on which edges somebody has asked
for before: it does exactly if what the one offers below it and what the other offers above it meet in
equal types. The same goes for exploring all that a type leads to. So answers stay what they are while
a lattice grows.
-/

namespace StructuralTypes

open Relation

namespace Lattice

/-- The types offered below `sup` and above `sub` meet in equal types. -/
def Contains (l : Lattice) (sup sub : Ty) : Prop :=
  ∃ low high, ReflTransGen (l.Offers .subsets) sup low ∧ ReflTransGen (l.Offers .supersets) sub high ∧
    low.equals high = .ok true

/-- Among all that the edges of `t` lead to there is a type that `u` is equal to. -/
def Meets (l : Lattice) (d : Direction) (t u : Ty) : Prop :=
  ∃ g, (Build.reachable d (.type t) l).1 = .ok g ∧ ∃ e ∈ g, (Referent.type u).equals e.1 = .ok true

end Lattice

lemma Ty.Alike.trans {s t u : Ty} (h : s.Alike t) (h' : t.Alike u) : s.Alike u := by
  induction h generalizing u with
  | refl => exact h'
  | unary extractor ho hi iho ihi =>
    cases h' with
    | refl => exact .unary extractor ho hi
    | unary _ ho' hi' => exact .unary extractor (iho ho') (ihi hi')

lemma Lattice.Exact.answer {l : Lattice} {d : Direction} {t t' u : Ty} {us : List Ty}
    (h : l.Exact d t us) (ht : t.Alike t') (hoffers : l.Offers d t' u) : ∃ v ∈ us, v.Alike u := by
  obtain ⟨w, hw, halike⟩ := hoffers.alike ht.symm
  obtain ⟨v, hv, halike'⟩ := h.complete w hw
  exact ⟨v, hv, (halike.trans halike').symm⟩

namespace WellFormed

variable {terms : Terms} {l l' : Lattice} {ns : List Ty} {d : Direction} {t u : Ty}

lemma spanned_of_path (h : WellFormed terms l ns) (ht : t.Spanned ns)
    (hpath : ReflTransGen (l.Offers d) t u) : u.Spanned ns := by
  induction hpath with
  | refl => exact ht
  | tail _ hoffers ih => exact (h.offered ih hoffers).1

lemma leads_of_path (h : WellFormed terms l ns) (ht : t.Spanned ns)
    (hpath : ReflTransGen (l.Offers d) t u) : ReflTransGen (Ty.Leads d) t u := by
  induction hpath with
  | refl => exact .refl
  | tail hpath hoffers ih => exact ih.tail (h.offered (h.spanned_of_path ht hpath) hoffers).2

lemma path_iff (h : WellFormed terms l ns) (hgrows : l.Grows l') (ht : t.Spanned ns) :
    ReflTransGen (l'.Offers d) t u ↔ ReflTransGen (l.Offers d) t u := by
  constructor
  · intro hpath
    induction hpath with
    | refl => exact .refl
    | tail _ hoffers ih => exact ih.tail ((h.offers_iff hgrows (h.spanned_of_path ht ih) d _).mp hoffers)
  · exact ReflTransGen.mono (fun _ _ hoffers => hoffers.mono hgrows) t u

/-- What there is contains the same as before while the lattice grows. -/
lemma contains_iff (h : WellFormed terms l ns) (hgrows : l.Grows l') {sup sub : Ty}
    (hsup : sup.Spanned ns) (hsub : sub.Spanned ns) : l'.Contains sup sub ↔ l.Contains sup sub := by
  simp only [Lattice.Contains, h.path_iff hgrows hsup, h.path_iff hgrows hsub]

lemma path_of_reaches (h : WellFormed terms l ns) (ht : t ∈ ns) (hreach : l.Reaches d t u) :
    ReflTransGen (l.Offers d) t u := by
  induction hreach with
  | refl => exact .refl
  | @tail v w hreach hedge ih =>
    have hv := (h.reaches ht hreach).1
    obtain ⟨rs, hrs, hw⟩ := hedge
    obtain ⟨us, rfl, -⟩ := h.stored v hv d rs hrs
    exact ih.tail ((h.exact hv hrs).offered w ((Lattice.edge_iff hrs).mp ⟨_, hrs, hw⟩))

lemma proper (h : WellFormed terms l ns) (ht : t.Spanned ns) : t.Proper := by
  induction ht with
  | node ht => exact (h.sound _ ht).regular.proper
  | unary label extractor _ _ iho ihi => exact .unary label extractor iho ihi

end WellFormed

/-- A refuted pair contains no other one, whatever labels the nodes on the way have. -/
lemma Refuted.unequal {terms : Terms} {l : Lattice} {ns : List Ty} (h : WellFormed terms l ns)
    {decided : List ((Identity × Identity) × Bool)} (hrefuted : Refuted l ns decided) {a b a' b' : Ty}
    (ha : a ∈ ns) (hb : b ∈ ns) (hkey : (pairKey (a, b), false) ∈ decided) (halike : a.Alike a')
    (halike' : b.Alike b') {low high : Ty} (hlow : ReflTransGen (l.Offers .subsets) a' low)
    (hhigh : ReflTransGen (l.Offers .supersets) b' high) : low.equals high = .ok false := by
  -- on the order of decisions: an offered step is a stored one up to labels, decided before
  induction hrefuted generalizing a b a' b' with
  | nil => cases hkey
  | @cons x y below above decided hx hy hequal hbelow habove hdown hup _ ih =>
    rcases List.mem_cons.mp hkey with hkey | hkey
    · obtain ⟨rfl, rfl⟩ := Prod.mk.inj (pairKey_inj (fun t ht u hu => h.unique ht hu)
        (p := (a, b)) (q := (x, y)) ha hb hx hy (Prod.mk.inj hkey).1)
      rcases ReflTransGen.cases_head hlow with rfl | ⟨c, hfirst, hrest⟩
      · rcases ReflTransGen.cases_head hhigh with rfl | ⟨c, hfirst, hrest⟩
        · rw [← halike.equals_eq halike']
          exact hequal
        · obtain ⟨v, hv, hvc⟩ := (h.exact hb habove).answer halike' hfirst
          obtain ⟨hmem, hdecided⟩ := hup v hv
          exact ih ha hmem hdecided halike hvc .refl hrest
      · obtain ⟨v, hv, hvc⟩ := (h.exact ha hbelow).answer halike hfirst
        obtain ⟨hmem, hdecided⟩ := hdown v hv
        exact ih hmem hb hdecided hvc halike' hrest hhigh
    · exact ih ha hb hkey halike halike' hlow hhigh

namespace WellFormed

variable {terms : Terms} {l : Lattice} {ns : List Ty}

/-- Where a search finds that one type contains another, what they offer meets. -/
lemma contains_of_supersedes (h : WellFormed terms l ns) {sup sub : Ty} (hsup : sup ∈ ns)
    (hsub : sub ∈ ns) (hfound : (Build.supersedes (.type sup) (.type sub) l).1 = .ok true) :
    l.Contains sup sub := by
  obtain ⟨ns', hpop, hns, hgrows, hlinked, -⟩ := supersedes_outcome (walkable terms) h hsup hsub
  obtain ⟨⟨low, high⟩, hreach, hequal⟩ := hlinked hfound
  obtain ⟨hdown, hup⟩ := Lattice.pairReaches_iff.mp hreach
  refine (h.contains_iff hgrows (.node hsup) (.node hsub)).mp ⟨low, high, ?_, ?_, hequal⟩
  · exact hpop.path_of_reaches (hns hsup) hdown
  · exact hpop.path_of_reaches (hns hsub) hup

/-- A search finds that one type contains another exactly if what they offer meets. -/
theorem supersedes_iff (h : WellFormed terms l ns) (hdoc : terms.documented) {sup sub : Ty}
    (hsup : sup ∈ ns) (hsub : sub ∈ ns) :
    (Build.supersedes (.type sup) (.type sub) l).1 = .ok true ↔ l.Contains sup sub := by
  constructor
  · exact h.contains_of_supersedes hsup hsub
  · intro hcontains
    obtain ⟨answer, hanswer⟩ := h.supersedes_answers hdoc hsup hsub
    cases answer with
    | true => exact hanswer
    | false =>
      obtain ⟨l', ns', decided, hpop, hns, hgrows, hrefuted, hkey⟩ :=
        supersedes_refutes (walkable terms) h hsup hsub hanswer
      obtain ⟨low, high, hlow, hhigh, hequal⟩ :=
        (h.contains_iff hgrows (.node hsup) (.node hsub)).mpr hcontains
      rw [hrefuted.unequal hpop (hns hsup) (hns hsub) hkey (.refl sup) (.refl sub) hlow hhigh] at hequal
      cases hequal

/-- Exploring from a type lists all that it offers, and all that this offers in turn. -/
lemma validReach_of_path {d : Direction} {root t : Ty} {g : Reach} (h : WellFormed terms l ns)
    (hroot : root ∈ ns) (hreach : CompleteReach l ns d root g) (hpath : ReflTransGen (l.Offers d) root t) :
    ∃ u rs, (.type u, rs) ∈ g ∧ u.Alike t := by
  have hentry : ∀ {v : Ty}, v ∈ ns → .type v.id ∈ g.identities → ∃ rs, (.type v, rs) ∈ g := by
    intro v hv hid
    obtain ⟨e, he, hsame⟩ := List.mem_map.mp hid
    obtain ⟨w, us, rfl, hw, -⟩ := hreach.entry e he
    obtain rfl := h.unique hw hv (Identity.type.inj hsame)
    exact ⟨_, he⟩
  induction hpath with
  | refl =>
    obtain ⟨rs, hrs⟩ := hentry hroot hreach.root_mem
    exact ⟨root, rs, hrs, .refl root⟩
  | tail _ hoffers ih =>
    obtain ⟨u, rs, hu, halike⟩ := ih
    obtain ⟨v, us, he, hv, hus, hstored⟩ := hreach.entry _ hu
    obtain ⟨hvu, rfl⟩ := Prod.mk.inj he
    obtain rfl := Referent.type.inj hvu
    obtain ⟨w, hw, hwalike⟩ := (h.exact hv hstored).answer halike hoffers
    obtain ⟨rs, hrs⟩ := hentry (hus hw) (hreach.closed _ hu (.type w) (List.mem_map_of_mem hw))
    exact ⟨w, rs, hrs, hwalike⟩

theorem meets_iff (h : WellFormed terms l ns) (hdoc : terms.documented) {d : Direction} {t u : Ty}
    (ht : t ∈ ns) : l.Meets d t u ↔ ∃ v, ReflTransGen (l.Offers d) t v ∧ u.equals v = .ok true := by
  obtain ⟨ns', hpop, hns, hgrows, hcomplete, -⟩ := reachable_outcome (explorable terms d) h ht
  constructor
  · rintro ⟨g, hrun, e, he, hequal⟩
    obtain ⟨v, hv, hreach⟩ := (hcomplete g hrun).reached e he
    refine ⟨v, (h.path_iff hgrows (.node ht)).mp (hpop.path_of_reaches (hns ht) hreach), ?_⟩
    rw [hv] at hequal
    exact hequal
  · rintro ⟨v, hpath, hequal⟩
    obtain ⟨g, l', -, hrun, -⟩ := h.reachable_acyclic hdoc ht d
    have hok : (Build.reachable d (.type t) l).1 = .ok g := by rw [hrun]
    obtain ⟨w, rs, hw, halike⟩ := hpop.validReach_of_path (hns ht) (hcomplete g hok)
      ((h.path_iff hgrows (.node ht)).mpr hpath)
    refine ⟨g, hok, _, hw, ?_⟩
    rw [← hequal]
    exact Ty.Alike.equals_eq (.refl u) halike

end WellFormed

end StructuralTypes
