import StructuralTypes.Proofs.CycleReports
import StructuralTypes.Proofs.Unfolding

/-!
# Cycles through edges that are worked out on demand

A check asks each node that it meets for its edges, so the lattice unfolds as the check goes on. Wherever a type
leads to finitely many nodes, those included that come about in this way, the check ends with all their edges
worked out, and it complains once about each strongly connected component with a cycle.
-/

namespace StructuralTypes

/-- However a lattice unfolds, the root leads to finitely many nodes. -/
def Lattice.FiniteFrom (l : Lattice) (root : Ty) : Prop :=
  ∃ nodes : List Ty, ∀ {l' d t}, l.Unfolds root l' → l'.Reaches d root t → t ∈ nodes

/-- The lattices that a lattice unfolds to, each with nodes that the root leads to over edges of one kind. -/
def Lattice.unfoldings (l : Lattice) (root : Ty) (d : Direction) (l' : Lattice) (ns : List Ty) : Prop :=
  l.Unfolds root l' ∧ ∀ t ∈ ns, l'.Reaches d root t

section Checking

variable {l l₁ : Lattice} {nodes : List Ty} {root : Ty} {d : Direction}

lemma NodeEnumeration.finitelyExplorable (h : NodeEnumeration False l nodes) (hroot : root ∈ nodes)
    (hlabelled : l.LabelledFrom root) (hfinite : l.FiniteFrom root) (d : Direction) :
    FinitelyExplorable d (l.unfoldings root d) where
  unique := by
    rintro l' ns t u ⟨hunfolds, hns⟩ ht hu hid
    obtain ⟨all, hall⟩ := hunfolds.unfoldedTo h hroot hlabelled
    exact hall.enumeration.unique (hall.mem (hns t ht)) (hall.mem (hns u hu)) hid
  edges := by
    rintro l' ns t ⟨hunfolds, hns⟩ ht
    obtain ⟨all, hall⟩ := hunfolds.unfoldedTo h hroot hlabelled
    obtain ⟨us, -, hus, hstored, -⟩ := hall.edges hlabelled (hns t ht)
    have hgrows : l'.Grows (t.edges d l').2 := growing_edges d t l'
    have hreach : ∀ u ∈ ns ++ us, (t.edges d l').2.Reaches d root u := by
      intro u hu
      rcases List.mem_append.mp hu with hu | hu
      · exact (hns u hu).mono hgrows
      · exact ((hns t ht).mono hgrows).tail ((Lattice.edge_iff hstored).mpr hu)
    refine ⟨ns ++ us, ⟨.ask hunfolds (hns t ht), hreach⟩, List.subset_append_left ns us, hgrows, fun rs hrs => ?_⟩
    rw [hus] at hrs
    obtain rfl := Except.ok.inj hrs
    exact ⟨hstored, us, rfl, List.subset_append_right ns us⟩
  answers := by
    rintro l' ns t ⟨hunfolds, hns⟩ ht
    obtain ⟨all, hall⟩ := hunfolds.unfoldedTo h hroot hlabelled
    obtain ⟨us, -, hus, -⟩ := hall.edges hlabelled (hns t ht)
    exact ⟨_, hus⟩
  finite := by
    obtain ⟨nodes, hnodes⟩ := hfinite
    refine ⟨nodes.map Ty.id, ?_⟩
    rintro l' ns t ⟨hunfolds, hns⟩ ht
    exact List.mem_map_of_mem (hnodes hunfolds (hns t ht))

end Checking

section Crates

end Crates

end StructuralTypes
