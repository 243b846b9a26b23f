import StructuralTypes.Outline
import StructuralTypes.Proofs.DeclaredEdges
import StructuralTypes.Proofs.MembershipLaws

/-!
# Renumbering

Identities and serial numbers are handed out as types are constructed, so what else happens to a lattice
shifts them. A renumbering replaces both and keeps their order. Nothing but the numbers themselves
depends on them: names and docs, tests, comparisons and outlines stay as they are, and operands are
sorted and repeats dropped alike.
-/

namespace StructuralTypes

/-- New identities and new serial numbers, in the order of the old ones. -/
structure Renumbering where
  id : Nat → Nat
  serial : Nat → Nat
  id_strictMono : StrictMono id
  serial_strictMono : StrictMono serial

namespace Renumbering

lemma id_inj (ρ : Renumbering) {i j : Nat} : ρ.id i = ρ.id j ↔ i = j := ρ.id_strictMono.injective.eq_iff

lemma serial_le (ρ : Renumbering) {m n : Nat} : ρ.serial m ≤ ρ.serial n ↔ m ≤ n :=
  ρ.serial_strictMono.le_iff_le

/-- Leaves all numbers as they are. -/
def refl : Renumbering := ⟨fun i => i, fun n => n, strictMono_id, strictMono_id⟩

end Renumbering

def Label.renumber (ρ : Renumbering) (l : Label) : Label := ⟨ρ.id l.id, ρ.serial l.serial, l.names?, l.docs?⟩

namespace Ty

mutual

def renumber (ρ : Renumbering) : Ty → Ty
  | .bare l => .bare (l.renumber ρ)
  | .any l => .any (l.renumber ρ)
  | .predicate l pred => .predicate (l.renumber ρ) pred
  | .compound l op ts => .compound (l.renumber ρ) op (renumberAll ρ ts)
  | .without l left right => .without (l.renumber ρ) (renumber ρ left) (renumber ρ right)
  | .unary l outer extractor inner => .unary (l.renumber ρ) (renumber ρ outer) extractor (renumber ρ inner)

def renumberAll (ρ : Renumbering) : List Ty → List Ty
  | [] => []
  | t :: ts => renumber ρ t :: renumberAll ρ ts

end

section Metadata

variable (ρ : Renumbering) (t : Ty)

@[simp] lemma renumberAll_eq (ts : List Ty) : renumberAll ρ ts = ts.map (renumber ρ) := by
  induction ts with
  | nil => rfl
  | cons t ts ih => rw [renumberAll, ih, List.map_cons]

@[simp] lemma label_renumber : (t.renumber ρ).label = t.label.renumber ρ := by cases t <;> rfl

@[simp] lemma id_renumber : (t.renumber ρ).id = ρ.id t.id := by rw [id, label_renumber]; rfl

@[simp] lemma serial_renumber : (t.renumber ρ).serial = ρ.serial t.serial := by
  rw [serial, label_renumber]
  rfl

@[simp] lemma kind?_renumber : (t.renumber ρ).kind? = t.kind? := by cases t <;> rfl

@[simp] lemma kind_renumber : (t.renumber ρ).kind = t.kind := by rw [kind, kind, kind?_renumber]

@[simp] lemma className_renumber : (t.renumber ρ).className = t.className := by
  cases t with
  | compound l op ts => cases op <;> rfl
  | _ => rfl

@[simp] lemma names_renumber : (t.renumber ρ).names = t.names := by
  rw [names, names, label_renumber]
  rfl

@[simp] lemma docs_renumber : (t.renumber ρ).docs = t.docs := by
  rw [docs, docs, label_renumber]
  rfl

@[simp] lemma name_renumber : (t.renumber ρ).name = t.name := by rw [name, name, names_renumber]

@[simp] lemma canonicalName_renumber : (t.renumber ρ).canonicalName = t.canonicalName := by
  rw [canonicalName, canonicalName, names_renumber]

@[simp] lemma firstDoc_renumber : (t.renumber ρ).firstDoc = t.firstDoc := by
  rw [firstDoc, firstDoc, docs_renumber]

lemma renumber_setLabel (l : Label) : (t.setLabel l).renumber ρ = (t.renumber ρ).setLabel (l.renumber ρ) := by
  cases t <;> rfl

lemma absorbed?_renumber (op : Operator) :
    (t.renumber ρ).absorbed? op = (t.absorbed? op).map (·.map (renumber ρ)) := by
  cases t with
  | compound l inner ts => by_cases h : op.absorbs inner <;> simp [renumber, absorbed?, h]
  | _ => rfl

end Metadata

section Questions

variable (ρ : Renumbering)

lemma agreesAll_map (ρ' : Renumbering) (asksRight : Bool) {ts us : List Ty}
    (h : ∀ t ∈ ts, ∀ asksRight u, agrees asksRight (t.renumber ρ) (u.renumber ρ') = agrees asksRight t u) :
    agreesAll asksRight (ts.map (renumber ρ)) (us.map (renumber ρ')) = agreesAll asksRight ts us := by
  induction ts generalizing us with
  | nil => cases us <;> simp [agreesAll]
  | cons t ts ih =>
    cases us with
    | nil => simp [agreesAll]
    | cons u us =>
      have hrest : agreesAll asksRight (ts.map (renumber ρ)) (us.map (renumber ρ')) = agreesAll asksRight ts us :=
        ih fun v hv => h v (List.mem_cons_of_mem t hv)
      rw [List.map_cons, List.map_cons, agreesAll, agreesAll, h t List.mem_cons_self, hrest]

lemma agrees_renumber (ρ' : Renumbering) (asksRight : Bool) (s t : Ty) :
    agrees asksRight (s.renumber ρ) (t.renumber ρ') = agrees asksRight s t := by
  induction s generalizing asksRight t with
  | bare l => cases asksRight <;> cases t <;> simp [renumber, agrees]
  | any l => cases asksRight <;> cases t <;> simp [renumber, agrees]
  | predicate l pred => cases asksRight <;> cases t <;> simp [renumber, agrees]
  | compound l op ts ih =>
    cases t with
    | compound l' op' us => simp [renumber, agrees, agreesAll_map ρ ρ' asksRight ih]
    | _ => cases asksRight <;> simp [renumber, agrees]
  | without l left right ihl ihr =>
    cases t with
    | without l' left' right' => simp only [renumber, agrees, ihl, ihr]
    | _ => cases asksRight <;> simp [renumber, agrees]
  | unary l outer extractor inner iho ihi =>
    cases t with
    | unary l' outer' extractor' inner' => simp only [renumber, agrees, iho, ihi]
    | _ => cases asksRight <;> simp [renumber, agrees]

@[simp] lemma equals_renumber (ρ' : Renumbering) (s t : Ty) :
    (s.renumber ρ).equals (t.renumber ρ') = s.equals t := agrees_renumber ρ ρ' false s t

@[simp] lemma has_renumber (I : Interpretation) (t : Ty) (v : Value) : (t.renumber ρ).has I v = t.has I v := by
  induction t generalizing v with
  | bare l => simp [renumber, has]
  | any l => simp [renumber, has]
  | predicate l pred => simp [renumber, has]
  | compound l op ts ih =>
    have hall : List.Forall₂ (fun t u => t.has I v = u.has I v) (ts.map (renumber ρ)) ts := by
      rw [List.forall₂_map_left_iff]
      exact List.forall₂_same.mpr fun t ht => ih t ht v
    cases op <;> simp only [renumber, renumberAll_eq, has, allHave_congr hall, someHas_congr hall]
  | without l left right ihl ihr => simp only [renumber, has, ihl, ihr]
  | unary l outer extractor inner iho ihi => simp only [renumber, has, iho, ihi]

lemma caption_renumber (t : Ty) (note : String) : (t.renumber ρ).caption note = t.caption note := by
  rw [caption, caption, name_renumber, canonicalName_renumber, kind_renumber]

lemma operandLines_map (indent : String) (depth : Nat) {ts : List Ty}
    (h : ∀ t ∈ ts, ∀ depth, (t.renumber ρ).outlineLines indent depth = t.outlineLines indent depth) :
    operandLines indent depth (ts.map (renumber ρ)) = operandLines indent depth ts := by
  induction ts with
  | nil => rfl
  | cons t ts ih =>
    have hrest := ih fun u hu => h u (List.mem_cons_of_mem t hu)
    rw [List.map_cons, operandLines, operandLines, h t List.mem_cons_self, hrest]

lemma outlineLines_renumber (indent : String) (depth : Nat) (t : Ty) :
    (t.renumber ρ).outlineLines indent depth = t.outlineLines indent depth := by
  induction t generalizing depth with
  | bare l => rfl
  | any l => simp only [renumber, outlineLines, ← caption_renumber ρ (.any l)]
  | predicate l pred => simp only [renumber, outlineLines, ← caption_renumber ρ (.predicate l pred)]
  | compound l op ts ih =>
    simp only [renumber, renumberAll_eq, outlineLines, operandLines_map ρ indent _ ih,
      ← caption_renumber ρ (.compound l op ts)]
  | without l left right ihl ihr =>
    simp only [renumber, outlineLines, ihl, ihr, ← caption_renumber ρ (.without l left right)]
  | unary l outer extractor inner iho ihi =>
    simp only [renumber, outlineLines, iho, ihi, ← caption_renumber ρ (.unary l outer extractor inner)]

@[simp] lemma outline_renumber (indent : String) (t : Ty) : (t.renumber ρ).outline indent = t.outline indent := by
  rw [outline, outline, outlineLines_renumber]

end Questions

end Ty

namespace Referent

def renumber (ρ : Renumbering) : Referent → Referent
  | .type t => .type (t.renumber ρ)
  | .plain handle v => .plain handle v

variable (ρ : Renumbering) (r s : Referent)

@[simp] lemma renumber_type (t : Ty) : (Referent.type t).renumber ρ = .type (t.renumber ρ) := rfl

@[simp] lemma renumber_plain (handle : Nat) (v : Value) :
    (Referent.plain handle v).renumber ρ = .plain handle v := rfl

@[simp] lemma expect_renumber (feature : Feature) :
    (r.renumber ρ).expect feature = (r.expect feature).map (Ty.renumber ρ) := by cases r <;> rfl

@[simp] lemma display_renumber : (r.renumber ρ).display = r.display := by
  cases r with
  | type t => exact t.name_renumber ρ
  | plain handle v => rfl

@[simp] lemma className_renumber : (r.renumber ρ).className = r.className := by
  cases r with
  | type t => exact t.className_renumber ρ
  | plain handle v => rfl

@[simp] lemma checkHashable_renumber : (r.renumber ρ).checkHashable = r.checkHashable := by cases r <;> rfl

@[simp] lemma outline_renumber (indent : String) : (r.renumber ρ).outline indent = r.outline indent := by
  cases r with
  | type t => exact t.outline_renumber ρ indent
  | plain handle v => rfl

@[simp] lemma isSame_renumber : (r.renumber ρ).isSame (s.renumber ρ) = r.isSame s := by
  cases r <;> cases s <;> simp [isSame, ρ.id_inj]

@[simp] lemma isSameMember_renumber : (r.renumber ρ).isSameMember (s.renumber ρ) = r.isSameMember s := by
  unfold isSameMember
  rw [isSame_renumber]
  cases r <;> cases s <;> rfl

@[simp] lemma equals_renumber : (r.renumber ρ).equals (s.renumber ρ) = r.equals s := by
  cases r with
  | plain handle v => rfl
  | type t =>
    cases s with
    | type u => exact t.equals_renumber ρ ρ u
    | plain handle v => cases t <;> rfl

end Referent

@[simp] lemma Ty.renumber_refl (t : Ty) : t.renumber .refl = t := by
  induction t with
  | bare label => rfl
  | any label => rfl
  | predicate label pred => rfl
  | compound label op ts ih =>
    rw [Ty.renumber, Ty.renumberAll_eq, List.map_congr_left ih, List.map_id']
    rfl
  | without label left right ihl ihr =>
    rw [Ty.renumber, ihl, ihr]
    rfl
  | unary label outer extractor inner iho ihi =>
    rw [Ty.renumber, iho, ihi]
    rfl

@[simp] lemma Referent.renumber_refl (r : Referent) : r.renumber .refl = r := by
  cases r with
  | plain => rfl
  | type t => exact congrArg Referent.type t.renumber_refl

namespace Identity

def renumber (ρ : Renumbering) : Identity → Identity
  | .type id => .type (ρ.id id)
  | .plain handle => .plain handle

lemma renumber_injective (ρ : Renumbering) : Function.Injective (renumber ρ) := by
  intro i j h
  cases i <;> cases j <;> simp_all [renumber, ρ.id_inj]

end Identity

@[simp] lemma Referent.identity_renumber (ρ : Renumbering) (r : Referent) :
    (r.renumber ρ).identity = r.identity.renumber ρ := by
  cases r with
  | type t => exact congrArg Identity.type (t.id_renumber ρ)
  | plain handle v => rfl

def Edges.renumber (ρ : Renumbering) (e : Edges) : Edges :=
  ⟨e.subsets?.map (·.map (Referent.renumber ρ)), e.supersets?.map (·.map (Referent.renumber ρ))⟩

@[simp] lemma Edges.get?_renumber (ρ : Renumbering) (e : Edges) (d : Direction) :
    (e.renumber ρ).get? d = (e.get? d).map (·.map (Referent.renumber ρ)) := by cases d <;> rfl

section Operands

variable (ρ : Renumbering)

lemma map_type_renumber (ts : List Ty) :
    (ts.map Referent.type).map (Referent.renumber ρ) = (ts.map (Ty.renumber ρ)).map Referent.type := by
  rw [List.map_map, List.map_map]
  rfl

lemma splice_renumber {part? part?' : Referent → Option (List Referent)} {left right : Referent}
    (hl : part?' (left.renumber ρ) = (part? left).map (·.map (Referent.renumber ρ)))
    (hr : part?' (right.renumber ρ) = (part? right).map (·.map (Referent.renumber ρ))) :
    splice part?' (left.renumber ρ) (right.renumber ρ) =
      (splice part? left right).map (Referent.renumber ρ) := by
  unfold splice
  rw [hl, hr]
  cases part? left <;> cases part? right <;> simp

def Ranked.renumber (a : Ranked) : Ranked := ⟨a.canonicalName, ρ.serial a.serial, a.type.renumber ρ⟩

lemma ofReferent_renumber (r : Referent) :
    Ranked.ofReferent (r.renumber ρ) = (Ranked.ofReferent r).map (Ranked.renumber ρ) := by
  cases r with
  | plain handle v => rfl
  | type t =>
    rw [Referent.renumber_type, ofReferent_eq, ofReferent_eq, Ty.canonicalName_renumber, Ty.serial_renumber]
    cases t.canonicalName <;> rfl

lemma precedes_renumber (a b : Ranked) : (a.renumber ρ).precedes (b.renumber ρ) = a.precedes b := by
  unfold Ranked.precedes Ranked.renumber
  simp only [ρ.serial_le]

lemma insert_renumber (a : Ranked) (rs : List Ranked) :
    (a.renumber ρ).insert (rs.map (Ranked.renumber ρ)) = (a.insert rs).map (Ranked.renumber ρ) := by
  induction rs with
  | nil => rfl
  | cons b rs ih =>
    rw [List.map_cons, Ranked.insert, Ranked.insert, precedes_renumber, ih]
    split <;> rfl

lemma sort_renumber (rs : List Ranked) :
    Ranked.sort (rs.map (Ranked.renumber ρ)) = (Ranked.sort rs).map (Ranked.renumber ρ) := by
  induction rs with
  | nil => rfl
  | cons a rs ih => rw [List.map_cons, Ranked.sort, Ranked.sort, ih, insert_renumber]

lemma mapM_map_attempt {α β γ δ : Type} {f : α → Attempt β} {g : γ → Attempt δ} {h : α → γ} {k : β → δ}
    {as : List α} (hfg : ∀ a ∈ as, g (h a) = (f a).map k) :
    (as.map h).mapM g = (as.mapM f).map (·.map k) := by
  induction as with
  | nil => rfl
  | cons a as ih =>
    rw [List.map_cons, List.mapM_cons, List.mapM_cons, hfg a List.mem_cons_self,
      ih fun b hb => hfg b (List.mem_cons_of_mem a hb)]
    cases f a with
    | error fault => rfl
    | ok b => cases as.mapM f <;> rfl

/-- The order of operands does not depend on the numbers. -/
lemma mergeOperands_renumber (op : Operator) (left right : Referent) :
    mergeOperands op (left.renumber ρ) (right.renumber ρ) =
      (mergeOperands op left right).map (·.map (Ranked.renumber ρ)) := by
  have hpart : ∀ r : Referent, absorbedPart? op (r.renumber ρ) =
      (absorbedPart? op r).map (·.map (Referent.renumber ρ)) := by
    intro r
    cases r with
    | plain handle v => rfl
    | type t =>
      rw [Referent.renumber_type, absorbedPart?, absorbedPart?, Ty.absorbed?_renumber]
      cases t.absorbed? op with
      | none => rfl
      | some ts => exact congrArg some (map_type_renumber ρ ts).symm
  rw [mergeOperands_eq, mergeOperands_eq, splice_renumber ρ (hpart left) (hpart right),
    mapM_map_attempt fun r _ => ofReferent_renumber ρ r]
  cases (splice (absorbedPart? op) left right).mapM Ranked.ofReferent with
  | error fault => rfl
  | ok rs => exact congrArg Except.ok (sort_renumber ρ rs)

lemma dropRepeats_fold_renumber (rs ks : List Referent) :
    (rs.map (Referent.renumber ρ)).foldlM (fun kept r => do
      r.checkHashable
      return if kept.any (·.isSameMember r) then kept else kept ++ [r]) (ks.map (Referent.renumber ρ)) =
    ((rs.foldlM (fun kept r => do
      r.checkHashable
      return if kept.any (·.isSameMember r) then kept else kept ++ [r]) ks : Attempt (List Referent))).map
        (·.map (Referent.renumber ρ)) := by
  induction rs generalizing ks with
  | nil => rfl
  | cons r rs ih =>
    have hany : (ks.map (Referent.renumber ρ)).any (·.isSameMember (r.renumber ρ)) =
        ks.any (·.isSameMember r) := by
      rw [List.any_map]
      congr 1
      funext k
      exact Referent.isSameMember_renumber ρ k r
    have hkept : (if ks.any (·.isSameMember r) then ks.map (Referent.renumber ρ)
        else ks.map (Referent.renumber ρ) ++ [r.renumber ρ]) =
        (if ks.any (·.isSameMember r) then ks else ks ++ [r]).map (Referent.renumber ρ) := by
      split <;> simp
    rw [List.map_cons, List.foldlM_cons, List.foldlM_cons, Referent.checkHashable_renumber, hany, hkept]
    cases r.checkHashable with
    | error fault => rfl
    | ok => exact ih _

/-- Repeats are recognised by identity, so they are dropped alike. -/
lemma dropRepeats_renumber (rs : List Referent) : dropRepeats (rs.map (Referent.renumber ρ)) =
    (dropRepeats rs).map (·.map (Referent.renumber ρ)) := dropRepeats_fold_renumber ρ rs []

end Operands

end StructuralTypes
