import Mathlib.Data.List.Basic
import StructuralTypes.Outline
import StructuralTypes.Proofs.EqualityLaws

/-!
# What an outline shows

An outline has a line for each node: a tree of kinds and names, flattened from the top. Indentation is all that is left
of the tree, and names may be any text without a line break, spaces and colons included. Still nothing is lost. A kind
starts with a letter and ends before the first colon, so each line tells its depth, its kind and the rest; and depths
tell where the lines below a node end.
-/

namespace StructuralTypes

/-- What an outline shows: the kind of each node, what else its line says, and the nodes below. -/
inductive Picture where
  | node (kind wording : String) (parts : List Picture)

namespace Picture

/-- The line of a node. -/
def line (depth : Nat) (kind wording : String) : String :=
  Ty.indentation Ty.defaultIndent depth ++ (kind ++ ": " ++ wording)

mutual

/-- The lines of a picture at some depth, a node before its parts. -/
def lines (depth : Nat) : Picture → List String
  | .node kind wording parts => line depth kind wording :: allLines (depth + 1) parts

def allLines (depth : Nat) : List Picture → List String
  | [] => []
  | p :: ps => lines depth p ++ allLines depth ps

end

end Picture

namespace Ty

/-- What the line of a node adds at the end. -/
def note : Ty → String
  | .unary _ _ extractor _ => extractorNote extractor
  | _ => ""

/-- What the line of a node says after the kind. -/
def wording (t : Ty) : String :=
  let names := t.label.names?.getD []
  let name := names.headD ""
  let canonical := names.getLastD ""
  name ++ (if name ≠ canonical then " = " ++ canonical else "") ++ t.note

mutual

def picture : Ty → Picture
  | .bare label => .node "" (wording (.bare label)) []
  | .any label => .node "any" (wording (.any label)) []
  | .predicate label pred => .node "predicate" (wording (.predicate label pred)) []
  | .compound label op operands => .node op.kind (wording (.compound label op operands)) (pictures operands)
  | .without label left right => .node "without" (wording (.without label left right)) [picture left, picture right]
  | .unary label outer extractor inner =>
    .node "unary" (wording (.unary label outer extractor inner)) [picture outer, picture inner]

def pictures : List Ty → List Picture
  | [] => []
  | t :: ts => picture t :: pictures ts

end

/-- `P` holds at every node of a tree. -/
inductive Everywhere (P : Ty → Prop) : Ty → Prop
  | node {t : Ty} : P t → (∀ p ∈ t.parts, Everywhere P p) → Everywhere P t

/-- The node has a line in an outline: it is not bare, and it has a name. -/
def Shown (t : Ty) : Prop := t.kind?.isSome = true ∧ ∃ name more, t.label.names? = some (name :: more)

/-- Every node of the tree has a line. -/
abbrev Drawable (t : Ty) : Prop := Everywhere Shown t

/-- The texts that the line of a node is made of: names, and what an extractor is called. -/
def texts (t : Ty) : List String :=
  t.label.names?.getD [] ++ (match t with
    | .unary _ _ extractor _ => extractor.name?.toList
    | _ => [])

/-- No name in the tree has a line break. -/
def Unbroken (t : Ty) : Prop := t.Everywhere fun n => ∀ text ∈ n.texts, '\n' ∉ text.toList

section Drawing

variable {t : Ty}

/-- The picture of a node, whatever its kind. -/
lemma picture_eq (t : Ty) : t.picture = .node (t.kind?.getD "") t.wording (t.parts.map picture) := by
  have hpictures : ∀ ts : List Ty, pictures ts = ts.map picture := by
    intro ts
    induction ts with
    | nil => rfl
    | cons t ts ih => rw [pictures, ih, List.map_cons]
  cases t with
  | compound label op ts => exact congrArg (Picture.node op.kind _) (hpictures ts)
  | _ => rfl

lemma lines_of_pair (line : Attempt String) (first second : Attempt (List String)) (f : String → String) :
    (do
      let line ← line
      let above ← first
      let below ← second
      return f line :: above ++ below) = (do
      let line ← line
      let rest ← (do
        let above ← first
        return above ++ (← (do
          let below ← second
          return below ++ (← (Except.ok [] : Attempt (List String))))))
      return f line :: rest) := by
  cases line with
  | error fault => rfl
  | ok line =>
    cases first with
    | error fault => rfl
    | ok above =>
      cases second with
      | error fault => rfl
      | ok below => exact congrArg (fun rest => Except.ok (f line :: (above ++ rest))) (List.append_nil below).symm

/-- Drawing a node, whatever its kind: its line and then its parts in order. -/
lemma outlineLines_eq_parts (hkind : t.kind?.isSome = true) (indent : String) (depth : Nat) :
    t.outlineLines indent depth = (do
      let line ← t.caption t.note
      let below ← operandLines indent (depth + 1) t.parts
      return (indentation indent depth ++ line) :: below) := by
  cases t with
  | bare label => cases hkind
  | any label | predicate label pred | compound label op ts =>
    rw [outlineLines]
    rfl
  | without label left right | unary label outer extractor inner =>
    rw [outlineLines, parts, operandLines, operandLines, operandLines]
    exact lines_of_pair _ _ _ (indentation indent depth ++ ·)

lemma caption_eq (h : t.Shown) : t.caption t.note = .ok (t.kind?.getD "" ++ ": " ++ t.wording) := by
  obtain ⟨hkind, name, more, hnames⟩ := h
  obtain ⟨kind, hkind⟩ := Option.isSome_iff_exists.mp hkind
  obtain ⟨canonical, hlast⟩ : ∃ canonical, (name :: more).getLast? = some canonical :=
    ⟨_, List.getLast?_eq_some_getLast (List.cons_ne_nil name more)⟩
  have hcanonical : (name :: more).getLastD "" = canonical := by
    rw [List.getLastD_eq_getLast?, hlast, Option.getD_some]
  have hnames' : t.names = .ok (name :: more) := by rw [Ty.names, hnames]
  have hname : t.name = .ok name := by rw [Ty.name, hnames']; rfl
  have hlast' : t.canonicalName = .ok canonical := by
    simp only [Ty.canonicalName, hnames', hlast, bind, Except.bind]
  have hkind' : t.kind = .ok kind := by rw [Ty.kind, hkind]
  rw [caption, hname, hlast', hkind', wording, hnames, hkind]
  simp only [Option.getD_some, List.headD_cons, hcanonical, String.append_assoc]
  rfl

lemma operandLines_eq {ts : List Ty} {depth : Nat}
    (h : ∀ t ∈ ts, t.outlineLines defaultIndent depth = .ok (t.picture.lines depth)) :
    operandLines defaultIndent depth ts = .ok (Picture.allLines depth (ts.map picture)) := by
  induction ts with
  | nil => rfl
  | cons t ts ih =>
    obtain ⟨ht, hts⟩ := List.forall_mem_cons.mp h
    rw [operandLines, ht, ih hts]
    rfl

/-- Drawing never fails where every node has a line, and it gives the lines of the picture. -/
lemma outlineLines_eq (h : t.Drawable) (depth : Nat) :
    t.outlineLines defaultIndent depth = .ok (t.picture.lines depth) := by
  induction h generalizing depth with
  | @node t hshown _ ih =>
    rw [outlineLines_eq_parts hshown.1, caption_eq hshown, operandLines_eq fun p hp => ih p hp (depth + 1), picture_eq,
      Picture.lines]
    rfl

end Drawing

end Ty

section Reading

/-- Two texts that fall into a part where `p` holds throughout and one that does not start so fall apart alike. -/
lemma append_inj_of_span {α : Type} {p : α → Bool} {xs xs' ys ys' : List α} (hxs : ∀ a ∈ xs, p a = true)
    (hxs' : ∀ a ∈ xs', p a = true) (hys : ∀ a ∈ ys.head?, p a = false) (hys' : ∀ a ∈ ys'.head?, p a = false)
    (h : xs ++ ys = xs' ++ ys') : xs = xs' ∧ ys = ys' := by
  have hspan : ∀ {xs ys : List α}, (∀ a ∈ xs, p a = true) → (∀ a ∈ ys.head?, p a = false) →
      (xs ++ ys).takeWhile p = xs := by
    intro xs ys hxs hys
    rw [List.takeWhile_append_of_pos hxs]
    cases ys with
    | nil => rw [List.takeWhile_nil, List.append_nil]
    | cons y ys => rw [List.takeWhile_cons_of_neg (by simp [hys y rfl]), List.append_nil]
  have heq : xs = xs' := by rw [← hspan hxs hys, h, hspan hxs' hys']
  subst heq
  exact ⟨rfl, List.append_cancel_left h⟩

namespace Picture

/-- What can be told apart from indentation before it and from what follows a colon. -/
def IsKind (kind : String) : Prop := kind.toList.head? ≠ some ' ' ∧ ':' ∉ kind.toList ∧ '\n' ∉ kind.toList

instance (kind : String) : Decidable (IsKind kind) := inferInstanceAs (Decidable (_ ∧ _ ∧ _))

/-- Every node of the picture has a kind that can be told apart from the rest of its line. -/
inductive Legible : Picture → Prop
  | node {kind : String} (wording : String) {parts : List Picture} : IsKind kind → (∀ p ∈ parts, Legible p) →
      Legible (.node kind wording parts)

lemma toList_indentation (depth : Nat) :
    (Ty.indentation Ty.defaultIndent depth).toList = List.replicate (2 * depth) ' ' := by
  rw [Ty.indentation, String.toList_join]
  induction depth with
  | zero => rfl
  | succ depth ih =>
    rw [List.replicate_succ, List.flatMap_cons, ih, Nat.mul_succ, List.replicate_succ, List.replicate_succ]
    rfl

lemma toList_line (depth : Nat) (kind wording : String) :
    (line depth kind wording).toList =
      List.replicate (2 * depth) ' ' ++ (kind.toList ++ ':' :: ' ' :: wording.toList) := by
  simp [line, toList_indentation, String.toList_append]

variable {depth depth' : Nat} {kind kind' wording wording' : String}

/-- No line starts with a space after its indentation. -/
lemma IsKind.head (h : IsKind kind) (rest : List Char) :
    ∀ c ∈ (kind.toList ++ ':' :: rest).head?, (c == ' ') = false := by
  intro c hc
  cases hkind : kind.toList with
  | nil =>
    rw [hkind] at hc
    obtain rfl := Option.some.inj hc
    rfl
  | cons first others =>
    rw [hkind] at hc
    obtain rfl := Option.some.inj hc
    refine beq_false_of_ne fun hspace => h.1 ?_
    rw [hkind, hspace, List.head?_cons]

/-- A line tells its depth, its kind and what else it says. -/
lemma line_injective (hkind : IsKind kind) (hkind' : IsKind kind')
    (h : line depth kind wording = line depth' kind' wording') :
    depth = depth' ∧ kind = kind' ∧ wording = wording' := by
  have htexts := congrArg String.toList h
  rw [toList_line, toList_line] at htexts
  obtain ⟨hindent, hrest⟩ := append_inj_of_span (p := (· == ' ')) (by simp) (by simp) (hkind.head _)
    (hkind'.head _) htexts
  have hcolon : ∀ {k : String}, IsKind k → ∀ c ∈ k.toList, (c != ':') = true :=
    fun hk c hc => bne_iff_ne.mpr fun hcolon => hk.2.1 (hcolon ▸ hc)
  obtain ⟨hsame, hwording⟩ := append_inj_of_span (p := (· != ':')) (hcolon hkind) (hcolon hkind') (by simp)
    (by simp) hrest
  refine ⟨?_, String.toList_inj.mp hsame, String.toList_inj.mp (List.cons.inj (List.cons.inj hwording).2).2⟩
  have hlength := congrArg List.length hindent
  rw [List.length_replicate, List.length_replicate] at hlength
  omega

/-- The lines, if there are any, start higher up than at this depth. -/
def StartsAbove (depth : Nat) (ls : List String) : Prop :=
  ∀ depth' kind wording, IsKind kind → ls.head? = some (line depth' kind wording) → depth' < depth

lemma startsAbove_allLines {ps : List Picture} {ls : List String} (hps : ∀ p ∈ ps, p.Legible)
    (hls : StartsAbove depth ls) : StartsAbove (depth + 1) (allLines depth ps ++ ls) := by
  intro depth' kind' wording' hkind' hhead
  cases ps with
  | nil => exact (hls depth' kind' wording' hkind' hhead).trans (Nat.lt_succ_self depth)
  | cons p ps =>
    cases hps p List.mem_cons_self with
    | @node kind wording parts hkind hparts =>
      rw [allLines, lines] at hhead
      obtain ⟨rfl, -, -⟩ := line_injective hkind hkind' (Option.some.inj hhead)
      exact Nat.lt_succ_self depth

lemma not_startsAbove {p : Picture} {ps : List Picture} {ls : List String} (hp : p.Legible) :
    ¬StartsAbove depth (allLines depth (p :: ps) ++ ls) := by
  intro habove
  cases hp with
  | @node kind wording parts hkind hparts => exact absurd (habove depth kind wording hkind rfl) (Nat.lt_irrefl depth)

/-- Depths tell where the lines of some pictures end, and the lines tell the pictures. -/
lemma allLines_injective {ps qs : List Picture} {ls ls' : List String} (hps : ∀ p ∈ ps, p.Legible)
    (hqs : ∀ q ∈ qs, q.Legible) (hls : StartsAbove depth ls) (hls' : StartsAbove depth ls')
    (h : allLines depth ps ++ ls = allLines depth qs ++ ls') : ps = qs ∧ ls = ls' := by
  -- The lines below a node and those after it are both fewer.
  induction hcount : (allLines depth ps).length using Nat.strong_induction_on generalizing ps qs depth ls ls' with
  | _ count ih =>
    cases ps with
    | nil =>
      cases qs with
      | nil => exact ⟨rfl, h⟩
      | cons q qs =>
        rw [show ls = allLines depth (q :: qs) ++ ls' from h] at hls
        exact absurd hls (not_startsAbove (hqs q List.mem_cons_self))
    | cons p ps =>
      cases qs with
      | nil =>
        rw [show ls' = allLines depth (p :: ps) ++ ls from h.symm] at hls'
        exact absurd hls' (not_startsAbove (hps p List.mem_cons_self))
      | cons q qs =>
        obtain ⟨hp, hlater⟩ := List.forall_mem_cons.mp hps
        obtain ⟨hq, hlater'⟩ := List.forall_mem_cons.mp hqs
        cases hp with
        | @node kind wording parts hkind hparts =>
          cases hq with
          | @node kind' wording' parts' hkind' hparts' =>
            simp only [allLines, lines, List.cons_append, List.append_assoc, List.cons.injEq] at h
            simp only [allLines, lines, List.cons_append, List.length_cons, List.length_append] at hcount
            obtain ⟨-, rfl, rfl⟩ := line_injective hkind hkind' h.1
            obtain ⟨rfl, hafter⟩ := ih _ (by omega) hparts hparts' (startsAbove_allLines hlater hls)
              (startsAbove_allLines hlater' hls') h.2 rfl
            obtain ⟨rfl, hrest⟩ := ih _ (by omega) hlater hlater' hls hls' hafter rfl
            exact ⟨rfl, hrest⟩

lemma lines_injective {p q : Picture} (hp : p.Legible) (hq : q.Legible) (h : p.lines 0 = q.lines 0) : p = q := by
  have hnothing : StartsAbove 0 [] := fun _ _ _ _ hhead => by cases hhead
  have hforest : allLines 0 [p] ++ [] = allLines 0 [q] ++ [] := by rw [allLines, allLines, h]; rfl
  obtain ⟨hsame, -⟩ := allLines_injective (List.forall_mem_singleton.mpr hp) (List.forall_mem_singleton.mpr hq)
    hnothing hnothing hforest
  exact (List.cons.inj hsame).1

end Picture

namespace Ty

variable {t : Ty}

lemma isKind_kind (t : Ty) : Picture.IsKind (t.kind?.getD "") := by
  cases t with
  | bare => exact (by decide : Picture.IsKind "")
  | any => exact (by decide : Picture.IsKind "any")
  | predicate => exact (by decide : Picture.IsKind "predicate")
  | compound label op ts =>
    cases op with
    | intersection => exact (by decide : Picture.IsKind "intersection")
    | union => exact (by decide : Picture.IsKind "union")
    | difference => exact (by decide : Picture.IsKind "difference")
  | without => exact (by decide : Picture.IsKind "without")
  | unary => exact (by decide : Picture.IsKind "unary")

lemma legible_picture (t : Ty) : t.picture.Legible := by
  have hnode : ∀ t : Ty, (∀ p ∈ t.parts, p.picture.Legible) → t.picture.Legible := by
    intro t hparts
    rw [picture_eq]
    exact .node _ t.isKind_kind (List.forall_mem_map.mpr hparts)
  induction t with
  | bare | any | predicate => exact hnode _ (List.forall_mem_nil _)
  | compound label op ts ih => exact hnode _ ih
  | without label left right ihl ihr =>
    exact hnode _ (List.forall_mem_cons.mpr ⟨ihl, List.forall_mem_singleton.mpr ihr⟩)
  | unary label outer extractor inner iho ihi =>
    exact hnode _ (List.forall_mem_cons.mpr ⟨iho, List.forall_mem_singleton.mpr ihi⟩)

/-- An outline has a line for each node. -/
lemma length_lines (t : Ty) (depth : Nat) : (t.picture.lines depth).length = t.size := by
  induction t generalizing depth with
  | bare | any | predicate => rfl
  | compound label op ts ih =>
    have hoperands : (Picture.allLines (depth + 1) (ts.map picture)).length = sizes ts := by
      induction ts with
      | nil => rfl
      | cons t ts ihts =>
        obtain ⟨ht, hts⟩ := List.forall_mem_cons.mp ih
        rw [List.map_cons, Picture.allLines, List.length_append, ht, ihts hts, sizes]
    rw [picture_eq, Picture.lines, List.length_cons, parts, hoperands, size]
  | without label left right ihl ihr =>
    rw [picture, Picture.lines, List.length_cons]
    simp only [Picture.allLines, List.length_append, List.length_nil, ihl, ihr, size]
    omega
  | unary label outer extractor inner iho ihi =>
    rw [picture, Picture.lines, List.length_cons]
    simp only [Picture.allLines, List.length_append, List.length_nil, iho, ihi, size]
    omega

lemma note_unbroken (h : ∀ text ∈ t.texts, '\n' ∉ text.toList) : '\n' ∉ t.note.toList := by
  cases t with
  | unary label outer extractor inner =>
    cases hname : extractor.name? with
    | none =>
      rw [note, extractorNote, hname]
      decide
    | some name =>
      have hmem : name ∈ (unary label outer extractor inner).texts :=
        List.mem_append_right _ (Option.mem_toList.mpr hname)
      rw [note, extractorNote, hname, Option.getD_some, String.toList_append, List.mem_append, not_or]
      exact ⟨by decide, h name hmem⟩
  | _ => exact List.not_mem_nil

lemma wording_unbroken (h : ∀ text ∈ t.texts, '\n' ∉ text.toList) : '\n' ∉ t.wording.toList := by
  have hnames : ∀ text ∈ t.label.names?.getD [], '\n' ∉ text.toList :=
    fun text htext => h text (List.mem_append_left _ htext)
  have hfirst : '\n' ∉ ((t.label.names?.getD []).headD "").toList := by
    cases hempty : t.label.names?.getD [] with
    | nil => exact List.not_mem_nil
    | cons name more => exact hnames name (hempty ▸ List.mem_cons_self)
  have hlast : '\n' ∉ ((t.label.names?.getD []).getLastD "").toList := by
    rw [List.getLastD_eq_getLast?]
    cases hempty : (t.label.names?.getD []).getLast? with
    | none => exact List.not_mem_nil
    | some name => exact hnames name (List.mem_of_getLast? hempty)
  have hnote := note_unbroken h
  unfold wording
  dsimp only
  split
  · simp only [String.toList_append, List.mem_append, not_or]
    exact ⟨⟨hfirst, by decide, hlast⟩, hnote⟩
  · simp only [String.toList_append, List.mem_append, not_or]
    exact ⟨⟨hfirst, List.not_mem_nil⟩, hnote⟩

/-- Where no name has a line break, no line has one. -/
lemma Unbroken.lines (h : t.Unbroken) (depth : Nat) : ∀ line ∈ t.picture.lines depth, '\n' ∉ line.toList := by
  induction h generalizing depth with
  | @node t htexts _ ih =>
    have hbelow : ∀ (ps : List Ty) (depth : Nat),
        (∀ p ∈ ps, ∀ line ∈ p.picture.lines depth, '\n' ∉ line.toList) →
        ∀ line ∈ Picture.allLines depth (ps.map picture), '\n' ∉ line.toList := by
      intro ps depth hps
      induction ps with
      | nil => exact List.forall_mem_nil _
      | cons p ps ihps =>
        obtain ⟨hp, hrest⟩ := List.forall_mem_cons.mp hps
        rw [List.map_cons, Picture.allLines]
        exact List.forall_mem_append.mpr ⟨hp, ihps hrest⟩
    rw [picture_eq, Picture.lines]
    refine List.forall_mem_cons.mpr ⟨?_, hbelow t.parts (depth + 1) fun p hp => ih p hp (depth + 1)⟩
    have hkind := t.isKind_kind.2.2
    have hwording := wording_unbroken htexts
    simp [Picture.toList_line, hkind, hwording]

/-- An outline is the lines of the picture, and these can be told apart again. -/
lemma outline_eq (hshown : t.Drawable) (h : t.Unbroken) :
    ∃ text, t.outline defaultIndent = .ok text ∧ text = "\n".intercalate (t.picture.lines 0) ∧
      text.toList.splitOn '\n' = (t.picture.lines 0).map String.toList := by
  refine ⟨_, ?_, rfl, ?_⟩
  · rw [outline, outlineLines_eq hshown]
    rfl
  · rw [String.toList_intercalate]
    refine List.splitOn_intercalate '\n' (List.forall_mem_map.mpr (h.lines 0)) fun hnil => ?_
    have hlength := t.length_lines 0
    rw [List.map_eq_nil_iff.mp hnil] at hlength
    exact absurd hlength.symm t.size_pos.ne'

end Ty

end Reading

section Construction

/-- A type that constructors make of tests and the type of all values. Each step may be taken in another lattice,
with whatever edges. -/
inductive Constructed : Ty → Prop
  | any (l : Lattice) {t : Ty} : (Build.any l).1 = .ok t → Constructed t
  | predicate (l : Lattice) (pred : Fn) (name? : Option String) {t : Ty} :
      (Build.predicate pred name? l).1 = .ok t → Constructed t
  | refine (l : Lattice) (f : Refiner) (others : List Ty) {s t : Ty} : (∀ u ∈ others, Constructed u) →
      f.Allowed { documented := False, differences := True } others → Constructed s →
      (f.apply (.type s) l).1 = .ok t → Constructed t

variable {t left right : Ty}

namespace Ty

lemma Everywhere.here {P : Ty → Prop} (h : t.Everywhere P) : P t := by
  cases h with
  | node hhere _ => exact hhere

lemma Everywhere.parts {P : Ty → Prop} (h : t.Everywhere P) : ∀ p ∈ t.parts, p.Everywhere P := by
  cases h with
  | node _ hparts => exact hparts

lemma Everywhere.contribution {P : Ty → Prop} (h : t.Everywhere P) (op : Operator) :
    ∀ u ∈ t.contribution op, u.Everywhere P := by
  intro u hu
  rcases contribution_parts hu with rfl | hu
  · exact h
  · exact h.parts u hu

/-- A copy under other names. -/
lemma Everywhere.setLabel (h : t.Drawable) {label : Label} {name : String} {more : List String}
    (hnames : label.names? = some (name :: more)) : (t.setLabel label).Drawable := by
  have hkind : (t.setLabel label).kind? = t.kind? := by cases t <;> rfl
  refine .node ⟨?_, name, more, ?_⟩ ?_
  · rw [hkind]
    exact h.here.1
  · rw [label_setLabel]
    exact hnames
  · rw [parts_setLabel]
    exact h.parts

end Ty

lemma shown_any : Ensures Build.any (Ty.Drawable) :=
  .next fun _ => .next fun _ => .pure (.node ⟨rfl, _, _, rfl⟩ (List.forall_mem_nil _))

lemma shown_predicate (pred : Fn) (name? : Option String) :
    Ensures (Build.predicate pred name?) (Ty.Drawable) :=
  .next fun _ => .next fun _ => .pure (.node ⟨rfl, _, _, rfl⟩ (List.forall_mem_nil _))

lemma shown_compound (op : Operator) (hl : left.Drawable) (hr : right.Drawable) :
    Ensures (Build.compound op (.type left) (.type right)) (Ty.Drawable) := by
  refine .next fun serial => .attempt fun ranked hranked => .attempt fun docs _ => ?_
  refine .next fun l => .attempt fun edges _ => .next fun id => .pure (.node ⟨rfl, _, _, rfl⟩ fun p hp => ?_)
  rcases List.mem_append.mp ((mergeOperands_perm hranked).mem_iff.mp hp) with hp | hp
  · exact hl.contribution op p hp
  · exact hr.contribution op p hp

lemma shown_excluded (hr : right.Drawable) :
    Ensures (Build.excluded (.type right)) fun r => ∃ t, r = .type t ∧ t.Drawable := by
  cases right with
  | without label a b =>
    have ha := hr.parts a List.mem_cons_self
    have hb := hr.parts b (List.mem_cons_of_mem a List.mem_cons_self)
    exact (shown_compound .union ha hb).bind fun t ht => .pure ⟨t, rfl, ht⟩
  | _ => exact .pure ⟨_, rfl, hr⟩

lemma shown_without (hl : left.Drawable) (hr : right.Drawable) :
    Ensures (Build.without (.type left) (.type right)) (Ty.Drawable) := by
  refine .next fun serial => (shown_excluded hr).bind ?_
  rintro _ ⟨taken, rfl, htaken⟩
  refine .attempt ?_
  rintro _ ⟨⟩
  refine .next fun leftName => .attempt ?_
  rintro _ ⟨⟩
  refine .next fun _ => .next fun _ => .next fun _ => .next fun _ => .pure (.node ⟨rfl, _, _, rfl⟩ ?_)
  exact List.forall_mem_cons.mpr ⟨hl, List.forall_mem_singleton.mpr htaken⟩

lemma shown_container (extractor : Fn) (ho : left.Drawable) (hi : right.Drawable) :
    Ensures (Build.container (.type left) extractor (.type right)) (Ty.Drawable) := by
  refine .next fun serial => .attempt ?_
  rintro _ ⟨⟩
  refine .next fun outerName => .attempt ?_
  rintro _ ⟨⟩
  refine .next fun _ => .next fun _ => .next fun _ => .next fun _ => .pure (.node ⟨rfl, _, _, rfl⟩ ?_)
  exact List.forall_mem_cons.mpr ⟨ho, List.forall_mem_singleton.mpr hi⟩

lemma shown_relabel {names? docs? : Option (List String)} (ht : t.Drawable) {name : String} {more : List String}
    (hnames : names?.or t.label.names? = some (name :: more)) :
    Ensures (Build.relabel t names? docs?) Ty.Drawable :=
  .next fun _ => .next fun _ => .pure (ht.setLabel hnames)

/-- Whatever functions from types to types make of drawable types can be drawn. -/
lemma shown_apply {terms : Terms} {f : Refiner} {others : List Ty} (hothers : ∀ u ∈ others, u.Drawable)
    (hf : f.Allowed terms others) (ht : t.Drawable) : Ensures (f.apply (.type t)) Ty.Drawable := by
  obtain ⟨-, name, more, hlabel⟩ := ht.here
  have hnames : t.names = .ok (name :: more) := by rw [Ty.names, hlabel]
  cases f with
  | operator op left => exact shown_compound op (hothers left hf.2) ht
  | without left => exact shown_without (hothers left hf) ht
  | container outer extractor => exact shown_container extractor (hothers outer hf) ht
  | suchThat pred => exact (shown_predicate pred none).bind fun guard hguard => shown_compound .intersection hguard ht
  | withAlias added =>
    refine .attempt ?_
    rintro _ ⟨⟩
    exact .next fun names => shown_relabel ht rfl
  | withoutAlias =>
    refine .attempt ?_
    rintro _ ⟨⟩
    refine .attempt fun names hsame => ?_
    obtain rfl := Except.ok.inj (hnames.symm.trans hsame)
    by_cases hone : (name :: more).length = 1
    · rw [if_pos hone]
      exact .pure ht
    · -- Only the first of several names is dropped.
      rw [if_neg hone]
      cases more with
      | nil => exact absurd rfl hone
      | cons next rest => exact shown_relabel ht rfl
  | withDocs docs =>
    refine .attempt ?_
    rintro _ ⟨⟩
    exact shown_relabel ht hlabel

lemma Constructed.drawable (h : Constructed t) : t.Drawable := by
  induction h with
  | any l ht => exact shown_any l _ ht
  | predicate l pred name? ht => exact shown_predicate pred name? l _ ht
  | refine l f others _ hf _ ht ihothers ih => exact shown_apply ihothers hf ih l _ ht

end Construction

/-- An outline has a line for each node, and two types have the same outline exactly if their trees have the same
shape with the same kinds and the same wording, provided that no name has a line break. -/
theorem Constructed.outline_faithful {t u : Ty} (ht : Constructed t) (hu : Constructed u) (htext : t.Unbroken)
    (hutext : u.Unbroken) :
    ∃ text text', t.outline Ty.defaultIndent = .ok text ∧ u.outline Ty.defaultIndent = .ok text' ∧
      (text.toList.splitOn '\n').length = t.size ∧ (text = text' ↔ t.picture = u.picture) := by
  obtain ⟨text, houtline, heq, hsplit⟩ := Ty.outline_eq ht.drawable htext
  obtain ⟨text', houtline', heq', hsplit'⟩ := Ty.outline_eq hu.drawable hutext
  refine ⟨text, text', houtline, houtline', ?_, fun hsame => ?_, fun hsame => ?_⟩
  · rw [hsplit, List.length_map, Ty.length_lines]
  · have hlines : (t.picture.lines 0).map String.toList = (u.picture.lines 0).map String.toList := by
      rw [← hsplit, ← hsplit', hsame]
    have hinjective : Function.Injective String.toList := fun _ _ => String.toList_inj.mp
    exact Picture.lines_injective t.legible_picture u.legible_picture (List.map_injective_iff.mpr hinjective hlines)
  · rw [heq, heq', hsame]

/-- Two containers whose names look like lines of their own, one of them a copy of the other under a name that looks
like a note. -/
theorem Constructed.outline_faithful_lookalikes :
    let leaf : Ty := .predicate ⟨0, 0, some ["  any: b"], some [Build.docLink "predicate"]⟩ (.named "f")
    let docs := [Build.docLink "unary", Build.docLink "predicate", Build.docLink "predicate"]
    let name := "(" ++ "  any: b" ++ " " ++ "  any: b" ++ ")"
    let t : Ty := .unary ⟨0, 0, some [name], some docs⟩ leaf (.named "elements") leaf
    let u : Ty := .unary ⟨0, 0, some ["a by elements", name], some docs⟩ leaf (.named "elements") leaf
    Constructed t ∧ Constructed u ∧ t.Unbroken ∧ u.Unbroken ∧
      ∃ text text', t.outline Ty.defaultIndent = .ok text ∧ u.outline Ty.defaultIndent = .ok text' ∧
        (text.toList.splitOn '\n').length = 3 ∧ (text = text' ↔ t.picture = u.picture) := by
  intro leaf docs name t u
  have hleaf : Constructed leaf := .predicate .empty (.named "f") (some "  any: b") rfl
  have ht : Constructed t := .refine .empty (.container leaf (.named "elements")) [leaf]
    (List.forall_mem_singleton.mpr hleaf) List.mem_cons_self hleaf rfl
  have hu : Constructed u := .refine .empty (.withAlias "a by elements") [] (List.forall_mem_nil _) trivial ht rfl
  have hparts : ∀ p ∈ [leaf, leaf], p.Unbroken :=
    List.forall_mem_cons.mpr ⟨.node (by decide +kernel) (List.forall_mem_nil _),
      List.forall_mem_singleton.mpr (.node (by decide +kernel) (List.forall_mem_nil _))⟩
  have htext : t.Unbroken := .node (by decide +kernel) hparts
  have hutext : u.Unbroken := .node (by decide +kernel) hparts
  exact ⟨ht, hu, htext, hutext, Constructed.outline_faithful ht hu htext hutext⟩

end StructuralTypes
