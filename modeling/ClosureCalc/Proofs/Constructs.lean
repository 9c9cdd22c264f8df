/-
The constructs around a node.

A node of a program lies inside constructs, blocks and functions, each inside
the next.

* `Encloses`: the constructs around a node, innermost first.
* `Stmt.marks`: the places in a statement, each with the constructs around it.
* `Node.Placed`: the parts of a node have the right places; `Encloses.placed`: those
  of a program do.
* `Encloses.unique`: in a program that was read from a text the constructs
  around a node are determined, since no two nodes begin with the same token
  inside different constructs.
-/
import ClosureCalc.Proofs.Discipline
import ClosureCalc.Proofs.Leaves
import ClosureCalc.Proofs.Places
import Mathlib.Data.List.Nodup

namespace ClosureCalc

/-- The construct that a statement of a unit is. -/
def Stmt.construct? (unit : Nat) : Stmt → Option Construct
  | .block p _ body => some (.block unit p body)
  | .func p name params _ body => some (.function ⟨unit, p, name, params, body⟩)
  | _ => none

/-- A name is a parameter of the construct or declared by one of its
statements. -/
def Construct.Declares (k : Construct) (name : String) : Prop :=
  name ∈ k.params ∨ ∃ st ∈ k.body, st.declared? = some name

/-- **The constructs around a node** of the program of a unit, innermost
first. -/
inductive Encloses (unit : Nat) (p : Program) : List Construct → Node → Prop
  | top {st : Stmt} (h : st ∈ p.body) : Encloses unit p [] (.stmt st)
  | inner {ks : List Construct} {k : Construct} {st st' : Stmt}
      (h : Encloses unit p ks (.stmt st)) (hk : st.construct? unit = some k)
      (hst : st' ∈ k.body) : Encloses unit p (k :: ks) (.stmt st')
  | ofStmt {ks : List Construct} {st : Stmt} {e : Expr}
      (h : Encloses unit p ks (.stmt st)) (he : e ∈ st.parts) :
      Encloses unit p ks (.expr e)
  | part {ks : List Construct} {e e' : Expr} (h : Encloses unit p ks (.expr e))
      (he : e' ∈ e.parts) : Encloses unit p ks (.expr e')

/-- A statement belongs to the innermost construct around it. -/
lemma Encloses.mem_body {unit : Nat} {p : Program} {k : Construct} {ks : List Construct}
    {st : Stmt} (h : Encloses unit p (k :: ks) (.stmt st)) : st ∈ k.body := by
  cases h with
  | inner _ _ hst => exact hst

/-! ### Places with the constructs around them -/

mutual

/-- The places in a statement, each with the constructs around it, where `ks`
are those around the statement. -/
def Stmt.marks (unit : Nat) (ks : List Construct) : Stmt → List (Position × List Construct)
  | .var p _ init => (p, ks) :: (Expr.placesAll init.toList).map (·, ks)
  | .ret p value => (p, ks) :: (Expr.placesAll value.toList).map (·, ks)
  | .func p name params _ body =>
    (p, ks) :: Stmt.marksAll unit (.function ⟨unit, p, name, params, body⟩ :: ks) body
  | .block p _ body => (p, ks) :: Stmt.marksAll unit (.block unit p body :: ks) body
  | .expr _ e => e.places.map (·, ks)

/-- The places in some statements, each with the constructs around it. -/
def Stmt.marksAll (unit : Nat) (ks : List Construct) :
    List Stmt → List (Position × List Construct)
  | [] => []
  | st :: rest => st.marks unit ks ++ Stmt.marksAll unit ks rest

end

/-- The places in a node, each with the constructs around it. -/
def Node.marks (unit : Nat) (ks : List Construct) : Node → List (Position × List Construct)
  | .expr e => e.places.map (·, ks)
  | .stmt st => st.marks unit ks

/-- The place of a node. -/
def Node.pos : Node → Position
  | .expr e => e.pos
  | .stmt st => st.pos

/-- The parts of a node have the right places. -/
def Node.Placed : Node → Prop
  | .expr e => e.Placed
  | .stmt st => st.Placed

section Marks

variable {unit : Nat} {ks : List Construct}

mutual

lemma Stmt.map_fst_marks : ∀ (ks : List Construct) (st : Stmt),
    (st.marks unit ks).map Prod.fst = st.places
  | ks, .var p name init => by simp [marks, places, Function.comp_def]
  | ks, .ret p value => by simp [marks, places, Function.comp_def]
  | ks, .func p name params bodyPos body => by
      rw [marks, places, List.map_cons, Stmt.map_fst_marksAll]
  | ks, .block p bodyPos body => by rw [marks, places, List.map_cons, Stmt.map_fst_marksAll]
  | ks, .expr p e => by simp [marks, places, Function.comp_def]

lemma Stmt.map_fst_marksAll : ∀ (ks : List Construct) (sts : List Stmt),
    (Stmt.marksAll unit ks sts).map Prod.fst = Stmt.placesAll sts
  | ks, [] => rfl
  | ks, st :: rest => by
      rw [marksAll, placesAll, List.map_append, Stmt.map_fst_marks, Stmt.map_fst_marksAll]

end

/-- The place of an expression is one of those in it. -/
lemma Expr.Placed.pos_mem_places {e : Expr} (h : e.Placed) : e.pos ∈ e.places := by
  induction h with
  | number | identifier | unary => exact List.mem_cons_self
  | binary hpos _ _ ih _ => exact hpos ▸ List.mem_append_left _ ih
  | call hpos _ _ ih _ => exact hpos ▸ List.mem_append_left _ ih

/-- The place of a node is one of those in it, around which are the constructs around
the node. -/
lemma Node.Placed.mem_marks {node : Node} (h : node.Placed) :
    (node.pos, ks) ∈ node.marks unit ks := by
  cases node with
  | expr e => exact List.mem_map_of_mem (Expr.Placed.pos_mem_places h)
  | stmt st =>
    cases h with
    | expr hpos he => exact List.mem_map_of_mem (hpos ▸ he.pos_mem_places)
    | _ => exact List.mem_cons_self

lemma Stmt.marks_subset_marksAll {st : Stmt} {sts : List Stmt} (h : st ∈ sts) :
    st.marks unit ks ⊆ Stmt.marksAll unit ks sts := by
  induction sts with
  | nil => simp at h
  | cons st' rest ih =>
    rw [marksAll]
    rcases List.mem_cons.1 h with rfl | h
    · exact List.subset_append_left _ _
    · exact List.Subset.trans (ih h) (List.subset_append_right _ _)

/-- What is inside a construct has one construct more around it. -/
lemma Stmt.marksAll_body_subset {st : Stmt} {k : Construct} (h : st.construct? unit = some k) :
    Stmt.marksAll unit (k :: ks) k.body ⊆ st.marks unit ks := by
  cases st with
  | block p bodyPos body =>
    cases h
    exact List.subset_cons_self _ _
  | func p name params bodyPos body =>
    cases h
    exact List.subset_cons_self _ _
  | _ => cases h

lemma Expr.places_subset_placesAll {e : Expr} {es : List Expr} (h : e ∈ es) :
    e.places ⊆ Expr.placesAll es := by
  rw [placesAll_eq]
  exact fun p hp => List.mem_flatMap.2 ⟨e, h, hp⟩

lemma Expr.places_subset_of_mem_parts {e e' : Expr} (h : e' ∈ e.parts) :
    e'.places ⊆ e.places := by
  cases e with
  | number p x => simp [parts] at h
  | identifier p name => simp [parts] at h
  | unary p op target =>
    rw [List.mem_singleton.1 h]
    exact List.subset_cons_self _ _
  | binary p op left right =>
    rcases List.mem_pair.1 h with rfl | rfl
    · exact List.subset_append_left _ _
    · exact List.subset_append_right _ _
  | call p callee args =>
    rcases List.mem_cons.1 h with rfl | h
    · exact List.subset_append_left _ _
    · exact List.Subset.trans (places_subset_placesAll h) (List.subset_append_right _ _)

lemma Stmt.marks_expr_subset {st : Stmt} {e : Expr} (h : e ∈ st.parts) :
    e.places.map (·, ks) ⊆ st.marks unit ks := by
  cases st with
  | var p name init =>
    exact List.Subset.trans (List.map_subset _ (Expr.places_subset_placesAll h))
      (List.subset_cons_self _ _)
  | ret p value =>
    exact List.Subset.trans (List.map_subset _ (Expr.places_subset_placesAll h))
      (List.subset_cons_self _ _)
  | expr p e' =>
    rw [List.mem_singleton.1 h]
    exact List.Subset.refl _
  | func p name params bodyPos body => simp [parts] at h
  | block p bodyPos body => simp [parts] at h

end Marks

namespace Encloses

variable {unit : Nat} {p : Program} {ks ks' : List Construct} {node : Node}

/-- The places in a node are places in the program, with the constructs around
them. -/
lemma marks_subset (h : Encloses unit p ks node) :
    node.marks unit ks ⊆ Stmt.marksAll unit [] p.body := by
  induction h with
  | top h => exact Stmt.marks_subset_marksAll h
  | inner _ hk hst ih =>
    refine List.Subset.trans (Stmt.marks_subset_marksAll hst) ?_
    exact List.Subset.trans (Stmt.marksAll_body_subset hk) ih
  | ofStmt _ he ih => exact List.Subset.trans (Stmt.marks_expr_subset he) ih
  | part _ he ih =>
    exact List.Subset.trans (List.map_subset _ (Expr.places_subset_of_mem_parts he)) ih

/-- A construct has the right places if its statement has. -/
lemma placed_body {st : Stmt} {k : Construct} (h : st.Placed) (hk : st.construct? unit = some k) :
    ∀ st' ∈ k.body, st'.Placed := by
  cases h with
  | func _ _ _ _ hbody =>
    cases hk
    exact hbody
  | block _ hbody =>
    cases hk
    exact hbody
  | _ => cases hk

/-- The expressions of a statement have the right places if it has. -/
lemma placed_of_mem_parts {st : Stmt} {e : Expr} (h : st.Placed) (he : e ∈ st.parts) :
    e.Placed := by
  cases h with
  | var _ _ hinit => exact hinit e (Option.mem_toList.1 he)
  | ret _ hvalue => exact hvalue e (Option.mem_toList.1 he)
  | expr _ he' => exact List.mem_singleton.1 he ▸ he'
  | func | block => cases he

/-- The parts of an expression have the right places if it has. -/
lemma placed_part {e e' : Expr} (h : e.Placed) (he : e' ∈ e.parts) : e'.Placed := by
  cases h with
  | number | identifier => cases he
  | unary _ _ htarget => exact List.mem_singleton.1 he ▸ htarget
  | binary _ hleft hright =>
    rcases List.mem_pair.1 he with rfl | rfl
    · exact hleft
    · exact hright
  | call _ hcallee hargs =>
    rcases List.mem_cons.1 he with rfl | he
    · exact hcallee
    · exact hargs e' he

/-- **The nodes of a program have the right places** if its statements have. -/
lemma placed (h : Encloses unit p ks node) (hp : ∀ st ∈ p.body, st.Placed) : node.Placed := by
  induction h with
  | top h => exact hp _ h
  | inner _ hk hst ih => exact placed_body ih hk _ hst
  | ofStmt _ he ih => exact placed_of_mem_parts ih he
  | part _ he ih => exact placed_part ih he

/-- **The constructs around a node are determined** in a program that was read
from a text. -/
theorem unique {source : String} (hp : parse source = .ok p) (h : Encloses unit p ks node)
    (h' : Encloses unit p ks' node) : ks = ks' := by
  have hnodup : ((Stmt.marksAll unit [] p.body).map Prod.fst).Nodup := by
    rw [Stmt.map_fst_marksAll]
    refine (places_sorted hp).imp fun hlt heq => ?_
    rw [heq] at hlt
    exact Nat.lt_irrefl _ hlt
  have hplaced : node.Placed := h.placed (placed_of_parse hp)
  have heq := List.inj_on_of_nodup_map hnodup (h.marks_subset hplaced.mem_marks)
    (h'.marks_subset hplaced.mem_marks) rfl
  exact congrArg Prod.snd heq

end Encloses

end ClosureCalc
