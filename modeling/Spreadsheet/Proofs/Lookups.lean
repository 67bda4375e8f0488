import Spreadsheet.Evaluation.Procedure
import Spreadsheet.Proofs.Reads

namespace Spreadsheet

namespace Gathered

variable (gathered : Gathered)

theorem append_none : gathered.append none = gathered := by
  simp [append, none]

theorem append_assoc (a b c : Gathered) : (a.append b).append c = a.append (b.append c) := by
  simp [append, Option.or_assoc]

theorem none_append : none.append gathered = gathered := by
  simp [append, none]

theorem takeCell_eq (value : Value) :
    gathered.takeCell value = gathered.append (ofNumbers value.number?.toList) := by
  cases value <;> simp [takeCell, addNumber, append, ofNumbers, Value.number?]

theorem takeValue_eq (value : Value) :
    gathered.takeValue value = gathered.append (ofValue value) := by
  cases value <;> simp [takeValue, addNumber, addFault, append, ofValue, ofNumbers, none]

end Gathered

namespace Expr

variable {look look' : Position → Value}

mutual

/-- The cells that evaluation looks up: those that an expression reads, but for the arguments of
unknown functions. -/
def lookups : Expr → List Position
  | .cell p => [p]
  | .negate e => lookups e
  | .binary _ left right => lookups left ++ lookups right
  | .call name arguments =>
    if (Aggregate.ofName? name).isSome then lookupsOfArguments arguments else []
  | _ => []

/-- The cells that are looked up for arguments of a call. -/
def lookupsOfArguments : List Expr → List Position
  | [] => []
  | .range r :: rest => r.cells ++ lookupsOfArguments rest
  | e :: rest => lookups e ++ lookupsOfArguments rest

end

mutual

theorem lookups_sublist_reads (e : Expr) : e.lookups.Sublist e.reads := by
  match e with
  | .number n => exact List.Sublist.refl _
  | .cell p => exact List.Sublist.refl _
  | .range r => exact List.Sublist.refl _
  | .literal text => exact List.Sublist.refl _
  | .negate operand => simpa only [lookups, reads] using lookups_sublist_reads operand
  | .binary operator left right =>
      simpa only [lookups, reads] using
        (lookups_sublist_reads left).append (lookups_sublist_reads right)
  | .call name given =>
      rw [lookups, reads]
      split
      · exact lookupsOfArguments_sublist given
      · exact List.nil_sublist _

theorem lookupsOfArguments_sublist (given : List Expr) :
    (lookupsOfArguments given).Sublist (readsOfArguments given) := by
  match given with
  | [] => exact List.Sublist.refl _
  | e :: rest =>
      have hrest := lookupsOfArguments_sublist rest
      cases e with
      | range r => exact (List.Sublist.refl _).append hrest
      | _ => exact (lookups_sublist_reads _).append hrest

end

theorem run_lookNoting (p : Position) (seen : List Position) :
    (lookNoting look p).run seen = pure (look p, seen ++ [p]) := rfl

theorem run_gatherCell (gathered : Gathered) (p : Position) (seen : List Position) :
    (gatherCell look gathered p).run seen =
      pure (gathered.append (.ofNumbers (look p).number?.toList), seen ++ [p]) := by
  rw [← Gathered.takeCell_eq]
  rfl

theorem run_gatherCells (cells : List Position) (gathered : Gathered) (seen : List Position) :
    (cells.foldlM (gatherCell look) gathered).run seen =
      pure (gathered.append (.ofNumbers (cells.filterMap fun p => (look p).number?)),
        seen ++ cells) := by
  induction cells generalizing gathered seen with
  | nil => simp [Gathered.append, Gathered.ofNumbers]
  | cons p cells ih =>
      have hnumbers : (p :: cells).filterMap (fun p => (look p).number?) =
          (look p).number?.toList ++ cells.filterMap fun p => (look p).number? := by
        cases h : (look p).number? <;> simp [h]
      rw [List.foldlM_cons, StateT.run_bind, run_gatherCell, pure_bind, ih, hnumbers]
      simp [Gathered.append, Gathered.ofNumbers]

mutual

theorem run_evalNoting (e : Expr) (seen : List Position) :
    (e.evalNoting look).run seen = pure (e.eval look, seen ++ e.lookups) := by
  match e with
  | .number n => simp [evalNoting, eval, lookups]
  | .cell p => simp [evalNoting, eval, lookups, run_lookNoting]
  | .range r => simp [evalNoting, eval, lookups]
  | .literal text => simp [evalNoting, eval, lookups]
  | .negate operand =>
      rw [evalNoting, StateT.run_bind, run_evalNoting operand, pure_bind, eval, lookups]
      cases (operand.eval look).toOperand <;> rfl
  | .binary operator left right =>
      rw [evalNoting, StateT.run_bind, run_evalNoting left, pure_bind, StateT.run_bind,
        run_evalNoting right, pure_bind, eval, lookups, List.append_assoc]
      cases (left.eval look).toOperand <;> cases (right.eval look).toOperand <;> rfl
  | .call name given =>
      rw [evalNoting, eval, lookups]
      cases Aggregate.ofName? name with
      | none => simp
      | some f =>
          simp only [StateT.run_bind, run_gatherNoting given, pure_bind, Gathered.none_append]
          rfl

theorem run_gatherNoting (given : List Expr) (gathered : Gathered) (seen : List Position) :
    (gatherNoting look given gathered).run seen =
      pure (gathered.append (gather look given), seen ++ lookupsOfArguments given) := by
  match given with
  | [] => simp [gatherNoting, gather, lookupsOfArguments, Gathered.append_none]
  | e :: rest =>
      have hvalue : (do
            gatherNoting look rest (gathered.takeValue (← evalNoting look e))).run seen =
          pure (gathered.append ((Gathered.ofValue (e.eval look)).append (gather look rest)),
            seen ++ (e.lookups ++ lookupsOfArguments rest)) := by
        rw [StateT.run_bind, run_evalNoting e, pure_bind, run_gatherNoting rest,
          Gathered.takeValue_eq, Gathered.append_assoc, List.append_assoc]
      cases e with
      | range r =>
          rw [gatherNoting, StateT.run_bind, run_gatherCells, pure_bind, run_gatherNoting rest,
            Gathered.append_assoc, List.append_assoc, gather, lookupsOfArguments]
      | cell p =>
          rw [gatherNoting, StateT.run_bind, run_gatherCell, pure_bind, run_gatherNoting rest,
            Gathered.append_assoc, List.append_assoc]
          rfl
      | literal text =>
          rw [gatherNoting, run_gatherNoting rest]
          rfl
      | number n => exact hvalue
      | negate operand => exact hvalue
      | binary operator left right => exact hvalue
      | call name inner => exact hvalue

end

/-- The value of an expression depends on nothing but the values of the cells that it reads. Whatever
else differs, evaluation step by step looks up the same cells, and each of them is among those that
are read, so neither a range outside of a call nor an unknown function or a fault beside them leads
to any other cell. -/
theorem eval_eq_of_reads {e : Expr} (h : ∀ p ∈ e.reads, look p = look' p) :
    e.eval look = e.eval look' ∧ e.value look = e.value look' ∧
      ∃ cells, cells.Sublist e.reads ∧ ∀ seen,
        (e.evalNoting look).run seen = (e.eval look, seen ++ cells) ∧
          (e.evalNoting look').run seen = (e.eval look, seen ++ cells) := by
  have heval : e.eval look = e.eval look' := eval_congr h
  refine ⟨heval, value_congr h, e.lookups, e.lookups_sublist_reads, fun seen => ?_⟩
  refine ⟨run_evalNoting e seen, ?_⟩
  rw [heval]
  exact run_evalNoting e seen

theorem eval_eq_of_reads_strayRange :
    let e : Expr := .call "SUM" [.negate (.range ⟨⟨0, 0⟩, ⟨1, 1⟩⟩), .range ⟨⟨2, 0⟩, ⟨3, 1⟩⟩,
      .call "FIND" [.cell ⟨5, 5⟩], .binary .divide (.cell ⟨0, 1⟩) (.cell ⟨0, 0⟩)]
    let look : Position → Value := fun p => if p.col = 0 then .number 1 else .fault .loop
    let look' : Position → Value := fun p => if p.row = 1 then .text "other" else look p
    (∀ p ∈ e.reads, look p = look' p) ∧ look ⟨1, 0⟩ ≠ look' ⟨1, 0⟩ ∧
      e.eval look = e.eval look' ∧ e.value look = e.value look' ∧
      ∃ cells, cells.Sublist e.reads ∧ ∀ seen,
        (e.evalNoting look).run seen = (e.eval look, seen ++ cells) ∧
          (e.evalNoting look').run seen = (e.eval look, seen ++ cells) := by
  intro e look look'
  have hreads : ∀ p ∈ e.reads, look p = look' p := by decide +kernel
  exact ⟨hreads, by decide +kernel, eval_eq_of_reads hreads⟩

end Expr

end Spreadsheet
