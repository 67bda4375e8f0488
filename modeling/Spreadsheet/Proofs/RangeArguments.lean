import Spreadsheet.Proofs.Lookups

namespace Spreadsheet.Expr

variable {look : Position → Value}

theorem lookupsOfArguments_append (given given' : List Expr) :
    lookupsOfArguments (given ++ given') =
      lookupsOfArguments given ++ lookupsOfArguments given' := by
  induction given with
  | nil => simp [lookupsOfArguments]
  | cons e given ih => cases e <;> simp [lookupsOfArguments, ih]

theorem gather_append (given given' : List Expr) :
    gather look (given ++ given') = (gather look given).append (gather look given') := by
  induction given with
  | nil => rw [List.nil_append, gather, Gathered.none_append]
  | cons e given ih => cases e <;> simp [gather, ih, Gathered.append_assoc]

theorem readsOfArguments_cells (cells : List Position) :
    readsOfArguments (cells.map Expr.cell) = cells := by
  induction cells with
  | nil => rfl
  | cons p cells ih => simp [readsOfArguments, reads, ih]

theorem lookupsOfArguments_cells (cells : List Position) :
    lookupsOfArguments (cells.map Expr.cell) = cells := by
  induction cells with
  | nil => rfl
  | cons p cells ih => simp [lookupsOfArguments, lookups, ih]

theorem gather_cells (cells : List Position) :
    gather look (cells.map Expr.cell) =
      .ofNumbers (cells.filterMap fun p => (look p).number?) := by
  induction cells with
  | nil => rfl
  | cons p cells ih =>
      rw [List.map_cons, gather, ih]
      cases h : (look p).number? <;> simp [h, Gathered.append, Gathered.ofNumbers]

theorem readsOfArguments_range (before after : List Expr) (r : Range) :
    readsOfArguments (before ++ .range r :: after) =
      readsOfArguments (before ++ (r.cells.map Expr.cell ++ after)) := by
  rw [readsOfArguments_append, readsOfArguments_append, readsOfArguments_append,
    readsOfArguments_cells, readsOfArguments]

theorem lookupsOfArguments_range (before after : List Expr) (r : Range) :
    lookupsOfArguments (before ++ .range r :: after) =
      lookupsOfArguments (before ++ (r.cells.map Expr.cell ++ after)) := by
  rw [lookupsOfArguments_append, lookupsOfArguments_append, lookupsOfArguments_append,
    lookupsOfArguments_cells, lookupsOfArguments]

theorem gather_range (before after : List Expr) (r : Range) :
    gather look (before ++ .range r :: after) =
      gather look (before ++ (r.cells.map Expr.cell ++ after)) := by
  rw [gather_append, gather_append, gather_append, gather_cells, gather]

/-- Wherever a range stands among the arguments of a call, of a known function or an unknown one, its
members could stand there in its place, row by row. The same cells are read, the numbers that the
function combines are the same in the same order, and so are the first fault among the arguments, the
value of the call, and all that evaluation step by step looks up. -/
theorem call_range_eq_call_cells (look : Position → Value) (name : String)
    (before after : List Expr) (r : Range) :
    let brief := before ++ .range r :: after
    let spelled := before ++ (r.cells.map Expr.cell ++ after)
    (call name brief).reads = (call name spelled).reads ∧
    (gather look brief).numbers = (gather look spelled).numbers ∧
    (gather look brief).fault = (gather look spelled).fault ∧
    (call name brief).eval look = (call name spelled).eval look ∧
    (call name brief).value look = (call name spelled).value look ∧
    ∀ seen, ((call name brief).evalNoting look).run seen =
      ((call name spelled).evalNoting look).run seen := by
  intro brief spelled
  have hgather : gather look brief = gather look spelled := gather_range before after r
  have heval : (call name brief).eval look = (call name spelled).eval look := by
    rw [eval, eval, hgather]
  have hlookups : (call name brief).lookups = (call name spelled).lookups := by
    rw [lookups, lookups, lookupsOfArguments_range]
  refine ⟨?_, congrArg Gathered.numbers hgather, congrArg Gathered.fault hgather, heval, ?_, ?_⟩
  · rw [reads, reads, readsOfArguments_range]
  · rw [value, value, heval]
  · intro seen
    rw [run_evalNoting, run_evalNoting, heval, hlookups]

/-- The empty cell and the fault among the members of the range are passed over, and the sum begins
with the number in front of it. -/
example :
    let look : Position → Value := fun p =>
      if p = ⟨0, 0⟩ then .number 0.1 else if p = ⟨1, 0⟩ then .number 0.2
      else if p = ⟨0, 1⟩ then .fault .loop else .empty
    (call "sum" [.number 0.3, .range ⟨⟨0, 0⟩, ⟨1, 1⟩⟩]).eval look =
      .number (-0.0 + 0.3 + 0.1 + 0.2) := by decide +kernel

end Spreadsheet.Expr
