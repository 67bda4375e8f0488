import Spreadsheet.Proofs.WalkValues

namespace Spreadsheet

namespace Walk

/-- A walk up to a number of steps. -/
def advance (grid : Grid) (extent : Extent) : Nat → Walk → Walk
  | 0, walk => walk
  | steps + 1, walk =>
    match walk.step? grid extent with
    | some next => advance grid extent steps next
    | none => walk

theorem advance_of_step {grid : Grid} {extent : Extent} {walk next : Walk} (steps : Nat)
    (h : walk.step? grid extent = some next) :
    walk.advance grid extent (steps + 1) = next.advance grid extent steps := by
  simp only [advance, h]

theorem advance_succ {grid : Grid} {extent : Extent} (steps : Nat) (walk : Walk) :
    walk.advance grid extent (steps + 1) =
      ((walk.advance grid extent steps).step? grid extent).getD
        (walk.advance grid extent steps) := by
  induction steps generalizing walk with
  | zero =>
      rw [advance, advance]
      cases walk.step? grid extent <;> rfl
  | succ steps ih =>
      cases hstep : walk.step? grid extent with
      | none => simp only [advance, hstep, Option.getD_none]
      | some next => rw [advance_of_step _ hstep, advance_of_step _ hstep, ih next]

theorem run_of_step {grid : Grid} {extent : Extent} {walk next : Walk}
    (h : walk.step? grid extent = some next) : walk.run grid extent = next.run grid extent := by
  rw [run]
  split
  · rename_i other hother
    rw [h] at hother
    rw [Option.some.inj hother]
  · rename_i hnone
    simp [h] at hnone

theorem run_of_end {grid : Grid} {extent : Extent} {walk : Walk}
    (h : walk.step? grid extent = none) : walk.run grid extent = walk := by
  rw [run]
  split
  · rename_i next hnext
    simp [h] at hnext
  · rfl

theorem run_eq_advance {grid : Grid} {extent : Extent} (steps : Nat) {walk : Walk}
    (h : ((walk.advance grid extent steps).step? grid extent).isNone = true) :
    walk.run grid extent = walk.advance grid extent steps := by
  induction steps generalizing walk with
  | zero => exact run_of_end (Option.isNone_iff_eq_none.mp h)
  | succ steps ih =>
      cases hstep : walk.step? grid extent with
      | none =>
          rw [run_of_end hstep, advance, hstep]
      | some next =>
          rw [advance, hstep] at h
          rw [run_of_step hstep, advance, hstep]
          exact ih h

theorem exists_advance_eq_run (grid : Grid) (extent : Extent) (walk : Walk) :
    ∃ steps, walk.advance grid extent steps = walk.run grid extent := by
  fun_induction run grid extent walk with
  | case1 walk next hstep ih =>
      obtain ⟨steps, hsteps⟩ := ih
      exact ⟨steps + 1, by rw [advance_of_step steps hstep, hsteps]⟩
  | case2 walk hend => exact ⟨0, rfl⟩

theorem consistent_run (grid : Grid) (extent : Extent) (roots : List Position) :
    Consistent grid extent roots none ((start grid roots).run grid extent) ∧
      ((start grid roots).run grid extent).step? grid extent = none :=
  run_induction (consistent_start grid extent roots) fun _ _ hwalk hstep => hwalk.step hstep

/-- Whatever the roots, a walk gives right values and closes loops only where there are some. -/
theorem valued_run (grid : Grid) (extent : Extent) (roots : List Position) :
    Valued grid extent (grid.OnLoop extent) none ((start grid roots).run grid extent) := by
  have hrun : (Consistent grid extent roots none ((start grid roots).run grid extent) ∧
      Valued grid extent (grid.OnLoop extent) none ((start grid roots).run grid extent)) ∧
        ((start grid roots).run grid extent).step? grid extent = none := by
    apply run_induction (motive := fun walk => Consistent grid extent roots none walk ∧
      Valued grid extent (grid.OnLoop extent) none walk)
    · exact ⟨consistent_start grid extent roots, valued_start grid extent roots⟩
    · rintro walk next ⟨hwalk, hvalued⟩ hstep
      refine ⟨hwalk.step hstep, hvalued.step hwalk hstep ?_⟩
      intro p taken above htakes hloops q hq
      exact (hwalk.take htakes).onLoop hloops hq
  exact hrun.1.2

end Walk

namespace Grid

variable {grid : Grid} {extent : Extent} {p : Position}

/-- The walk of a recalculation at its end. -/
def finalWalk (grid : Grid) (extent : Extent) : Walk :=
  (Walk.start grid grid.formulas.keys).run grid extent

theorem recalculate_grid :
    (grid.recalculate extent).grid = grid.storeValues ((grid.finalWalk extent).look grid) := rfl

theorem formulas_recalculate : (grid.recalculate extent).grid.formulas = grid.formulas := by
  rw [recalculate_grid, formulas_storeValues]

theorem finalWalk_consistent (grid : Grid) (extent : Extent) :
    Walk.Consistent grid extent grid.formulas.keys none (grid.finalWalk extent) ∧
      (grid.finalWalk extent).step? grid extent = none :=
  Walk.consistent_run grid extent grid.formulas.keys

theorem finalWalk_done (extent : Extent) (hp : p ∈ grid.formulas) :
    ∃ value, (grid.finalWalk extent).progress[p]? = some (.done value) := by
  obtain ⟨hwalk, hend⟩ := finalWalk_consistent grid extent
  have hroot : p ∈ grid.formulas.keys := Std.ExtTreeMap.mem_keys.mpr hp
  exact hwalk.done_of_end hend hp (hwalk.root_not_mem_fresh hend hroot)

theorem valueAt_recalculate :
    (grid.recalculate extent).grid.valueAt = (grid.finalWalk extent).look grid := by
  funext p
  rw [recalculate_grid, valueAt_storeValues]
  split
  · rfl
  · rename_i hp
    obtain ⟨hwalk, -⟩ := finalWalk_consistent grid extent
    have hnone := hwalk.getElem?_progress_eq_none fun hformula => absurd hformula hp
    simp only [Walk.look, hnone, settledValue_eq, if_neg hp]

theorem getElem?_recalculate :
    (grid.recalculate extent).grid[p]? = grid[p]?.map fun cell =>
      if cell.isFormula then
        { cell with value := (grid.recalculate extent).grid.valueAt p }
      else cell := by
  rw [valueAt_recalculate, recalculate_grid, getElem?_storeValues]

theorem valueAt_recalculate_cases {marks : Position → Prop}
    (h : Walk.Valued grid extent marks none (grid.finalWalk extent)) (hp : p ∈ grid.formulas) :
    (grid.recalculate extent).grid.valueAt p = .fault .loop ∧ marks p ∨
      (grid.recalculate extent).grid.valueAt p =
        grid.formulaValue extent (grid.recalculate extent).grid.valueAt p := by
  obtain ⟨value, hvalue⟩ := finalWalk_done extent hp
  have hlook : (grid.finalWalk extent).look grid p = value := by
    simp only [Walk.look, hvalue]
  rw [valueAt_recalculate, hlook]
  exact (h.done p value hvalue).imp_right And.right

theorem finalWalk_valued (grid : Grid) (extent : Extent) :
    Walk.Valued grid extent (grid.OnLoop extent) none (grid.finalWalk extent) :=
  Walk.valued_run grid extent grid.formulas.keys

theorem not_onLoop_of_not_read (h : ∀ q ∈ grid.formulas.keys, p ∉ grid.readsAt extent q) :
    ¬ grid.OnLoop extent p := by
  intro hloop
  obtain ⟨q, -, hreads⟩ := Relation.TransGen.tail'_iff.mp hloop
  exact h q (Std.ExtTreeMap.mem_keys.mpr (mem_formulas_of_reads hreads)) hreads

/-- A formula that lies on no loop holds the fault of a formula that cannot be read, or else the
value of the formula, with each reference looked up among the values that are stored. -/
theorem recalculate_of_not_onLoop {cell : Cell} {body : String} (hcell : grid[p]? = some cell)
    (hbody : cell.content = .formula body) (hloop : ¬ grid.OnLoop extent p) :
    let after := (grid.recalculate extent).grid
    (∀ q ∉ grid.formulas, after[q]? = grid[q]?) ∧
      after[p]? = some { cell with
        value := match parseFormula extent body with
          | .ok e => e.value after.valueAt
          | .error _ => .fault .invalid } := by
  intro after
  have hisFormula : cell.isFormula = true := by simp [Cell.isFormula, Cell.formula?, hbody]
  have hformulas : grid.formulas[p]? = some body := by
    rw [getElem?_formulas, hcell, Option.bind_some, Cell.formula?, hbody]
  refine ⟨?_, ?_⟩
  · intro q hq
    rw [getElem?_recalculate]
    cases hother : grid[q]? with
    | none => rfl
    | some other =>
        have hother' : other.isFormula ≠ true := fun h =>
          hq (mem_formulas_iff.mpr ⟨other, hother, h⟩)
        simp [hother']
  · have hp : p ∈ grid.formulas := mem_formulas_iff.mpr ⟨cell, hcell, hisFormula⟩
    have hvalue : after.valueAt p = grid.formulaValue extent after.valueAt p :=
      (valueAt_recalculate_cases (finalWalk_valued grid extent) hp).resolve_left fun h => hloop h.2
    rw [getElem?_recalculate, hcell, Option.map_some, if_pos hisFormula, hvalue]
    simp only [formulaValue, exprAt?, hformulas, Option.bind_some]
    cases parseFormula extent body <;> rfl

/-- A formula that reads itself, and one beside it that reads it. -/
def loopBeside : Grid := .ofList
  [(⟨0, 0⟩, ⟨"=A1", .formula "A1", .empty, none⟩),
    (⟨0, 1⟩, ⟨"=SUM(A1,B2)", .formula "SUM(A1,B2)", .empty, none⟩),
    (⟨1, 1⟩, ⟨"2", .number 2, .number 2, none⟩)] compare

theorem recalculate_loopBeside :
    let after := (loopBeside.recalculate ⟨2, 2⟩).grid
    ¬ loopBeside.OnLoop ⟨2, 2⟩ ⟨0, 1⟩ ∧
      (∀ q ∉ loopBeside.formulas, after[q]? = loopBeside[q]?) ∧
        after[(⟨0, 1⟩ : Position)]? = some ⟨"=SUM(A1,B2)", .formula "SUM(A1,B2)",
          match parseFormula ⟨2, 2⟩ "SUM(A1,B2)" with
            | .ok e => e.value after.valueAt
            | .error _ => .fault .invalid, none⟩ := by
  have hcell : loopBeside[(⟨0, 1⟩ : Position)]? =
      some ⟨"=SUM(A1,B2)", .formula "SUM(A1,B2)", .empty, none⟩ := by decide +kernel
  have hloop : ¬ loopBeside.OnLoop ⟨2, 2⟩ ⟨0, 1⟩ := not_onLoop_of_not_read (by decide +kernel)
  exact ⟨hloop, recalculate_of_not_onLoop hcell rfl hloop⟩

end Grid

end Spreadsheet
