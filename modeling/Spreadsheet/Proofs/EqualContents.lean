import Spreadsheet.Proofs.Entered
import Spreadsheet.Recalculation.Procedure

namespace Spreadsheet.Grid

variable {grid other : Grid} {extent : Extent} {p : Position}
  {entries others : List (Position × Cell)} {value : Position → Value}

theorem formulas_keys_eq :
    grid.formulas.keys = (grid.toList.filter fun entry => entry.2.isFormula).map Prod.fst := by
  rw [← Std.ExtTreeMap.map_fst_toList_eq_keys, formulas, Std.ExtTreeMap.toList_filterMap,
    List.map_filterMap, ← List.filterMap_eq_map, List.filterMap_filter]
  refine List.filterMap_congr fun entry _ => ?_
  cases h : entry.2.formula? <;> simp [Cell.isFormula, h]

theorem pairwise_formulaCells (entries : List (Position × Cell)) :
    (formulaCells entries).Pairwise fun p q => (compare p q).isLE = true :=
  List.pairwise_mergeSort (fun _ _ _ => Std.TransCmp.isLE_trans)
    (fun p q => by
      have hswap : compare q p = (compare p q).swap := Std.OrientedCmp.eq_swap
      rw [hswap]
      cases compare p q <;> rfl) _

theorem formulaCells_eq (h : entries.Perm grid.toList) :
    formulaCells entries = grid.formulas.keys := by
  have hperm : (formulaCells entries).Perm grid.formulas.keys := by
    rw [formulas_keys_eq]
    exact (List.mergeSort_perm _ _).trans ((h.filter _).map _)
  refine hperm.eq_of_pairwise (fun p q _ _ hpq hqp => ?_) (pairwise_formulaCells entries) ?_
  · exact Std.LawfulEqCmp.eq_of_compare (Std.OrientedCmp.isLE_antisymm hpq hqp)
  · exact Std.ExtTreeMap.ordered_keys.imp fun hlt => by rw [hlt]; rfl

theorem getElem?_foldl_storeValue (cells : List Position) (stored : Grid × Summary) :
    (cells.foldl (storeValue value) stored).1[p]? =
      if p ∈ cells then stored.1[p]?.map fun cell => { cell with value := value p }
      else stored.1[p]? := by
  induction cells generalizing stored with
  | nil => simp
  | cons q cells ih =>
      rw [List.foldl_cons, ih, storeValue, Std.ExtTreeMap.getElem?_modify]
      by_cases hqp : q = p
      · subst hqp
        by_cases hmem : q ∈ cells <;> simp [hmem, Option.map_map, Function.comp_def]
      · simp [hqp, Ne.symm hqp]

theorem count_eq (summary : Summary) (v : Value) :
    summary.count v = ⟨summary.formulas,
      summary.errors + [v].countP (· = .fault .invalid),
      summary.loops + [v].countP (· = .fault .loop)⟩ := by
  unfold Summary.count
  split <;> simp_all

theorem summary_foldl_storeValue (cells : List Position) (stored : Grid × Summary) :
    (cells.foldl (storeValue value) stored).2 = ⟨stored.2.formulas,
      stored.2.errors + cells.countP (value · = .fault .invalid),
      stored.2.loops + cells.countP (value · = .fault .loop)⟩ := by
  induction cells generalizing stored with
  | nil => rfl
  | cons p cells ih =>
      rw [List.foldl_cons, ih, storeValue, count_eq]
      simp only [List.countP_cons, List.countP_nil]
      congr 1 <;> omega

theorem values_eq :
    ((grid.toList.map Prod.snd).filter Cell.isFormula).map Cell.value =
      grid.formulas.keys.map grid.valueAt := by
  rw [formulas_keys_eq, List.filter_map, List.map_map, List.map_map]
  refine List.map_congr_left fun entry hentry => ?_
  have hcell := Std.ExtTreeMap.mem_toList_iff_getElem?_eq_some.mp (List.mem_filter.mp hentry).1
  simp [valueAt, hcell]

theorem summary_eq : grid.summary = ⟨grid.formulas.keys.length,
    grid.formulas.keys.countP (grid.valueAt · = .fault .invalid),
    grid.formulas.keys.countP (grid.valueAt · = .fault .loop)⟩ := by
  simp only [summary, values_eq, List.length_map, List.count, List.countP_map]
  rfl

/-- The order in which the cells are found has no influence on a recalculation. -/
theorem recalculateListed_eq (h : entries.Perm grid.toList) :
    grid.recalculateListed extent entries = grid.recalculate extent := by
  let stored := grid.formulas.keys.foldl (storeValue ((grid.finalWalk extent).look grid))
    (grid, ⟨grid.formulas.keys.length, 0, 0⟩)
  -- Each formula is stored once, so the order of storing them does not show in the grid.
  have hgrid : stored.1 = (grid.recalculate extent).grid := by
    apply Std.ExtTreeMap.ext_getElem?
    intro p
    rw [getElem?_foldl_storeValue, recalculate_grid, getElem?_storeValues]
    cases hcell : grid[p]? with
    | none => simp
    | some cell =>
        have hp : p ∈ grid.formulas.keys ↔ cell.isFormula = true := by
          rw [Std.ExtTreeMap.mem_keys, mem_formulas_iff, hcell]
          simp
        by_cases hformula : cell.isFormula = true <;> simp [hp, hformula]
  have hsummary : stored.2 = (grid.recalculate extent).summary := by
    change _ = (grid.recalculate extent).grid.summary
    rw [summary_foldl_storeValue, summary_eq, formulas_recalculate, valueAt_recalculate]
    simp
  have hlisted : grid.recalculateListed extent entries = ⟨stored.1, stored.2,
      (grid.finalWalk extent).notices.reverse ++
        [.recalculated stored.2.formulas stored.2.errors stored.2.loops]⟩ := by
    rw [recalculateListed, formulaCells_eq h]
    rfl
  rw [hlisted, hgrid, hsummary]
  rfl

/-- A recalculation that leaves the formulas of a grid with the values that another one leaves there.
It changes nothing but these values, and its summary, which is that of the other one, counts the
formulas and the faults that it leaves in them. -/
structure IsRecalculated (grid : Grid) (result other : Recalculation) : Prop where
  valueAt_eq : ∀ p ∈ grid.formulas, result.grid.valueAt p = other.grid.valueAt p
  summary_eq : result.summary = other.summary
  getElem?_eq : ∀ p : Position, result.grid[p]? = grid[p]?.map fun cell =>
    if cell.isFormula then { cell with value := result.grid.valueAt p } else cell
  counted : result.summary = ⟨grid.formulas.size,
    grid.formulas.keys.countP (result.grid.valueAt · = .fault .invalid),
    grid.formulas.keys.countP (result.grid.valueAt · = .fault .loop)⟩

theorem SameSource.isRecalculated (h : SameSource grid other) (hentries : entries.Perm grid.toList)
    (hothers : others.Perm other.toList) :
    IsRecalculated grid (grid.recalculateListed extent entries)
      (other.recalculateListed extent others) := by
  rw [recalculateListed_eq hentries, recalculateListed_eq hothers]
  have hvalueAt := h.valueAt_recalculate extent
  have hcounted : (grid.recalculate extent).summary = ⟨grid.formulas.size,
      grid.formulas.keys.countP ((grid.recalculate extent).grid.valueAt · = .fault .invalid),
      grid.formulas.keys.countP ((grid.recalculate extent).grid.valueAt · = .fault .loop)⟩ := by
    change (grid.recalculate extent).grid.summary = _
    rw [summary_eq, formulas_recalculate, Std.ExtTreeMap.length_keys]
  refine ⟨fun p _ => congrFun hvalueAt p, ?_, fun p => getElem?_recalculate, hcounted⟩
  change _ = (other.recalculate extent).grid.summary
  rw [hcounted, summary_eq, formulas_recalculate, ← h.formulas_eq, hvalueAt,
    Std.ExtTreeMap.length_keys]

/-- Grids of entered cells that hold the same contents are recalculated alike, in whatever order
their cells are found and whatever else the cells hold. -/
theorem IsProper.isRecalculated (h : grid.IsProper) (h' : other.IsProper)
    (hentries : entries.Perm grid.toList) (hothers : others.Perm other.toList)
    (hcontents : ∀ p : Position, grid[p]?.map Cell.content = other[p]?.map Cell.content) :
    IsRecalculated grid (grid.recalculateListed extent entries)
      (other.recalculateListed extent others) :=
  (sameSource_of_contents h h' hcontents).isRecalculated hentries hothers

/-- Grids that hold the same contents, and the same values in their cells without a formula, as they
do where cells were entered, are recalculated alike, in whatever order their cells are found and
whatever else the cells hold. A recalculation changes nothing but the values of formulas, and its
summary counts the formulas and the faults that it leaves in them. -/
theorem recalculateListed_of_contents (hentries : entries.Perm grid.toList)
    (hothers : others.Perm other.toList)
    (hcontents : ∀ p : Position, grid[p]?.map Cell.content = other[p]?.map Cell.content)
    (hvalues : ∀ p ∉ grid.formulas, grid.valueAt p = other.valueAt p) :
    let result := grid.recalculateListed extent entries
    let after := result.grid
    (∀ p ∈ grid.formulas,
        after.valueAt p = (other.recalculateListed extent others).grid.valueAt p) ∧
      result.summary = (other.recalculateListed extent others).summary ∧
      (∀ p : Position, after[p]? = grid[p]?.map fun cell =>
        if cell.isFormula then { cell with value := after.valueAt p } else cell) ∧
      result.summary = ⟨grid.formulas.size,
        grid.formulas.keys.countP (after.valueAt · = .fault .invalid),
        grid.formulas.keys.countP (after.valueAt · = .fault .loop)⟩ := by
  have hsame : SameSource grid other := ⟨formulas_eq_of_contents hcontents, hvalues⟩
  have hrecalculated : IsRecalculated grid (grid.recalculateListed extent entries)
      (other.recalculateListed extent others) := hsame.isRecalculated hentries hothers
  exact ⟨hrecalculated.valueAt_eq, hrecalculated.summary_eq, hrecalculated.getElem?_eq,
    hrecalculated.counted⟩

/-- The grid with a loop and a formula beside it, with styles and with values left over. -/
def staleLoopBeside : Grid := loopBeside.map fun _ cell =>
  { cell with
    value := if cell.isFormula then .number 7 else cell.value
    style := some { bold := true } }

theorem recalculateListed_staleLoopBeside :
    let entries := loopBeside.toList.reverse
    let others := staleLoopBeside.toList
    let result := loopBeside.recalculateListed ⟨2, 2⟩ entries
    let after := result.grid
    entries.Perm loopBeside.toList ∧ others.Perm staleLoopBeside.toList ∧
      (∀ p : Position, loopBeside[p]?.map Cell.content = staleLoopBeside[p]?.map Cell.content) ∧
      (∀ p ∉ loopBeside.formulas, loopBeside.valueAt p = staleLoopBeside.valueAt p) ∧
      (∀ p ∈ loopBeside.formulas,
        after.valueAt p = (staleLoopBeside.recalculateListed ⟨2, 2⟩ others).grid.valueAt p) ∧
      result.summary = (staleLoopBeside.recalculateListed ⟨2, 2⟩ others).summary ∧
      (∀ p : Position, after[p]? = loopBeside[p]?.map fun cell =>
        if cell.isFormula then { cell with value := after.valueAt p } else cell) ∧
      result.summary = ⟨loopBeside.formulas.size,
        loopBeside.formulas.keys.countP (after.valueAt · = .fault .invalid),
        loopBeside.formulas.keys.countP (after.valueAt · = .fault .loop)⟩ := by
  intro entries others result after
  have hentries : entries.Perm loopBeside.toList := List.reverse_perm _
  have hothers : others.Perm staleLoopBeside.toList := List.Perm.refl _
  have hcontents : ∀ p : Position,
      loopBeside[p]?.map Cell.content = staleLoopBeside[p]?.map Cell.content := by
    intro p
    rw [staleLoopBeside, Std.ExtTreeMap.getElem?_map, Option.map_map]
    rfl
  have hvalues : ∀ p ∉ loopBeside.formulas,
      loopBeside.valueAt p = staleLoopBeside.valueAt p := by
    intro p hp
    rw [valueAt, valueAt, staleLoopBeside, Std.ExtTreeMap.getElem?_map, Option.map_map]
    cases hcell : loopBeside[p]? with
    | none => rfl
    | some cell =>
        have hformula : cell.isFormula = false := by
          by_contra hformula
          exact hp (mem_formulas_iff.mpr ⟨cell, hcell, by simpa using hformula⟩)
        simp [hformula]
  exact ⟨hentries, hothers, hcontents, hvalues,
    recalculateListed_of_contents hentries hothers hcontents hvalues⟩

end Spreadsheet.Grid
