import Spreadsheet.Proofs.Dependents
import Spreadsheet.Proofs.Loops

/-!
What a change of one cell can change elsewhere. Formulas that do not depend on the cell keep their
values, except that the walk may enter a group of formulas at another place and then close loops on
other formulas of the group.
-/

namespace Spreadsheet.Grid

variable {grid : Grid} {extent : Extent} {c f p q : Position} {cell : Option Cell}

theorem getElem?_replace : (grid.replace c cell)[p]? = if p = c then cell else grid[p]? := by
  rw [replace, Std.ExtTreeMap.getElem?_alter]
  simp only [Std.compare_eq_iff_eq, @eq_comm _ c]

theorem getElem?_replace_of_ne (hp : p ≠ c) : (grid.replace c cell)[p]? = grid[p]? := by
  rw [getElem?_replace, if_neg hp]

theorem getElem?_formulas_replace (hp : p ≠ c) :
    (grid.replace c cell).formulas[p]? = grid.formulas[p]? := by
  rw [getElem?_formulas, getElem?_formulas, getElem?_replace_of_ne hp]

theorem mem_formulas_replace (hp : p ≠ c) :
    p ∈ (grid.replace c cell).formulas ↔ p ∈ grid.formulas := by
  rw [Std.ExtTreeMap.mem_iff_isSome_getElem?, Std.ExtTreeMap.mem_iff_isSome_getElem?,
    getElem?_formulas_replace hp]

theorem formulaValue_replace (hp : p ≠ c) (look : Position → Value) :
    (grid.replace c cell).formulaValue extent look p = grid.formulaValue extent look p := by
  rw [formulaValue, formulaValue, exprAt?, exprAt?, getElem?_formulas_replace hp]

theorem valueAt_recalculate_of_not_mem (hp : p ∉ grid.formulas) :
    (grid.recalculate extent).grid.valueAt p = grid.valueAt p := by
  rw [recalculate_grid, valueAt_storeValues, if_neg hp]

theorem valueAt_recalculate_of_not_closesLoop (hp : p ∈ grid.formulas)
    (hcloses : ¬ grid.ClosesLoop extent p) :
    (grid.recalculate extent).grid.valueAt p =
      grid.formulaValue extent (grid.recalculate extent).grid.valueAt p :=
  (valueAt_recalculate_cases (finalWalk_ordered grid extent).2 hp).resolve_left fun h =>
    hcloses h.2

theorem reads_replace (hp : p ≠ c) :
    (grid.replace c cell).Reads extent p = grid.Reads extent p := by
  funext q
  rw [Reads, Reads, readsAt, readsAt, exprAt?, exprAt?, getElem?_formulas_replace hp]

theorem outside_of_reads (hout : p ∉ (DependencyGraph.ofGrid grid extent).allDependents c)
    (hreads : grid.Reads extent p q) :
    q ≠ c ∧ q ∉ (DependencyGraph.ofGrid grid extent).allDependents c := by
  constructor
  · rintro rfl
    exact hout (DependencyGraph.mem_allDependents_of_reads hreads)
  · intro hmem
    exact hout (DependencyGraph.mem_allDependents_trans hreads hmem)

theorem OnLoop.of_replace (hne : p ≠ c)
    (hout : p ∉ (DependencyGraph.ofGrid grid extent).allDependents c)
    (hloop : (grid.replace c cell).OnLoop extent p) : grid.OnLoop extent p := by
  have hreach : ∀ q, Relation.TransGen ((grid.replace c cell).Reads extent) p q →
      Relation.TransGen (grid.Reads extent) p q ∧
        q ≠ c ∧ q ∉ (DependencyGraph.ofGrid grid extent).allDependents c := by
    intro q hq
    induction hq with
    | single hreads =>
        rw [reads_replace hne] at hreads
        exact ⟨.single hreads, outside_of_reads hout hreads⟩
    | tail _ hreads ih =>
        obtain ⟨hway, hne', hout'⟩ := ih
        rw [reads_replace hne'] at hreads
        exact ⟨hway.tail hreads, outside_of_reads hout' hreads⟩
  exact (hreach p hloop).1

theorem valueAt_replace_of_reads (hp : p ∈ grid.formulas) (hne : p ≠ c)
    (hout : p ∉ (DependencyGraph.ofGrid grid extent).allDependents c)
    (hbefore : ¬ grid.ClosesLoop extent p) (hafter : ¬ (grid.replace c cell).ClosesLoop extent p)
    (hreads : ∀ q, grid.Reads extent p q → q ∈ grid.formulas →
      (grid.recalculate extent).grid.valueAt q =
        ((grid.replace c cell).recalculate extent).grid.valueAt q) :
    (grid.recalculate extent).grid.valueAt p =
      ((grid.replace c cell).recalculate extent).grid.valueAt p := by
  rw [valueAt_recalculate_of_not_closesLoop hp hbefore,
    valueAt_recalculate_of_not_closesLoop ((mem_formulas_replace hne).mpr hp) hafter,
    formulaValue_replace hne]
  apply formulaValue_congr
  intro q hq
  by_cases hformula : q ∈ grid.formulas
  · exact hreads q hq hformula
  · obtain ⟨hqc, -⟩ := outside_of_reads hout hq
    have hformula' : q ∉ (grid.replace c cell).formulas := by
      rwa [mem_formulas_replace hqc]
    rw [valueAt_recalculate_of_not_mem hformula, valueAt_recalculate_of_not_mem hformula',
      valueAt, valueAt, getElem?_replace_of_ne hqc]

/-- The values outside the dependents of a cell agree before and after a change of the cell, if they
do so wherever one of the two walks closes a loop. -/
theorem valueAt_replace_eq
    (h : ∀ f, f ≠ c → f ∉ (DependencyGraph.ofGrid grid extent).allDependents c →
      grid.ClosesLoop extent f ∨ (grid.replace c cell).ClosesLoop extent f →
        (grid.recalculate extent).grid.valueAt f =
          ((grid.replace c cell).recalculate extent).grid.valueAt f)
    (hf : f ∈ grid.formulas) (hne : f ≠ c)
    (hout : f ∉ (DependencyGraph.ofGrid grid extent).allDependents c) :
    (grid.recalculate extent).grid.valueAt f =
      ((grid.replace c cell).recalculate extent).grid.valueAt f := by
  refine formula_induction grid extent (P := fun p => p ≠ c →
    p ∉ (DependencyGraph.ofGrid grid extent).allDependents c →
      (grid.recalculate extent).grid.valueAt p =
        ((grid.replace c cell).recalculate extent).grid.valueAt p) ?_ f hf hne hout
  intro p hp hcases hne hout
  by_cases hcloses : grid.ClosesLoop extent p ∨ (grid.replace c cell).ClosesLoop extent p
  · exact h p hne hout hcloses
  · obtain ⟨hbefore, hafter⟩ := not_or.mp hcloses
    refine valueAt_replace_of_reads hp hne hout hbefore hafter ?_
    intro q hq hformula
    obtain ⟨hqc, hqout⟩ := outside_of_reads hout hq
    exact hcases.resolve_left hbefore q hq hformula hqc hqout

theorem valueAt_replace_of_no_loops (hf : f ∈ grid.formulas) (hne : f ≠ c)
    (hout : f ∉ (DependencyGraph.ofGrid grid extent).allDependents c)
    (hloops : grid.LeadsToNoLoop extent f) :
    (grid.recalculate extent).grid.valueAt f =
      ((grid.replace c cell).recalculate extent).grid.valueAt f := by
  refine formula_induction grid extent (P := fun p => p ≠ c →
    p ∉ (DependencyGraph.ofGrid grid extent).allDependents c →
      grid.LeadsToNoLoop extent p →
        (grid.recalculate extent).grid.valueAt p =
          ((grid.replace c cell).recalculate extent).grid.valueAt p) ?_ f hf hne hout hloops
  intro p hp hcases hne hout hloops
  have hloop : ¬ grid.OnLoop extent p := hloops p .refl
  have hbefore : ¬ grid.ClosesLoop extent p := fun h => hloop h.onLoop
  have hafter : ¬ (grid.replace c cell).ClosesLoop extent p := fun h =>
    hloop (h.onLoop.of_replace hne hout)
  refine valueAt_replace_of_reads hp hne hout hbefore hafter ?_
  intro q hq hformula
  obtain ⟨hqc, hqout⟩ := outside_of_reads hout hq
  exact hcases.resolve_left hbefore q hq hformula hqc hqout fun r hr => hloops r (.head hq hr)

/-- A change of one cell leaves all formulas as they are that do not depend on it, exactly if all
those among them on which one of the two walks closes a loop hold the fault of a loop before and
after. -/
theorem valueAt_replace_iff (grid : Grid) (extent : Extent) (c : Position) (cell : Option Cell) :
    let changed := grid.replace c cell
    let before := (grid.recalculate extent).grid
    let after := (changed.recalculate extent).grid
    let dependents := (DependencyGraph.ofGrid grid extent).allDependents c
    (∀ f ∈ grid.formulas, f ≠ c → before.valueAt f ≠ after.valueAt f → f ∈ dependents) ↔
      ∀ f, f ≠ c → f ∉ dependents →
        grid.ClosesLoop extent f ∨ changed.ClosesLoop extent f →
          before.valueAt f = .fault .loop ∧ after.valueAt f = .fault .loop := by
  intro changed before after dependents
  constructor
  · intro hlocal f hne hout hcloses
    have hf : f ∈ grid.formulas := by
      rcases hcloses with hcloses | hcloses
      · exact hcloses.mem_formulas
      · exact (mem_formulas_replace hne).mp hcloses.mem_formulas
    have hsame : before.valueAt f = after.valueAt f := by
      by_contra hdiffers
      exact hout (hlocal f hf hne hdiffers)
    rcases hcloses with hcloses | hcloses
    · have hloop : before.valueAt f = .fault .loop := valueAt_of_closesLoop hcloses
      exact ⟨hloop, hsame ▸ hloop⟩
    · have hloop : after.valueAt f = .fault .loop := valueAt_of_closesLoop hcloses
      exact ⟨hsame ▸ hloop, hloop⟩
  · intro hloops f hf hne hdiffers
    by_contra hout
    refine hdiffers (valueAt_replace_eq ?_ hf hne hout)
    intro g hgne hgout hcloses
    obtain ⟨hloop, hloop'⟩ := hloops g hgne hgout hcloses
    exact hloop.trans hloop'.symm

theorem exists_replace_valueAt_ne :
    ¬ ∀ (grid : Grid) (extent : Extent) (c : Position) (cell : Option Cell),
      ∀ f ∈ grid.formulas, f ≠ c →
        (grid.recalculate extent).grid.valueAt f ≠
          ((grid.replace c cell).recalculate extent).grid.valueAt f →
        f ∈ (DependencyGraph.ofGrid grid extent).allDependents c := by
  intro h
  have hmem := h sharedLoops ⟨3, 3⟩ ⟨0, 0⟩ (some ⟨"=B2", .formula "B2", .empty, none⟩) ⟨1, 2⟩
    (by decide +kernel) (by decide) ?_
  · have hnone : ((DependencyGraph.ofGrid sharedLoops ⟨3, 3⟩).directDependents ⟨0, 0⟩).toList =
        [] := by decide +kernel
    rw [DependencyGraph.allDependents, hnone, DependencyGraph.collect] at hmem
    exact absurd hmem (by simp)
  · rw [valueAt_recalculate, valueAt_recalculate, finalWalk, finalWalk,
      Walk.run_eq_advance 30 (by decide +kernel), Walk.run_eq_advance 30 (by decide +kernel)]
    decide +kernel

end Spreadsheet.Grid
