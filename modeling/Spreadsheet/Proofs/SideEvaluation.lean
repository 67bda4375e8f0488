import Spreadsheet.Proofs.Loops
import Spreadsheet.Proofs.Outcome
import Spreadsheet.Proofs.Settled

namespace Spreadsheet.Grid

variable {grid : Grid} {extent : Extent} {roots : List Position} {p : Position} {text : String}

/-- The formula in a text, which may have an equals sign in front of it. -/
def formulaText (text : String) : String :=
  match text.toList with
  | '=' :: body => String.ofList body
  | _ => text

theorem reads_eq_of_formulas_eq {other : Grid} (h : grid.formulas = other.formulas) :
    grid.Reads extent = other.Reads extent := by
  funext p q
  rw [Reads, Reads, readsAt, readsAt, exprAt?, exprAt?, h]

theorem LeadsToNoLoop.recalculate (h : grid.LeadsToNoLoop extent p) :
    (grid.recalculate extent).grid.LeadsToNoLoop extent p := by
  unfold LeadsToNoLoop OnLoop
  rw [reads_eq_of_formulas_eq formulas_recalculate]
  exact h

theorem evaluateInput_eq :
    grid.evaluateInput extent text = grid.evaluate extent (formulaText text) := by
  unfold evaluateInput formulaText
  cases text.toList with
  | nil => rfl
  | cons c body =>
      by_cases hc : c = '='
      · subst hc
        rfl
      · simp [hc]

/-- On a settled grid every walk finds the stored values, except where reads lead to a loop. -/
theorem look_run_eq_valueAt (hsettled : grid.IsSettled extent)
    (hreached : p ∉ ((Walk.start grid roots).run grid extent).fresh)
    (hloops : grid.LeadsToNoLoop extent p) :
    ((Walk.start grid roots).run grid extent).look grid p = grid.valueAt p := by
  obtain ⟨hwalk, hend⟩ := Walk.consistent_run grid extent roots
  have hvalued := Walk.valued_run grid extent roots
  generalize (Walk.start grid roots).run grid extent = walk at *
  have hother : ∀ q ∉ grid.formulas, walk.look grid q = grid.valueAt q := by
    intro q hq
    rw [Walk.look, hwalk.getElem?_progress_eq_none fun h => absurd h hq, settledValue_eq,
      if_neg hq]
  by_cases hp : p ∈ grid.formulas
  · refine formula_induction grid extent (P := fun p => p ∉ walk.fresh →
      grid.LeadsToNoLoop extent p → walk.look grid p = grid.valueAt p) ?_ p hp hreached hloops
    intro p hp hcases hreached hloops
    have hnot : ¬ grid.OnLoop extent p := hloops p .refl
    obtain ⟨value, hdone⟩ := hwalk.done_of_end hend hp hreached
    have hvalue : walk.look grid p = grid.formulaValue extent (walk.look grid) p := by
      rw [Walk.look, hdone]
      exact ((hvalued.done p value hdone).resolve_left fun h => hnot h.2).2
    rw [hvalue, hsettled.valueAt_eq_formulaValue hp hnot]
    apply formulaValue_congr
    intro q hq
    by_cases hformula : q ∈ grid.formulas
    · exact hcases.resolve_left (fun h => hnot h.onLoop) q hq hformula
        (hwalk.reads_done p value hdone q hq) fun r hr => hloops r (.head hq hr)
    · exact hother q hformula
  · exact hother p hp

/-- A formula whose reads lead to no loop is worth beside a recalculated grid what it is worth among
the values that are stored there, and a text that is none gives the fault of such a formula. -/
theorem evaluateInput_recalculate (grid : Grid) (extent : Extent) (text : String)
    (hloops : ∀ e, parseFormula extent (formulaText text) = .ok e →
      ∀ p ∈ e.reads, grid.LeadsToNoLoop extent p) :
    let after := (grid.recalculate extent).grid
    (after.evaluateInput extent text).1 =
      match parseFormula extent (formulaText text) with
      | .ok e => e.value after.valueAt
      | .error _ => .fault .invalid := by
  intro after
  rw [evaluateInput_eq, evaluate]
  cases hparse : parseFormula extent (formulaText text) with
  | error reason => rfl
  | ok e =>
      obtain ⟨hwalk, hend⟩ := Walk.consistent_run after extent e.reads
      refine Expr.value_congr fun p hp => ?_
      refine look_run_eq_valueAt (isSettled_recalculate grid extent)
        (hwalk.root_not_mem_fresh hend hp) ?_
      exact (hloops e hparse p hp).recalculate

theorem leadsToNoLoop_of_level {cells : List Position} (level : Position → Nat)
    (h : ∀ p ∈ cells, ∀ q ∈ grid.readsAt extent p, q ∈ cells ∧ level q < level p) :
    ∀ p ∈ cells, grid.LeadsToNoLoop extent p := by
  intro p hp q hway hloop
  have hq : q ∈ cells := by
    clear hloop
    induction hway with
    | refl => exact hp
    | tail _ hreads ih => exact (h _ ih _ hreads).1
  have hbelow : ∀ r, Relation.TransGen (grid.Reads extent) q r → r ∈ cells ∧ level r < level q := by
    intro r hr
    induction hr with
    | single hreads => exact h q hq _ hreads
    | tail _ hreads ih =>
        obtain ⟨hmem, hlevel⟩ := h _ ih.1 _ hreads
        exact ⟨hmem, hlevel.trans ih.2⟩
  exact lt_irrefl _ (hbelow q hloop).2

/-- A loop through two formulas, one of which reads the first of three cells in a chain. -/
def loopAside : Grid := .ofList
  [(⟨0, 0⟩, ⟨"=B1", .formula "B1", .empty, none⟩),
    (⟨0, 1⟩, ⟨"=A1+A2", .formula "A1+A2", .empty, none⟩),
    (⟨1, 0⟩, ⟨"=B2*2", .formula "B2*2", .empty, none⟩),
    (⟨1, 1⟩, ⟨"=SUM(C2,3)", .formula "SUM(C2,3)", .empty, none⟩),
    (⟨1, 2⟩, ⟨"4", .number 4, .number 4, none⟩)] compare

theorem evaluateInput_loopAside :
    let after := (loopAside.recalculate ⟨3, 3⟩).grid
    loopAside.OnLoop ⟨3, 3⟩ ⟨0, 0⟩ ∧ ∃ e, parseFormula ⟨3, 3⟩ (formulaText "=A2-B2") = .ok e ∧
      e.reads = [⟨1, 0⟩, ⟨1, 1⟩] ∧ (∀ p ∈ e.reads, loopAside.LeadsToNoLoop ⟨3, 3⟩ p) ∧
        (after.evaluateInput ⟨3, 3⟩ "=A2-B2").1 = e.value after.valueAt := by
  intro after
  have hchain : [(⟨0, 0⟩ : Position), ⟨0, 1⟩].IsChain (loopAside.Reads ⟨3, 3⟩) := by
    simp only [List.isChain_cons_cons, List.isChain_singleton, Reads]
    decide +kernel
  have hloop : loopAside.OnLoop ⟨3, 3⟩ ⟨0, 0⟩ :=
    transGen_of_isChain hchain (by unfold Reads; decide +kernel) (by simp)
  have htokens : Token.tokenize ⟨3, 3⟩ (formulaText "=A2-B2").toList =
      .ok [.cell ⟨1, 0⟩, .minus, .cell ⟨1, 1⟩] := by
    decide +kernel
  have hparse := bind_of_eq_ok (f := Grammar.parseTokens) htokens
  have hfree : ∀ p ∈ [(⟨1, 0⟩ : Position), ⟨1, 1⟩, ⟨1, 2⟩],
      loopAside.LeadsToNoLoop ⟨3, 3⟩ p :=
    leadsToNoLoop_of_level (fun p => 2 - p.col) (by decide +kernel)
  have hreads : ∀ e, parseFormula ⟨3, 3⟩ (formulaText "=A2-B2") = .ok e →
      ∀ p ∈ e.reads, loopAside.LeadsToNoLoop ⟨3, 3⟩ p := by
    intro e he p hp
    obtain rfl := Except.ok.inj (hparse.symm.trans he)
    exact hfree p (List.mem_append_left [_] hp)
  refine ⟨hloop, _, hparse, rfl, hreads _ hparse, ?_⟩
  have hvalue := evaluateInput_recalculate loopAside ⟨3, 3⟩ "=A2-B2" hreads
  rw [show parseFormula ⟨3, 3⟩ (formulaText "=A2-B2") = _ from hparse] at hvalue
  exact hvalue

end Spreadsheet.Grid
