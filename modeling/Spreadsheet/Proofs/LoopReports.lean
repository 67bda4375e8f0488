import Spreadsheet.Proofs.Dependents
import Spreadsheet.Proofs.LoopSearch
import Spreadsheet.Proofs.Loops
import Spreadsheet.Proofs.Reachable

namespace Spreadsheet

theorem Value.ofNumber_ne_loop (n : Float) : ofNumber n ≠ .fault .loop := by
  unfold ofNumber
  split <;> simp

theorem Operator.apply_ne_loop (operator : Operator) (a b : Float) :
    operator.apply a b ≠ .fault .loop := by
  cases operator with
  | divide =>
      rw [apply]
      split
      · simp
      · exact Value.ofNumber_ne_loop _
  | _ => exact Value.ofNumber_ne_loop _

theorem Value.toOperand_eq_error_iff {value : Value} {fault : Fault} :
    value.toOperand = .error fault ↔ value = .fault fault := by
  cases value <;> simp [toOperand]

namespace Gathered

theorem call_eq_loop_iff {f : Aggregate} {arguments : Gathered} :
    arguments.call f = .fault .loop ↔ arguments.fault = some .loop := by
  unfold call
  cases arguments.fault with
  | some fault => simp
  | none =>
      cases f.apply arguments.numbers with
      | some n => simpa using Value.ofNumber_ne_loop n
      | none => simp

theorem ofValue_fault_eq_some_iff {value : Value} {fault : Fault} :
    (ofValue value).fault = some fault ↔ value = .fault fault := by
  cases value <;> simp [ofValue, ofNumbers, none]

end Gathered

namespace Expr

variable {look : Position → Value}

theorem mem_readsOfArguments_cons {e : Expr} {rest : List Expr} {p : Position}
    (h : p ∈ e.reads ∨ p ∈ readsOfArguments rest) : p ∈ readsOfArguments (e :: rest) := by
  rw [← List.singleton_append, readsOfArguments_append, List.mem_append]
  exact h.imp_left mem_readsOfArguments_of_mem_reads

theorem gather_cons_fault {e : Expr} {rest : List Expr} {fault : Fault}
    (h : (gather look (e :: rest)).fault = some fault) :
    e.eval look = .fault fault ∨ (gather look rest).fault = some fault := by
  have happend : ∀ first : Gathered, (first.append (gather look rest)).fault = some fault →
      first.fault = some fault ∨ (gather look rest).fault = some fault := by
    intro first hfirst
    exact (Option.or_eq_some_iff.mp hfirst).imp_right And.right
  cases e with
  | range r => exact .inr ((happend _ h).resolve_left (by simp [Gathered.ofNumbers]))
  | cell p => exact .inr ((happend _ h).resolve_left (by simp [Gathered.ofNumbers]))
  | literal text => exact .inr h
  | _ => exact (happend _ h).imp_left Gathered.ofValue_fault_eq_some_iff.mp

mutual

theorem exists_read_of_eval_eq_loop {e : Expr} (h : e.eval look = .fault .loop) :
    ∃ p ∈ e.reads, look p = .fault .loop := by
  match e with
  | .number n => simp [eval] at h
  | .cell p => exact ⟨p, by simp [reads], by simpa only [eval] using h⟩
  | .range r => simp [eval] at h
  | .literal text => simp [eval] at h
  | .negate operand =>
      simp only [eval] at h
      split at h
      · exact absurd h (Value.ofNumber_ne_loop _)
      · rename_i fault hfault
        cases h
        obtain ⟨p, hp, hlook⟩ :=
          exists_read_of_eval_eq_loop (Value.toOperand_eq_error_iff.mp hfault)
        exact ⟨p, by simpa only [reads] using hp, hlook⟩
  | .binary operator left right =>
      simp only [eval] at h
      split at h
      · exact absurd h (operator.apply_ne_loop _ _)
      · rename_i fault hfault
        cases h
        obtain ⟨p, hp, hlook⟩ :=
          exists_read_of_eval_eq_loop (Value.toOperand_eq_error_iff.mp hfault)
        exact ⟨p, by simp only [reads, List.mem_append, hp, true_or], hlook⟩
      · rename_i fault _ hfault
        cases h
        obtain ⟨p, hp, hlook⟩ :=
          exists_read_of_eval_eq_loop (Value.toOperand_eq_error_iff.mp hfault)
        exact ⟨p, by simp only [reads, List.mem_append, hp, or_true], hlook⟩
  | .call name given =>
      simp only [eval] at h
      split at h
      · obtain ⟨p, hp, hlook⟩ := exists_read_of_gather_eq_loop (Gathered.call_eq_loop_iff.mp h)
        exact ⟨p, by simpa only [reads] using hp, hlook⟩
      · cases h

theorem exists_read_of_gather_eq_loop {given : List Expr}
    (h : (gather look given).fault = some .loop) :
    ∃ p ∈ readsOfArguments given, look p = .fault .loop := by
  match given with
  | [] => simp [gather, Gathered.none] at h
  | e :: rest =>
      rcases gather_cons_fault h with heval | hrest
      · obtain ⟨p, hp, hlook⟩ := exists_read_of_eval_eq_loop heval
        exact ⟨p, mem_readsOfArguments_cons (.inl hp), hlook⟩
      · obtain ⟨p, hp, hlook⟩ := exists_read_of_gather_eq_loop hrest
        exact ⟨p, mem_readsOfArguments_cons (.inr hp), hlook⟩

end

theorem exists_read_of_value_eq_loop {e : Expr} (h : e.value look = .fault .loop) :
    ∃ p ∈ e.reads, look p = .fault .loop := by
  apply exists_read_of_eval_eq_loop
  unfold value at h
  split at h
  · cases h
  · exact absurd h (Value.ofNumber_ne_loop _)
  · exact h

end Expr

theorem exists_next_of_isChain {α : Type} {r : α → α → Prop} {loop : List α} {p : α}
    (hclosed : ∃ a inner, loop = a :: (inner ++ [a])) (hchain : loop.IsChain r) (hp : p ∈ loop) :
    ∃ q ∈ loop, r p q := by
  obtain ⟨a, inner, rfl⟩ := hclosed
  have hmem : p ∈ a :: inner := by simpa [or_comm] using hp
  obtain ⟨before, after, hsplit⟩ := List.append_of_mem hmem
  rw [← List.cons_append, hsplit, List.append_assoc, List.cons_append] at hchain ⊢
  have hrest := (List.isChain_append.mp hchain).2.1
  cases after with
  | nil => exact ⟨a, by simp, (List.isChain_cons_cons.mp hrest).1⟩
  | cons q after => exact ⟨q, by simp, (List.isChain_cons_cons.mp hrest).1⟩

namespace Grid

variable {grid : Grid} {extent : Extent} {loop : List Position} {p q : Position}

theorem exists_reads_of_formulaValue_eq_loop {look : Position → Value}
    (h : grid.formulaValue extent look p = .fault .loop) :
    ∃ q, grid.Reads extent p q ∧ look q = .fault .loop := by
  unfold formulaValue at h
  cases he : grid.exprAt? extent p with
  | none => simp [he] at h
  | some e =>
      rw [he, Option.map_some, Option.getD_some] at h
      obtain ⟨q, hq, hlook⟩ := Expr.exists_read_of_value_eq_loop h
      exact ⟨q, by simpa [Reads, readsAt, he] using hq, hlook⟩

theorem mem_formulas_of_valueAt_eq_loop (h : grid.IsProper)
    (hloop : grid.valueAt p = .fault .loop) : p ∈ grid.formulas := by
  by_contra hp
  rw [valueAt_of_not_mem_formulas h hp] at hloop
  cases hcell : grid[p]? with
  | none => simp [hcell] at hloop
  | some cell =>
      rw [hcell, Option.map_some, Option.getD_some] at hloop
      unfold Content.initialValue at hloop
      split at hloop <;> cases hloop

theorem IsSettled.valueAt_eq_loop_iff (h : grid.IsSettled extent) (hp : p ∈ grid.formulas) :
    grid.valueAt p = .fault .loop ↔
      grid.ClosesLoop extent p ∨ grid.formulaValue extent grid.valueAt p = .fault .loop := by
  have hiff : (grid.recalculate extent).grid.valueAt p = .fault .loop ↔ _ :=
    Grid.valueAt_eq_loop_iff hp
  rwa [h] at hiff

/-- The fault of a loop has come along reads from a formula on a loop. -/
theorem exists_onLoop_of_valueAt_eq_loop (h : grid.IsProper) (hsettled : grid.IsSettled extent)
    (hloop : grid.valueAt p = .fault .loop) :
    ∃ q, Relation.ReflTransGen (grid.Reads extent) p q ∧ grid.OnLoop extent q := by
  refine formula_induction grid extent (P := fun p => grid.valueAt p = .fault .loop →
    ∃ q, Relation.ReflTransGen (grid.Reads extent) p q ∧ grid.OnLoop extent q) ?_ p
      (mem_formulas_of_valueAt_eq_loop h hloop) hloop
  intro p hp hcases hloop
  rcases hcases with hcloses | hreads
  · exact ⟨p, .refl, hcloses.onLoop⟩
  · rcases (hsettled.valueAt_eq_loop_iff hp).mp hloop with hcloses | hvalue
    · exact ⟨p, .refl, hcloses.onLoop⟩
    · obtain ⟨q, hread, hq⟩ := exists_reads_of_formulaValue_eq_loop hvalue
      obtain ⟨r, hway, hr⟩ := hreads q hread (mem_formulas_of_valueAt_eq_loop h hq) hq
      exact ⟨r, .head hread hway, hr⟩

/-- Cells of which each reads the next one, from a cell back to itself. -/
def IsLoop (grid : Grid) (extent : Extent) (loop : List Position) : Prop :=
  (∃ a inner, loop = a :: (inner ++ [a])) ∧ loop.IsChain (grid.Reads extent)

theorem IsLoop.exists_reads (h : grid.IsLoop extent loop) (hp : p ∈ loop) :
    ∃ q ∈ loop, grid.Reads extent p q :=
  exists_next_of_isChain h.1 h.2 hp

theorem ClosesLoop.exists_isLoop (h : grid.ClosesLoop extent p) :
    ∃ loop, grid.IsLoop extent loop ∧ p ∈ loop ∧ ∀ q ∈ loop, grid.ClosesLoop extent q := by
  obtain ⟨before, a, after, hfirst, hback, hp⟩ := h
  refine ⟨a :: (after ++ [a]), ⟨⟨a, after, rfl⟩, ?_⟩, ?_, ?_⟩
  · rw [← List.cons_append, List.isChain_append]
    refine ⟨(List.isChain_append.mp hfirst.isChain).2.1, List.isChain_singleton a, ?_⟩
    intro x hx y hy
    rw [List.getLast?_eq_some_getLast (List.cons_ne_nil a after)] at hx
    obtain rfl := Option.mem_some_iff.mp hx
    obtain rfl : a = y := by simpa using hy
    exact hback
  · exact List.mem_append_left [a] hp
  · intro q hq
    exact ⟨before, a, after, hfirst, hback, by simpa [or_comm] using hq⟩

theorem IsLoop.exists_closesLoop (h : grid.IsLoop extent loop) :
    ∃ p ∈ loop, grid.ClosesLoop extent p := by
  by_contra hnone
  have hoff : ∀ p ∈ grid.formulas, p ∉ loop := by
    refine formula_induction grid extent fun p _ hcases hp => ?_
    rcases hcases with hcloses | hreads
    · exact hnone ⟨p, hp, hcloses⟩
    · obtain ⟨q, hq, hread⟩ := h.exists_reads hp
      obtain ⟨_, -, hnext⟩ := h.exists_reads hq
      exact hreads q hread (mem_formulas_of_reads hnext) hq
  obtain ⟨⟨a, inner, rfl⟩, -⟩ := id h
  obtain ⟨_, -, hnext⟩ := h.exists_reads (List.mem_cons_self : a ∈ a :: (inner ++ [a]))
  exact hoff a (mem_formulas_of_reads hnext) List.mem_cons_self

theorem IsLoop.closesLoop (h : grid.IsLoop extent loop)
    (hoverlap : ∀ other, grid.IsLoop extent other → (∃ q ∈ other, q ∈ loop) → loop ⊆ other) :
    ∀ p ∈ loop, grid.ClosesLoop extent p := by
  intro p hp
  obtain ⟨q, hq, hcloses⟩ := h.exists_closesLoop
  obtain ⟨other, hother, hmem, hall⟩ := hcloses.exists_isLoop
  exact hall p (hoverlap other hother ⟨q, hmem, hq⟩ hp)

theorem leadsToNoLoop_of_exprAt?_eq_none (h : grid.exprAt? extent p = none) :
    grid.LeadsToNoLoop extent p := by
  have hnone : ∀ q, ¬ grid.Reads extent p q := by
    intro q hreads
    simp [Reads, readsAt, h] at hreads
  intro q hway hloop
  rcases Relation.ReflTransGen.cases_head hway with rfl | ⟨r, hreads, -⟩
  · obtain ⟨r, hreads, -⟩ := Relation.TransGen.head'_iff.mp hloop
    exact hnone r hreads
  · exact hnone r hreads

end Grid

namespace Document

variable {settings : Settings} {d : Document} {p : Position} {path : List Position}

/-- For every fault of a loop on the active sheet the search finds a way into a loop. -/
theorem Reachable.exists_path_of_value_eq_loop (h : Reachable settings d)
    (hloop : d.activeSheet.value p = .fault .loop) :
    ∃ path, d.loopFrom p = some path ∧ d.dependencies.IsLoopPath p path := by
  obtain ⟨q, hway, hq⟩ := Grid.exists_onLoop_of_valueAt_eq_loop h.wellFormed.activeSheet.isProper
    h.isSettled.activeSheet hloop
  have hprecedent : ∀ a b, d.activeSheet.cells.Reads d.activeSheet.extent a b →
      d.dependencies.HasPrecedent a b :=
    fun _ _ hreads => DependencyGraph.mem_precedentsAt_of_reads hreads
  exact DependencyGraph.exists_loopFrom (Relation.ReflTransGen.mono hprecedent p q hway)
    (Relation.TransGen.mono hprecedent q q hq)

theorem Reachable.value_eq_look (h : Reachable settings d) (steps : Nat) :
    let grid := d.activeSheet.cells
    let extent := d.activeSheet.extent
    let walk := (Walk.start grid grid.formulas.keys).advance grid extent steps
    (walk.step? grid extent).isNone = true → d.activeSheet.value p = walk.look grid p := by
  intro grid extent walk hend
  change grid.valueAt p = _
  rw [← Grid.isSettled_iff.mp h.isSettled.activeSheet, Grid.valueAt_recalculate, Grid.finalWalk,
    Walk.run_eq_advance steps hend]

/-- A loop of two formulas and a third formula that reads one of them. -/
def loopBelow : List Operation :=
  [.write ⟨0, 0⟩ "=B1", .write ⟨0, 1⟩ "=A1+1", .write ⟨0, 2⟩ "=2*A1"]

theorem exists_path_loopBelow :
    let d := (Session.run ⟨.new .standard, .empty⟩ loopBelow).document
    d.activeSheet.value ⟨0, 2⟩ = .fault .loop ∧
      ∃ path, d.loopFrom ⟨0, 2⟩ = some path ∧ d.dependencies.IsLoopPath ⟨0, 2⟩ path := by
  intro d
  have h : Reachable .standard d := reachable_run .new loopBelow
  have hloop : d.activeSheet.value ⟨0, 2⟩ = .fault .loop := by
    rw [h.value_eq_look 30 (by decide +kernel)]
    decide +kernel
  exact ⟨hloop, h.exists_path_of_value_eq_loop hloop⟩

/-- The loop that a reported path closes, over cells of which each mentions the next one. All of
them hold the fault of a loop on which the first ways close a loop, or whose formulas are worth that
fault. If each cell even reads the next one, there are such cells among them, and no others unless
another loop overlaps with this one. Cells from which no reads lead to a loop hold what their
formulas are worth, and those whose formulas cannot be read hold the fault of such a formula. -/
theorem Reachable.values_on_reported_loop (h : Reachable settings d)
    (hpath : d.loopFrom p = some path) :
    let grid := d.activeSheet.cells
    let extent := d.activeSheet.extent
    let loop := DependencyGraph.loopOf path
    ((∃ a inner, loop = a :: (inner ++ [a])) ∧ loop.IsChain d.dependencies.HasPrecedent) ∧
      (∀ q ∈ loop, grid.ClosesLoop extent q ∨
        grid.formulaValue extent d.activeSheet.value q = .fault .loop →
          d.activeSheet.value q = .fault .loop) ∧
      (grid.IsLoop extent loop →
        (∃ q ∈ loop, d.activeSheet.value q = .fault .loop) ∧
          ((∀ other, grid.IsLoop extent other → (∃ q ∈ other, q ∈ loop) → loop ⊆ other) →
            ∀ q ∈ loop, d.activeSheet.value q = .fault .loop)) ∧
      (∀ q ∈ loop, grid.LeadsToNoLoop extent q →
        d.activeSheet.value q = grid.formulaValue extent d.activeSheet.value q ∧
          d.activeSheet.value q ≠ .fault .loop) ∧
      ∀ q ∈ loop, grid.exprAt? extent q = none → d.activeSheet.value q = .fault .invalid := by
  intro grid extent loop
  have hsettled : grid.IsSettled extent := h.isSettled.activeSheet
  have hreported := (DependencyGraph.isLoopPath_of_loopFrom hpath).loopOf_eq
  have hformula : ∀ q ∈ loop, q ∈ grid.formulas := by
    intro q hq
    obtain ⟨r, -, hnext⟩ := exists_next_of_isChain hreported.1 hreported.2 hq
    exact DependencyGraph.mem_formulas_of_mem_precedentsAt hnext
  have hcycle : ∀ q ∈ loop, d.activeSheet.value q = .fault .loop ↔ grid.ClosesLoop extent q ∨
      grid.formulaValue extent d.activeSheet.value q = .fault .loop :=
    fun q hq => hsettled.valueAt_eq_loop_iff (hformula q hq)
  -- The formulas on the loop off all loops of reads are those that the search alone has found.
  have hoff : ∀ q ∈ loop, grid.LeadsToNoLoop extent q →
      d.activeSheet.value q = grid.formulaValue extent d.activeSheet.value q :=
    fun q hq hfree => hsettled.valueAt_eq_formulaValue (hformula q hq) (hfree q .refl)
  refine ⟨hreported, fun q hq => (hcycle q hq).mpr, ?_, ?_, ?_⟩
  · intro hreads
    obtain ⟨q, hq, hcloses⟩ := hreads.exists_closesLoop
    refine ⟨⟨q, hq, (hcycle q hq).mpr (.inl hcloses)⟩, ?_⟩
    intro hoverlap q hq
    exact (hcycle q hq).mpr (.inl (hreads.closesLoop hoverlap q hq))
  · intro q hq hfree
    refine ⟨hoff q hq hfree, ?_⟩
    intro hloop
    obtain ⟨r, hway, hr⟩ := Grid.exists_onLoop_of_valueAt_eq_loop
      h.wellFormed.activeSheet.isProper hsettled hloop
    exact hfree r hway hr
  · intro q hq hnone
    rw [hoff q hq (Grid.leadsToNoLoop_of_exprAt?_eq_none hnone), Grid.formulaValue, hnone]
    rfl

theorem values_on_loopBelow :
    let d := (Session.run ⟨.new .standard, .empty⟩ loopBelow).document
    d.loopFrom ⟨0, 2⟩ = some [⟨0, 2⟩, ⟨0, 0⟩, ⟨0, 1⟩, ⟨0, 0⟩] ∧
      ∀ q ∈ [(⟨0, 0⟩ : Position), ⟨0, 1⟩, ⟨0, 0⟩], d.activeSheet.value q = .fault .loop := by
  intro d
  have h : Reachable .standard d := reachable_run .new loopBelow
  have hfirst : (d.dependencies.precedentsAt ⟨0, 2⟩).toList = [⟨0, 0⟩] := by decide +kernel
  have hpath : d.loopFrom ⟨0, 2⟩ = some [⟨0, 2⟩, ⟨0, 0⟩, ⟨0, 1⟩, ⟨0, 0⟩] := by
    rw [loopFrom, DependencyGraph.loopFrom, hfirst, DependencyGraph.search,
      if_neg (by decide +kernel), dif_pos (by decide +kernel),
      show Std.ExtTreeSet.toList _ = [(⟨0, 1⟩ : Position)] by decide +kernel,
      DependencyGraph.search, if_neg (by decide +kernel), dif_pos (by decide +kernel),
      show Std.ExtTreeSet.toList _ = [(⟨0, 0⟩ : Position)] by decide +kernel,
      DependencyGraph.search, if_pos (by decide +kernel)]
    rfl
  have hreads : ∀ q, (d.activeSheet.cells.Reads d.activeSheet.extent ⟨0, 0⟩ q ↔ q = ⟨0, 1⟩) ∧
      (d.activeSheet.cells.Reads d.activeSheet.extent ⟨0, 1⟩ q ↔ q = ⟨0, 0⟩) := by
    have hA : d.activeSheet.cells.readsAt d.activeSheet.extent ⟨0, 0⟩ = [⟨0, 1⟩] := by
      decide +kernel
    have hB : d.activeSheet.cells.readsAt d.activeSheet.extent ⟨0, 1⟩ = [⟨0, 0⟩] := by
      decide +kernel
    intro q
    rw [Grid.Reads, Grid.Reads, hA, hB, List.mem_singleton, List.mem_singleton]
    exact ⟨.rfl, .rfl⟩
  have hloop : DependencyGraph.loopOf [(⟨0, 2⟩ : Position), ⟨0, 0⟩, ⟨0, 1⟩, ⟨0, 0⟩] =
      [⟨0, 0⟩, ⟨0, 1⟩, ⟨0, 0⟩] := by
    decide
  refine ⟨hpath, ((h.values_on_reported_loop hpath).2.2.1 ?_).2 ?_⟩
  · refine ⟨⟨⟨0, 0⟩, [⟨0, 1⟩], hloop⟩, ?_⟩
    exact .cons_cons ((hreads _).1.mpr rfl) (.cons_cons ((hreads _).2.mpr rfl) (.singleton _))
  · intro other hother hshared
    have hboth : ⟨0, 0⟩ ∈ other ↔ ⟨0, 1⟩ ∈ other := by
      constructor
      · intro hA
        obtain ⟨r, hr, hread⟩ := hother.exists_reads hA
        exact (hreads r).1.mp hread ▸ hr
      · intro hB
        obtain ⟨r, hr, hread⟩ := hother.exists_reads hB
        exact (hreads r).2.mp hread ▸ hr
    obtain ⟨q, hq, hmem⟩ := hshared
    have hcells : q = ⟨0, 0⟩ ∨ q = ⟨0, 1⟩ := by
      rw [hloop] at hmem
      simpa [or_comm] using hmem
    have hA : ⟨0, 0⟩ ∈ other := by
      rcases hcells with rfl | rfl
      · exact hq
      · exact hboth.mpr hq
    rw [hloop]
    simpa using ⟨hA, hboth.mp hA, hA⟩

theorem exists_reported_loop_value_ne :
    ¬ ∀ (settings : Settings) (d : Document) (p : Position) (path : List Position),
      Reachable settings d → d.loopFrom p = some path →
        ∀ q ∈ DependencyGraph.loopOf path, d.activeSheet.value q = .fault .loop := by
  intro hall
  let d := (Session.run ⟨.new .standard, .empty⟩ [.write ⟨0, 0⟩ "=A1+"]).document
  have h : Reachable .standard d := reachable_run .new _
  have hfirst : (d.dependencies.precedentsAt ⟨0, 0⟩).toList = [⟨0, 0⟩] := by decide +kernel
  have hpath : d.loopFrom ⟨0, 0⟩ = some [⟨0, 0⟩, ⟨0, 0⟩] := by
    rw [loopFrom, DependencyGraph.loopFrom, hfirst, DependencyGraph.search,
      if_pos (by decide +kernel)]
    rfl
  have hvalue := hall .standard d ⟨0, 0⟩ _ h hpath ⟨0, 0⟩ (by decide)
  rw [h.value_eq_look 30 (by decide +kernel)] at hvalue
  exact absurd hvalue (by decide +kernel)

end Document

end Spreadsheet
