import Spreadsheet.Proofs.Recalculation
import Spreadsheet.Proofs.SortedMaps
import Spreadsheet.Recalculation.Pass

namespace Spreadsheet

/-- The value that the memo has for a formula. -/
def Progress.value? : Progress → Option Value
  | .underWay => none
  | .looped => some (.fault .loop)
  | .done value => some value

/-- A formula on the stack as a walk has it there. -/
def Unresolved.frame (unresolved : Unresolved) : Frame :=
  ⟨unresolved.cell, unresolved.formula, unresolved.reads.drop unresolved.next⟩

theorem Walk.Takes.step?_eq {grid : Grid} {extent : Extent} {walk taken : Walk} {p : Position}
    (h : walk.Takes p taken) : walk.step? grid extent = some (taken.visit extent p) := by
  obtain ⟨fresh, progress, stack, roots, notices⟩ := walk
  cases h with
  | read hstack =>
      obtain rfl := hstack
      rfl
  | root hstack hroots =>
      obtain rfl := hstack
      obtain rfl := hroots
      rfl

namespace Pass

variable {grid : Grid} {extent : Extent} {roots : List Position} {looked : Option Position}
  {pass : Pass} {walk next : Walk} {p q : Position}

/-- What a pass has noted, against the walk that it takes. -/
structure Mirrors (grid : Grid) (extent : Extent) (pass : Pass) (walk : Walk) : Prop where
  stack_eq : pass.stack.map Unresolved.frame = walk.stack
  roots_eq : pass.roots = walk.roots
  reads_eq : ∀ unresolved ∈ pass.stack,
    unresolved.reads = grid.readsAt extent unresolved.cell
  getElem?_memo : ∀ p : Position, pass.memo[p]? = walk.progress[p]?.bind Progress.value?
  mem_onStack : ∀ p, p ∈ pass.onStack ↔ p ∈ walk.way
  mem_cyclic : ∀ p ∈ walk.way, p ∈ pass.cyclic ↔ walk.progress[p]? = some .looped
  of_cyclic : ∀ p ∈ pass.cyclic, p ∉ walk.fresh ∧ grid.OnLoop extent p

theorem mirrors_start (grid : Grid) (extent : Extent) :
    Mirrors grid extent (start grid) (Walk.start grid grid.formulas.keys) where
  stack_eq := rfl
  roots_eq := rfl
  reads_eq := by simp [start]
  getElem?_memo := by simp [start, Walk.start]
  mem_onStack := by simp [start, Walk.start, Walk.way]
  mem_cyclic := by simp [Walk.start, Walk.way]
  of_cyclic := by simp [start]

theorem Mirrors.way_eq (h : Mirrors grid extent pass walk) : pass.way = walk.way := by
  rw [way, Walk.way, ← h.stack_eq, List.map_map]
  rfl

theorem lookup_eq_getD : pass.lookup grid p = pass.memo[p]?.getD (grid.settledValue p) := by
  rw [lookup, lookup?, Grid.settledValue]
  cases pass.memo[p]? with
  | some value => rfl
  | none =>
      cases grid[p]? with
      | none => rfl
      | some cell =>
          dsimp only
          split <;> rfl

theorem Mirrors.lookup_eq (h : Mirrors grid extent pass walk)
    (hwalk : walk.Consistent grid extent roots looked) : pass.lookup grid = walk.look grid := by
  funext p
  rw [lookup_eq_getD, h.getElem?_memo, Walk.look]
  cases hprogress : walk.progress[p]? with
  | none => rfl
  | some progress =>
      cases progress with
      | underWay =>
          have hformula : p ∈ grid.formulas :=
            ((hwalk.mem_progress p).mp (SortedMap.mem_of_getElem?_eq_some hprogress)).1
          simp [Progress.value?, Grid.settledValue_eq, hformula]
      | looped => rfl
      | done value => rfl

theorem foldl_mark (cells : List Position) (pass : Pass) :
    let marked := cells.foldl mark pass
    (marked.stack = pass.stack ∧ marked.onStack = pass.onStack ∧ marked.roots = pass.roots) ∧
      (∀ q : Position, marked.memo[q]? =
        if q ∈ cells then some (.fault .loop) else pass.memo[q]?) ∧
      ∀ q, q ∈ marked.cyclic ↔ q ∈ cells ∨ q ∈ pass.cyclic := by
  induction cells generalizing pass with
  | nil => simp
  | cons p cells ih =>
      obtain ⟨hsame, hmemo, hcyclic⟩ := ih (pass.mark p)
      refine ⟨hsame, fun q => ?_, fun q => ?_⟩
      · rw [List.foldl_cons, hmemo q, mark, SortedMap.getElem?_insert]
        by_cases hq : q ∈ cells <;> by_cases hqp : q = p <;> simp [hq, hqp]
      · rw [List.foldl_cons, hcyclic q, mark, SortedSet.mem_insert_iff, List.mem_cons]
        tauto

theorem dropWhile_reverse {above below : List Position} (hp : p ∉ below) :
    (above ++ p :: below).reverse.dropWhile (· != p) = p :: above.reverse := by
  have hbelow : ∀ q ∈ below.reverse, (q != p) = true := by
    intro q hq
    rw [bne_iff_ne]
    rintro rfl
    exact hp (List.mem_reverse.mp hq)
  rw [List.reverse_append, List.reverse_cons, List.append_assoc,
    List.dropWhile_append_of_pos hbelow]
  simp

theorem Mirrors.visit_eq_of_mem_fresh (h : Mirrors grid extent pass walk)
    (hwalk : walk.Consistent grid extent roots looked) (hfresh : p ∈ walk.fresh) :
    pass.visit grid extent p = { pass with
      onStack := pass.onStack.insert p
      stack := ⟨p, grid.exprAt? extent p, grid.readsAt extent p, 0⟩ :: pass.stack } := by
  have honStack : p ∉ pass.onStack := fun hmem =>
    hwalk.not_mem_fresh_of_mem_way ((h.mem_onStack p).mp hmem) hfresh
  have hmemo : p ∉ pass.memo := by
    rw [Std.ExtTreeMap.mem_iff_isSome_getElem?, h.getElem?_memo,
      hwalk.getElem?_progress_eq_none fun _ => hfresh]
    exact Bool.false_ne_true
  obtain ⟨body, hbody⟩ := Option.isSome_iff_exists.mp
    (Std.ExtTreeMap.mem_iff_isSome_getElem?.mp (hwalk.mem_formulas_of_mem_fresh hfresh))
  have hexpr : (parseFormula extent body).toOption = grid.exprAt? extent p := by
    rw [Grid.exprAt?, hbody, Option.bind_some]
  rw [Pass.visit, if_neg honStack, if_neg hmemo, ← Grid.getElem?_formulas, hbody]
  simp only [openFormula, hexpr, Grid.readsAt]

theorem Mirrors.opens (h : Mirrors grid extent pass walk)
    (hwalk : walk.Consistent grid extent roots looked)
    (hopens : walk.Opens grid extent p next) :
    Mirrors grid extent (pass.visit grid extent p) next := by
  have hway : p ∉ walk.way := fun hmem => hwalk.not_mem_fresh_of_mem_way hmem hopens.mem_fresh
  rw [h.visit_eq_of_mem_fresh hwalk hopens.mem_fresh]
  refine ⟨?_, ?_, ?_, ?_, ?_, ?_, ?_⟩
  · rw [hopens.stack_eq, ← h.stack_eq]
    rfl
  · rw [hopens.roots_eq, ← h.roots_eq]
  · rintro unresolved hmem
    rcases List.mem_cons.mp hmem with rfl | hmem
    · rfl
    · exact h.reads_eq unresolved hmem
  · intro q
    rw [h.getElem?_memo]
    by_cases hq : q = p
    · subst hq
      rw [hopens.getElem?_progress_self, hwalk.getElem?_progress_eq_none fun _ => hopens.mem_fresh]
      rfl
    · rw [hopens.getElem?_progress_of_ne hq]
  · intro q
    rw [SortedSet.mem_insert_iff, h.mem_onStack, hopens.way_eq, List.mem_cons]
  · intro q hq
    rw [hopens.way_eq, List.mem_cons] at hq
    rcases hq with rfl | hq
    · rw [hopens.getElem?_progress_self]
      simpa using fun hcyclic => (h.of_cyclic q hcyclic).1 hopens.mem_fresh
    · have hqp : q ≠ p := fun heq => hway (heq ▸ hq)
      rw [hopens.getElem?_progress_of_ne hqp]
      exact h.mem_cyclic q hq
  · intro q hq
    obtain ⟨hfresh, hloop⟩ := h.of_cyclic q hq
    refine ⟨fun hmem => hfresh ?_, hloop⟩
    rw [hopens.fresh_eq] at hmem
    exact Std.ExtTreeMap.mem_of_mem_erase hmem

theorem Mirrors.loops {above : List Position} (h : Mirrors grid extent pass walk)
    (hwalk : walk.Consistent grid extent roots (some p))
    (hloops : walk.Loops p above next) : Mirrors grid extent (pass.visit grid extent p) next := by
  obtain ⟨below, hway⟩ := hloops.way_eq
  have hnext : next.way = walk.way := by rw [Walk.way, Walk.way, hloops.stack_eq]
  have hp : p ∈ pass.onStack := by
    rw [h.mem_onStack, hway]
    simp
  have hbelow : p ∉ below := by
    have hnodup := hwalk.nodup
    rw [hway] at hnodup
    exact (List.nodup_cons.mp (List.nodup_append.mp hnodup).2.1).1
  have hcells : ∀ q, q ∈ p :: above.reverse ↔ q ∈ above ∨ q = p := by
    intro q
    rw [List.mem_cons, List.mem_reverse, or_comm]
  obtain ⟨⟨hstack, honStack, hroots⟩, hmemo, hcyclic⟩ := foldl_mark (p :: above.reverse) pass
  rw [Pass.visit, if_pos hp, closeLoop, h.way_eq, hway, dropWhile_reverse hbelow]
  refine ⟨?_, ?_, ?_, ?_, ?_, ?_, ?_⟩
  · rw [hstack, hloops.stack_eq, h.stack_eq]
  · rw [hroots, hloops.roots_eq, h.roots_eq]
  · rw [hstack]
    exact h.reads_eq
  · intro q
    rw [hmemo, hloops.getElem?_progress q, h.getElem?_memo]
    simp only [hcells]
    split <;> rfl
  · intro q
    rw [honStack, h.mem_onStack, hnext]
  · intro q hq
    rw [hnext] at hq
    rw [hcyclic, hcells, hloops.getElem?_progress q, h.mem_cyclic q hq]
    split <;> simp_all
  · intro q hq
    rw [hloops.fresh_eq]
    rw [hcyclic, hcells] at hq
    rcases hq with hq | hq
    · have hmem : q ∈ walk.way := by
        rw [hway, List.mem_append, List.mem_cons]
        exact hq.imp_right .inl
      exact ⟨hwalk.not_mem_fresh_of_mem_way hmem, hwalk.onLoop hloops hq⟩
    · exact h.of_cyclic q hq

theorem Mirrors.visit_eq_self (h : Mirrors grid extent pass walk)
    (hwalk : walk.Consistent grid extent roots looked) (hfresh : p ∉ walk.fresh)
    (hway : p ∉ walk.way) : pass.visit grid extent p = pass := by
  rw [Pass.visit, if_neg fun hmem => hway ((h.mem_onStack p).mp hmem)]
  split
  · rfl
  · rename_i hmemo
    by_cases hformula : p ∈ grid.formulas
    · obtain ⟨value, hdone⟩ := hwalk.done_of_not_mem_way hformula hfresh hway
      refine absurd (SortedMap.mem_of_getElem?_eq_some (v := value) ?_) hmemo
      rw [h.getElem?_memo, hdone]
      rfl
    · rw [← Grid.getElem?_formulas, Std.ExtTreeMap.getElem?_eq_none hformula]

theorem Mirrors.visit (h : Mirrors grid extent pass walk)
    (hwalk : walk.Consistent grid extent roots (some p)) :
    Mirrors grid extent (pass.visit grid extent p) (walk.visit extent p) := by
  rcases hwalk.visit_cases with hopens | ⟨above, hloops⟩ | ⟨hfresh, hway, heq⟩
  · exact h.opens hwalk hopens
  · exact h.loops hwalk hloops
  · rw [heq, h.visit_eq_self hwalk hfresh hway]
    exact h

theorem Mirrors.stack_cons {latest : Unresolved} {below : List Unresolved}
    (h : Mirrors grid extent pass walk) (hstack : pass.stack = latest :: below) :
    walk.stack = latest.frame :: below.map Unresolved.frame := by
  rw [← h.stack_eq, hstack, List.map_cons]

theorem Mirrors.valueOf_eq {latest : Unresolved} {value : Value}
    (h : Mirrors grid extent pass walk) (hwalk : walk.Consistent grid extent roots looked)
    (hformula : latest.formula = grid.exprAt? extent latest.cell)
    (hends : walk.Ends grid extent latest.cell value next) :
    pass.valueOf grid latest = value := by
  have hcyclic := h.mem_cyclic latest.cell (by rw [hends.way_eq]; exact List.mem_cons_self)
  rw [valueOf]
  rcases hends.value_eq with ⟨hprogress, rfl⟩ | ⟨hprogress, rfl⟩
  · rw [if_pos (hcyclic.mpr hprogress)]
  · have hnot : latest.cell ∉ pass.cyclic := fun hmem => by
      simp [hcyclic.mp hmem] at hprogress
    rw [if_neg hnot, Grid.formulaValue, ← hformula, h.lookup_eq hwalk]
    cases latest.formula <;> rfl

theorem Mirrors.finish {latest : Unresolved} {below : List Unresolved}
    (h : Mirrors grid extent pass walk) (hwalk : walk.Consistent grid extent roots none)
    (hstack : pass.stack = latest :: below) (hnext : latest.reads.length ≤ latest.next) :
    Mirrors grid extent (pass.finish grid latest below)
      (walk.close grid latest.frame (below.map Unresolved.frame)) := by
  have hframe : latest.frame = ⟨latest.cell, latest.formula, []⟩ := by
    rw [Unresolved.frame, List.drop_eq_nil_of_le hnext]
  have hwalkStack := h.stack_cons hstack
  rw [hframe] at hwalkStack ⊢
  have hformula : latest.formula = grid.exprAt? extent latest.cell :=
    hwalk.formula _ (hwalkStack ▸ List.mem_cons_self)
  obtain ⟨value, hends⟩ := hwalk.close_ends hwalkStack
  have hnodup := hwalk.nodup
  rw [hends.way_eq, List.nodup_cons] at hnodup
  have hfinish : pass.finish grid latest below =
      { pass with
        stack := below
        onStack := pass.onStack.erase latest.cell
        memo := pass.memo.insert latest.cell value } := by
    rw [← h.valueOf_eq hwalk hformula hends]
    rfl
  have hbelow : (walk.close grid ⟨latest.cell, latest.formula, []⟩
      (below.map Unresolved.frame)).stack = below.map Unresolved.frame := by
    obtain ⟨formula, hends⟩ := hends.stack_eq
    rw [hwalkStack] at hends
    exact (List.cons.inj hends).2.symm
  rw [hfinish]
  refine ⟨hbelow.symm, ?_, ?_, ?_, ?_, ?_, ?_⟩
  · rw [hends.roots_eq]
    exact h.roots_eq
  · exact fun unresolved hmem => h.reads_eq unresolved (hstack ▸ List.mem_cons_of_mem _ hmem)
  · intro q
    rw [SortedMap.getElem?_insert, h.getElem?_memo, hends.progress_eq, SortedMap.getElem?_insert]
    split <;> rfl
  · intro q
    rw [SortedSet.mem_erase_iff, h.mem_onStack, hends.way_eq, List.mem_cons]
    constructor
    · rintro ⟨hne, hq⟩
      exact hq.resolve_left hne
    · intro hq
      exact ⟨fun heq => hnodup.1 (heq ▸ hq), .inr hq⟩
  · intro q hq
    have hne : q ≠ latest.cell := fun heq => hnodup.1 (heq ▸ hq)
    rw [hends.getElem?_progress_of_ne hne]
    exact h.mem_cyclic q (by rw [hends.way_eq]; exact List.mem_cons_of_mem _ hq)
  · rw [hends.fresh_eq]
    exact h.of_cyclic

theorem Mirrors.looksOn {latest : Unresolved} {below : List Unresolved}
    (h : Mirrors grid extent pass walk) (hstack : pass.stack = latest :: below) (next : Nat) :
    Mirrors grid extent { pass with stack := { latest with next := next } :: below }
      { walk with
        stack := ⟨latest.cell, latest.formula, latest.reads.drop next⟩ ::
          below.map Unresolved.frame } := by
  have hway : Walk.way { walk with
      stack := ⟨latest.cell, latest.formula, latest.reads.drop next⟩ ::
        below.map Unresolved.frame } = walk.way := by
    rw [Walk.way, Walk.way, h.stack_cons hstack]
    rfl
  have hreads := h.reads_eq
  rw [hstack] at hreads
  refine { h with stack_eq := rfl, reads_eq := ?_, mem_onStack := ?_, mem_cyclic := ?_ }
  · exact fun unresolved hmem => (List.mem_cons.mp hmem).elim
      (fun heq => heq ▸ hreads latest List.mem_cons_self)
      fun hmem => hreads unresolved (List.mem_cons_of_mem _ hmem)
  · rw [hway]
    exact h.mem_onStack
  · rw [hway]
    exact h.mem_cyclic

/-- A pass takes a step exactly if the walk does, and goes on as the walk does. -/
theorem Mirrors.step? (h : Mirrors grid extent pass walk)
    (hwalk : walk.Consistent grid extent roots none) :
    Option.Rel (Mirrors grid extent) (pass.step? grid extent) (walk.step? grid extent) := by
  obtain ⟨memo, stack, onStack, cyclic, remaining⟩ := pass
  have hroots := h.roots_eq
  cases stack with
  | nil =>
      have hstack : walk.stack = [] := h.stack_eq.symm
      cases remaining with
      | nil =>
          have hnone : walk.step? grid extent = none :=
            Walk.step?_eq_none_iff.mpr ⟨hstack, hroots.symm⟩
          rw [hnone]
          exact .none
      | cons p rest =>
          have htakes : walk.Takes p { walk with roots := rest } := .root hstack hroots.symm
          have htaken : Mirrors grid extent ⟨memo, [], onStack, cyclic, rest⟩
              { walk with roots := rest } := { h with roots_eq := rfl }
          rw [htakes.step?_eq]
          exact .some (htaken.visit (hwalk.take htakes))
  | cons latest below =>
      have hstack : walk.stack = latest.frame :: below.map Unresolved.frame := h.stack_eq.symm
      cases hread : latest.reads[latest.next]? with
      | none =>
          have hnext : latest.reads.length ≤ latest.next := List.getElem?_eq_none_iff.mp hread
          have hwalkStep : walk.step? grid extent =
              some (walk.close grid latest.frame (below.map Unresolved.frame)) := by
            rw [Unresolved.frame, List.drop_eq_nil_of_le hnext] at hstack ⊢
            rw [Walk.step?, hstack]
          rw [hwalkStep]
          simp only [Pass.step?, hread]
          exact .some (h.finish hwalk rfl hnext)
      | some p =>
          obtain ⟨hnext, rfl⟩ := List.getElem?_eq_some_iff.mp hread
          rw [Unresolved.frame, List.drop_eq_getElem_cons hnext] at hstack
          have htakes := Walk.Takes.read hstack
          have htaken := h.looksOn rfl (latest.next + 1)
          rw [htakes.step?_eq]
          simp only [Pass.step?, hread]
          exact .some (htaken.visit (hwalk.take htakes))

end Pass

end Spreadsheet
