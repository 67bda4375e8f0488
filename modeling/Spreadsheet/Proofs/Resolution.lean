import Mathlib.Data.Nat.Find
import Mathlib.Order.Monotone.Basic
import Spreadsheet.Proofs.Locality
import Spreadsheet.Proofs.Lookups
import Spreadsheet.Proofs.Passes

namespace Spreadsheet

theorem existsUnique_begins (holds : Nat → Prop) (hkept : ∀ n, holds n → holds (n + 1))
    (hfirst : ¬ holds 0) (hend : ∃ n, holds n) : ∃! n, ¬ holds n ∧ holds (n + 1) := by
  classical
  have hmono : Monotone holds := monotone_nat_of_le_succ hkept
  obtain ⟨n, hn⟩ := Nat.exists_eq_succ_of_ne_zero fun hzero =>
    hfirst (hzero ▸ Nat.find_spec hend)
  have hbegins : holds (n + 1) := by
    have hholds := Nat.find_spec hend
    rwa [hn] at hholds
  refine ⟨n, ⟨Nat.find_min hend (by omega), hbegins⟩, ?_⟩
  rintro m ⟨hbefore, hafter⟩
  have hle : Nat.find hend ≤ m + 1 := Nat.find_min' hend hafter
  have hlt : m < Nat.find hend := by
    by_contra hnot
    exact hbefore (hmono (Nat.not_lt.mp hnot) (Nat.find_spec hend))
  omega

namespace Walk

variable {grid : Grid} {extent : Extent} {roots : List Position} {looked : Option Position}
  {walk next : Walk} {p q : Position}

/-- The value of a formula has been found. -/
def Done (walk : Walk) (p : Position) : Prop :=
  ∃ value, walk.progress[p]? = some (.done value)

/-- What one step does to the stack. -/
inductive Moves (walk next : Walk) : Prop where
  | pushes (p : Position) (hfresh : p ∈ walk.fresh) (hway : next.way = p :: walk.way)
      (hfresh_eq : next.fresh = walk.fresh.erase p) (hdone : ∀ q, next.Done q ↔ walk.Done q)
  | stays (hway : next.way = walk.way) (hfresh_eq : next.fresh = walk.fresh)
      (hdone : ∀ q, next.Done q ↔ walk.Done q)
  | pops (p : Position) (hnot : ¬ walk.Done p) (hway : walk.way = p :: next.way)
      (hfresh_eq : next.fresh = walk.fresh) (hdone : ∀ q, next.Done q ↔ q = p ∨ walk.Done q)

theorem Consistent.not_done_of_mem_way (h : Consistent grid extent roots looked walk)
    (hway : p ∈ walk.way) : ¬ walk.Done p := by
  rintro ⟨value, hvalue⟩
  rcases (h.mem_way p).mp hway with hprogress | hprogress <;> simp [hvalue] at hprogress

theorem Consistent.moves (h : Consistent grid extent roots none walk)
    (hstep : walk.step? grid extent = some next) : Moves walk next := by
  have hkept : ∀ q, walk.Done q → next.Done q := by
    rintro q ⟨value, hvalue⟩
    exact ⟨value, h.keeps_step hstep q value hvalue⟩
  -- A formula is done as it leaves the stack, so no step that does not shorten the stack ends one.
  have hsame : walk.way.length ≤ next.way.length → ∀ q, next.Done q ↔ walk.Done q := by
    refine fun hlength q => ⟨?_, hkept q⟩
    rintro ⟨value, hvalue⟩
    rcases h.done_cases hstep hvalue with hbefore | hends
    · exact ⟨value, hbefore⟩
    · rw [hends.way_eq, List.length_cons] at hlength
      omega
  rcases h.step_cases hstep with ⟨p, taken, htakes, hopens | ⟨above, hloops⟩ | ⟨-, -, rfl⟩⟩ |
    ⟨cell, value, hends⟩
  · have hway : next.way = p :: walk.way := by rw [hopens.way_eq, htakes.way_eq]
    refine .pushes p (htakes.fresh_eq ▸ hopens.mem_fresh) hway ?_ (hsame (by simp [hway]))
    rw [hopens.fresh_eq, htakes.fresh_eq]
  · have hway : next.way = walk.way := by rw [← htakes.way_eq, way, way, hloops.stack_eq]
    refine .stays hway ?_ (hsame (by simp [hway]))
    rw [hloops.fresh_eq, htakes.fresh_eq]
  · exact .stays htakes.way_eq htakes.fresh_eq (hsame (by simp [htakes.way_eq]))
  · refine .pops cell (h.not_done_of_mem_way (by simp [hends.way_eq])) hends.way_eq hends.fresh_eq
      fun q => ⟨?_, ?_⟩
    · rintro ⟨last, hlast⟩
      by_cases hq : q = cell
      · exact .inl hq
      · exact .inr ⟨last, hends.getElem?_progress_of_ne hq ▸ hlast⟩
    · rintro (rfl | hq)
      · exact ⟨value, hends.getElem?_progress_self⟩
      · exact hkept q hq

theorem Moves.pushes_iff (h : Moves walk next) :
    next.way = p :: walk.way ↔ p ∈ walk.fresh ∧ p ∉ next.fresh := by
  cases h with
  | pushes q hfresh hway hfresh_eq hdone =>
      rw [hway, hfresh_eq, SortedMap.mem_erase_iff, List.cons.injEq]
      constructor
      · rintro ⟨rfl, -⟩
        exact ⟨hfresh, fun hmem => hmem.1 rfl⟩
      · rintro ⟨hp, hnot⟩
        refine ⟨?_, rfl⟩
        by_contra hne
        exact hnot ⟨Ne.symm hne, hp⟩
  | stays hway hfresh_eq hdone => simp [hway, hfresh_eq]
  | pops q hnot hway hfresh_eq hdone =>
      rw [hfresh_eq]
      refine ⟨fun heq => ?_, fun hp => absurd hp.1 hp.2⟩
      have hlength := congrArg List.length (hway.trans (congrArg (q :: ·) heq))
      simp only [List.length_cons] at hlength
      omega

theorem Moves.pops_iff (h : Moves walk next) :
    walk.way = p :: next.way ↔ ¬ walk.Done p ∧ next.Done p := by
  cases h with
  | pushes q hfresh hway hfresh_eq hdone =>
      rw [hdone, hway]
      refine ⟨fun heq => ?_, fun hp => absurd hp.2 hp.1⟩
      have hlength := congrArg List.length heq
      simp only [List.length_cons] at hlength
      omega
  | stays hway hfresh_eq hdone => simp [hway, hdone]
  | pops q hnot hway hfresh_eq hdone =>
      rw [hdone, hway, List.cons.injEq]
      constructor
      · rintro ⟨rfl, -⟩
        exact ⟨hnot, .inl rfl⟩
      · rintro ⟨hp, rfl | hdone⟩
        · exact ⟨rfl, rfl⟩
        · exact absurd hdone hp

theorem Moves.mem_fresh_of_next (h : Moves walk next) (hp : p ∈ next.fresh) : p ∈ walk.fresh := by
  cases h with
  | pushes q hfresh hway hfresh_eq hdone =>
      rw [hfresh_eq] at hp
      exact Std.ExtTreeMap.mem_of_mem_erase hp
  | stays hway hfresh_eq hdone => exact hfresh_eq ▸ hp
  | pops q hnot hway hfresh_eq hdone => exact hfresh_eq ▸ hp

theorem Moves.done_of_done (h : Moves walk next) (hp : walk.Done p) : next.Done p := by
  cases h with
  | pushes q hfresh hway hfresh_eq hdone => exact (hdone p).mpr hp
  | stays hway hfresh_eq hdone => exact (hdone p).mpr hp
  | pops q hnot hway hfresh_eq hdone => exact (hdone p).mpr (.inr hp)

end Walk

namespace Pass

variable {grid : Grid} {extent : Extent} {n m : Nat} {p q : Position}

/-- The walk of a recalculation after a number of steps. -/
def walkAfter (grid : Grid) (extent : Extent) (n : Nat) : Walk :=
  (Walk.start grid grid.formulas.keys).advance grid extent n

theorem walkAfter_succ (grid : Grid) (extent : Extent) (n : Nat) :
    walkAfter grid extent (n + 1) =
      ((walkAfter grid extent n).step? grid extent).getD (walkAfter grid extent n) :=
  Walk.advance_succ n _

theorem walkAfter_succ_cases (grid : Grid) (extent : Extent) (n : Nat) :
    walkAfter grid extent (n + 1) = walkAfter grid extent n ∨
      (walkAfter grid extent n).step? grid extent = some (walkAfter grid extent (n + 1)) := by
  rw [walkAfter_succ]
  cases (walkAfter grid extent n).step? grid extent with
  | none => exact .inl rfl
  | some next => exact .inr rfl

theorem consistent_walkAfter (grid : Grid) (extent : Extent) (n : Nat) :
    (walkAfter grid extent n).Consistent grid extent grid.formulas.keys none := by
  induction n with
  | zero => exact Walk.consistent_start grid extent grid.formulas.keys
  | succ n ih =>
      rcases walkAfter_succ_cases grid extent n with hsame | hstep
      · rwa [hsame]
      · exact ih.step hstep

theorem valued_walkAfter (grid : Grid) (extent : Extent) (n : Nat) :
    (walkAfter grid extent n).Valued grid extent (grid.OnLoop extent) none := by
  induction n with
  | zero => exact Walk.valued_start grid extent grid.formulas.keys
  | succ n ih =>
      have hwalk := consistent_walkAfter grid extent n
      rcases walkAfter_succ_cases grid extent n with hsame | hstep
      · rwa [hsame]
      · exact ih.step hwalk hstep fun p taken above htakes hloops q hq =>
          (hwalk.take htakes).onLoop hloops hq

theorem mirrors_after (grid : Grid) (extent : Extent) (n : Nat) :
    Mirrors grid extent (after grid extent n) (walkAfter grid extent n) := by
  induction n with
  | zero => exact mirrors_start grid extent
  | succ n ih =>
      have hsteps := ih.step? (consistent_walkAfter grid extent n)
      rw [walkAfter_succ, after]
      generalize (after grid extent n).step? grid extent = pass? at hsteps ⊢
      generalize (walkAfter grid extent n).step? grid extent = walk? at hsteps ⊢
      cases hsteps with
      | none => exact ih
      | some hnext => exact hnext

theorem moves_walkAfter (grid : Grid) (extent : Extent) (n : Nat) :
    Walk.Moves (walkAfter grid extent n) (walkAfter grid extent (n + 1)) := by
  rcases walkAfter_succ_cases grid extent n with hsame | hstep
  · rw [hsame]
    exact .stays rfl rfl fun q => Iff.rfl
  · exact (consistent_walkAfter grid extent n).moves hstep

theorem keeps_walkAfter (h : n ≤ m) :
    (walkAfter grid extent n).Keeps (walkAfter grid extent m) := by
  induction m, h using Nat.le_induction with
  | base => exact fun p value hvalue => hvalue
  | succ m hle ih =>
      intro p value hvalue
      have hbefore := ih p value hvalue
      rcases walkAfter_succ_cases grid extent m with hsame | hstep
      · rwa [hsame]
      · exact (consistent_walkAfter grid extent m).keeps_step hstep p value hbefore

theorem exists_walkAfter_eq_finalWalk (grid : Grid) (extent : Extent) :
    ∃ last, ∀ n ≥ last, walkAfter grid extent n = grid.finalWalk extent := by
  obtain ⟨last, hlast⟩ :=
    Walk.exists_advance_eq_run grid extent (Walk.start grid grid.formulas.keys)
  refine ⟨last, fun n hn => ?_⟩
  induction n, hn using Nat.le_induction with
  | base => exact hlast
  | succ n hle ih =>
      rw [walkAfter_succ, ih, (Grid.finalWalk_consistent grid extent).2]
      rfl

theorem getElem?_memo_of_done (hdone : (walkAfter grid extent n).Done p) (hle : n ≤ m) :
    (after grid extent m).memo[p]? = some ((grid.recalculate extent).grid.valueAt p) := by
  obtain ⟨value, hvalue⟩ := hdone
  obtain ⟨last, hlast⟩ := exists_walkAfter_eq_finalWalk grid extent
  have hfinal : (grid.finalWalk extent).progress[p]? = some (.done value) := by
    rw [← hlast (max n last) (le_max_right n last)]
    exact keeps_walkAfter (le_max_left n last) p value hvalue
  have hstored : (grid.recalculate extent).grid.valueAt p = value := by
    simp only [Grid.valueAt_recalculate, Walk.look, hfinal]
  rw [(mirrors_after grid extent m).getElem?_memo, keeps_walkAfter hle p value hvalue, hstored]
  rfl

theorem lookup?_of_final (hfinal : (walkAfter grid extent n).Final grid p) :
    (after grid extent n).lookup? grid p =
      some ((grid.recalculate extent).grid.valueAt p) := by
  rcases hfinal with hformula | hdone
  · have hmemo : (after grid extent n).memo[p]? = none := by
      rw [(mirrors_after grid extent n).getElem?_memo,
        (consistent_walkAfter grid extent n).getElem?_progress_eq_none fun hp => absurd hp hformula]
      rfl
    rw [Grid.valueAt_recalculate_of_not_mem hformula, lookup?, hmemo, Grid.valueAt]
    cases hcell : grid[p]? with
    | none => rfl
    | some cell =>
        have hnot : ¬ cell.isFormula = true := fun h =>
          hformula (Grid.mem_formulas_iff.mpr ⟨cell, hcell, h⟩)
        simp only [if_neg hnot, Option.map_some, Option.getD_some]
  · rw [lookup?, getElem?_memo_of_done hdone le_rfl]

theorem final_of_reads {latest : Unresolved} {below : List Unresolved}
    (hstack : (after grid extent n).stack = latest :: below)
    (hnext : latest.reads.length ≤ latest.next)
    (hcyclic : latest.cell ∉ (after grid extent n).cyclic) (hq : q ∈ latest.reads) :
    (walkAfter grid extent n).Final grid q := by
  have hpass := mirrors_after grid extent n
  have hwalk := consistent_walkAfter grid extent n
  have hlatest := hpass.stack_cons hstack
  have hway : latest.cell ∈ (walkAfter grid extent n).way := by
    rw [Walk.way, hlatest]
    exact List.mem_cons_self
  have hprogress : (walkAfter grid extent n).progress[latest.cell]? = some .underWay :=
    ((hwalk.mem_way latest.cell).mp hway).resolve_right fun hlooped =>
      hcyclic ((hpass.mem_cyclic latest.cell hway).mpr hlooped)
  rw [hpass.reads_eq latest (hstack ▸ List.mem_cons_self)] at hq
  rcases (valued_walkAfter grid extent n).underWay [] latest.frame
    (below.map Unresolved.frame) hlatest hprogress q hq with hpending | hlooked | hfinal | habove
  · rw [Unresolved.frame, List.drop_eq_nil_of_le hnext] at hpending
    exact absurd hpending List.not_mem_nil
  · exact absurd hlooked (Option.some_ne_none q).symm
  · exact hfinal
  · exact absurd habove List.not_mem_nil

theorem final_of_root (hstack : (after grid extent n).stack = [])
    (hp : p ∈ grid.formulas) (hroot : p ∉ (after grid extent n).roots) :
    (walkAfter grid extent n).Final grid p := by
  have hpass := mirrors_after grid extent n
  have hwalk := consistent_walkAfter grid extent n
  have hway : p ∉ (walkAfter grid extent n).way := by
    rw [← hpass.way_eq, way, hstack]
    exact List.not_mem_nil
  obtain ⟨passed, hkeys, hpassed⟩ := hwalk.passed_roots
  have hmem : p ∈ grid.formulas.keys := Std.ExtTreeMap.mem_keys.mpr hp
  rw [hkeys, ← hpass.roots_eq] at hmem
  have hfresh : p ∉ (walkAfter grid extent n).fresh := fun hfresh =>
    Option.some_ne_none p
      (hpassed p ((List.mem_append.mp hmem).resolve_right hroot) hfresh).symm
  exact .inr (hwalk.done_of_not_mem_way hp hfresh hway)

theorem takeValues_eq {memo : Std.ExtTreeMap Position Value} {value : Position → Value}
    {cells : List Position} (hnodup : cells.Nodup)
    (hmemo : ∀ p ∈ cells, memo[p]? = some (value p)) :
    takeValues memo cells = some (cells.map value) := by
  induction cells generalizing memo with
  | nil => rfl
  | cons p cells ih =>
      obtain ⟨hp, hnodup⟩ := List.nodup_cons.mp hnodup
      have hrest : ∀ q ∈ cells, (memo.erase p)[q]? = some (value q) := by
        intro q hq
        have hne : p ≠ q := fun heq => hp (heq ▸ hq)
        rw [Std.ExtTreeMap.getElem?_erase, if_neg (by simpa using hne)]
        exact hmemo q (List.mem_cons_of_mem p hq)
      rw [takeValues, hmemo p List.mem_cons_self, ih hnodup hrest]
      rfl

theorem existsUnique_pushes (hp : p ∈ grid.formulas) :
    ∃! n, (after grid extent (n + 1)).way = p :: (after grid extent n).way := by
  simp only [(mirrors_after grid extent _).way_eq, (moves_walkAfter grid extent _).pushes_iff]
  have honce := existsUnique_begins (fun n => p ∉ (walkAfter grid extent n).fresh)
    (fun n hn hmem => hn ((moves_walkAfter grid extent n).mem_fresh_of_next hmem))
    (fun hfirst => hfirst hp) ?_
  · simpa only [not_not] using honce
  · obtain ⟨last, hlast⟩ := exists_walkAfter_eq_finalWalk grid extent
    obtain ⟨value, hvalue⟩ := Grid.finalWalk_done extent hp
    have hmem := SortedMap.mem_of_getElem?_eq_some hvalue
    rw [← hlast last le_rfl] at hmem
    exact ⟨last, (((consistent_walkAfter grid extent last).mem_progress p).mp hmem).2⟩

theorem existsUnique_pops (hp : p ∈ grid.formulas) :
    ∃! n, (after grid extent n).way = p :: (after grid extent (n + 1)).way := by
  simp only [(mirrors_after grid extent _).way_eq, (moves_walkAfter grid extent _).pops_iff]
  refine existsUnique_begins (fun n => (walkAfter grid extent n).Done p)
    (fun n hn => (moves_walkAfter grid extent n).done_of_done hn) ?_ ?_
  · rintro ⟨value, hvalue⟩
    simp [walkAfter, Walk.advance, Walk.start] at hvalue
  · obtain ⟨last, hlast⟩ := exists_walkAfter_eq_finalWalk grid extent
    refine ⟨last, ?_⟩
    rw [hlast last le_rfl]
    exact Grid.finalWalk_done extent hp

/-- The memo has a value for every formula at the end, and it is the value that is stored. -/
theorem exists_ends (grid : Grid) (extent : Extent) :
    ∃ last, (after grid extent last).step? grid extent = none ∧
      takeValues (after grid extent last).memo grid.formulas.keys =
        some (grid.formulas.keys.map (grid.recalculate extent).grid.valueAt) := by
  obtain ⟨last, hlast⟩ := exists_walkAfter_eq_finalWalk grid extent
  have hend := hlast last le_rfl
  refine ⟨last, ?_, takeValues_eq ?_ ?_⟩
  · have hsteps := (mirrors_after grid extent last).step? (consistent_walkAfter grid extent last)
    rw [hend, (Grid.finalWalk_consistent grid extent).2] at hsteps
    generalize (after grid extent last).step? grid extent = pass? at hsteps ⊢
    cases hsteps
    rfl
  · exact Std.ExtTreeMap.nodup_keys
  · intro p hp
    refine getElem?_memo_of_done (n := last) ?_ le_rfl
    rw [hend]
    exact Grid.finalWalk_done extent (Std.ExtTreeMap.mem_keys.mp hp)

theorem isChain_stack (grid : Grid) (extent : Extent) (n : Nat) :
    (after grid extent n).stack.IsChain fun upper lower => upper.cell ∈ lower.reads := by
  have hpass := mirrors_after grid extent n
  have hchain := (consistent_walkAfter grid extent n).chain
  rw [← hpass.way_eq, way, List.isChain_map] at hchain
  refine hchain.imp_of_mem_imp ?_
  intro upper lower hupper hlower hreads
  rw [hpass.reads_eq lower hlower]
  exact hreads

/-- A pass comes to an end, and then its memo has the values that are stored for all formulas. Each
formula gets onto the stack once and off it once. At any time each formula on the stack is read by
the one below it, and only cells that lie on loops are noted as cyclic. When a formula is evaluated
that is not among these, the values of all cells that it reads are final, so none of its lookups
misses a value. Nor does the lookup of a root, once the stack is empty again. -/
theorem resolves_each_once (grid : Grid) (extent : Extent) :
    let pass := after grid extent
    let result := (grid.recalculate extent).grid.valueAt
    (∃ last, (pass last).step? grid extent = none ∧
      takeValues (pass last).memo grid.formulas.keys = some (grid.formulas.keys.map result)) ∧
    (∀ p ∈ grid.formulas, (∃! n, (pass (n + 1)).way = p :: (pass n).way) ∧
      ∃! n, (pass n).way = p :: (pass (n + 1)).way) ∧
    ∀ n,
      ((pass n).stack.IsChain fun upper lower => upper.cell ∈ lower.reads) ∧
      (∀ unresolved ∈ (pass n).stack,
        unresolved.formula = grid.exprAt? extent unresolved.cell ∧
          unresolved.reads = grid.readsAt extent unresolved.cell) ∧
      (∀ p ∈ (pass n).cyclic, grid.OnLoop extent p) ∧
      (∀ latest below, (pass n).stack = latest :: below → latest.reads.length ≤ latest.next →
        latest.cell ∉ (pass n).cyclic →
        (∀ q ∈ latest.reads, (pass n).lookup? grid q = some (result q) ∧
          (q ∈ grid.formulas → ∀ m ≥ n, (pass m).memo[q]? = some (result q))) ∧
        ∀ e, latest.formula = some e →
          ∀ q ∈ ((e.evalNoting ((pass n).lookup grid)).run []).2,
            ((pass n).lookup? grid q).isSome = true) ∧
      ((pass n).stack = [] → ∀ p ∈ grid.formulas, p ∉ (pass n).roots →
        (pass n).lookup? grid p = some (result p)) := by
  intro pass result
  refine ⟨exists_ends grid extent, fun p hp => ⟨existsUnique_pushes hp, existsUnique_pops hp⟩,
    fun n => ?_⟩
  have hpass : Mirrors grid extent (pass n) (walkAfter grid extent n) := mirrors_after grid extent n
  have hunresolved : ∀ unresolved ∈ (pass n).stack,
      unresolved.formula = grid.exprAt? extent unresolved.cell ∧
        unresolved.reads = grid.readsAt extent unresolved.cell := by
    intro unresolved hmem
    refine ⟨(consistent_walkAfter grid extent n).formula unresolved.frame ?_,
      hpass.reads_eq unresolved hmem⟩
    rw [← hpass.stack_eq]
    exact List.mem_map_of_mem hmem
  refine ⟨isChain_stack grid extent n, hunresolved, fun p hp => (hpass.of_cyclic p hp).2, ?_,
    fun hstack p hp hroot => lookup?_of_final (final_of_root hstack hp hroot)⟩
  intro latest below hstack hnext hcyclic
  have hfinal : ∀ q ∈ latest.reads, (walkAfter grid extent n).Final grid q := fun q hq =>
    final_of_reads hstack hnext hcyclic hq
  refine ⟨fun q hq => ⟨lookup?_of_final (hfinal q hq), fun hformula m hm => ?_⟩, ?_⟩
  · exact getElem?_memo_of_done ((hfinal q hq).resolve_left (not_not_intro hformula)) hm
  · intro e he q hq
    have hreads : e.reads = latest.reads := by
      obtain ⟨hformula, hreads⟩ := hunresolved latest (hstack ▸ List.mem_cons_self)
      rw [hreads, Grid.readsAt, ← hformula, he, Option.map_some, Option.getD_some]
    rw [Expr.run_evalNoting] at hq
    have hmem : q ∈ e.reads := e.lookups_sublist_reads.subset hq
    rw [lookup?_of_final (hfinal q (hreads ▸ hmem))]
    rfl

end Pass

end Spreadsheet
