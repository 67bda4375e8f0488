import Mathlib.Data.List.Nodup
import Spreadsheet.Proofs.Recalculation
import Spreadsheet.Proofs.Ways

/-!
Which formulas a recalculation finds on a loop. The formulas under way always form the first way to
the latest of them, so the loops that a walk closes are those that the first ways show. Other loops
go unnoticed: a walk passes over a formula that is done without asking what that formula reads.
-/

namespace Spreadsheet

namespace Walk

variable {grid : Grid} {extent : Extent} {roots : List Position} {looked : Option Position}
  {walk next : Walk} {p q : Position}

/-- A formula on which a loop has been closed. -/
def Marked (walk : Walk) (p : Position) : Prop :=
  walk.progress[p]? = some .looped ∨ walk.progress[p]? = some (.done (.fault .loop))

/-- The order in which a walk reaches formulas, and the loops that it has closed on the way. -/
structure Ordered (grid : Grid) (extent : Extent) (roots : List Position)
    (looked : Option Position) (walk : Walk) : Prop where
  /-- The ways that are earlier than the present one are finished. -/
  parted : ∀ other, grid.IsWay extent roots other →
    grid.Earlier extent roots other walk.way.reverse →
      ∀ p, other.getLast? = some p → p ∉ walk.fresh
  first : ∀ before p, before ++ [p] <+: walk.way.reverse →
    grid.IsFirstWay extent roots (before ++ [p])
  underWay : ∀ above frame below, walk.stack = above ++ frame :: below →
    ∀ a ∈ grid.readsAt extent frame.cell, a ∈ frame.pending ∨ looked = some a ∨
      ∀ upper lower, frame.cell :: below.map Frame.cell = upper ++ a :: lower →
        ∀ x, x ∈ upper ∨ x = a → walk.Marked x
  done : ∀ (p : Position) (value : Value), walk.progress[p]? = some (.done value) →
    ∀ before a after, grid.IsFirstWay extent roots (before ++ a :: after) →
      (a :: after).getLast? = some p → grid.Reads extent p a → ∀ x ∈ a :: after, walk.Marked x

theorem ordered_start (grid : Grid) (extent : Extent) (roots : List Position) :
    Ordered grid extent roots none (start grid roots) where
  parted := by
    rintro other - ⟨shared, p, q, -, hq, -⟩
    simp [start, way] at hq
  first := by simp [start, way]
  underWay := by simp [start]
  done := by simp [start]

theorem choices_eq :
    walk.choices grid extent roots = grid.nextCells extent roots walk.way.reverse := by
  unfold choices Grid.nextCells way
  cases walk.stack <;> simp

theorem Consistent.passed_choices (h : Consistent grid extent roots looked walk) :
    Passed walk.fresh looked (walk.choices grid extent roots) walk.ahead := by
  unfold choices ahead
  cases hstack : walk.stack with
  | nil => exact h.passed_roots
  | cons frame below => exact h.passed frame (hstack ▸ List.mem_cons_self)

theorem Ordered.isWay (h : Ordered grid extent roots looked walk) :
    grid.IsWay extent roots walk.way.reverse := by
  rcases List.eq_nil_or_concat walk.way.reverse with hnil | ⟨before, p, hconcat⟩
  · rw [hnil]
    exact Grid.isWay_nil grid extent roots
  · rw [List.concat_eq_append] at hconcat
    rw [hconcat]
    exact (h.first before p (hconcat ▸ List.prefix_rfl)).toIsWay

theorem Ordered.isFirstWay (h : Ordered grid extent roots looked walk) (hway : p ∈ walk.way) :
    grid.IsFirstWay extent roots walk.way.reverse := by
  rcases List.eq_nil_or_concat walk.way.reverse with hnil | ⟨before, q, hconcat⟩
  · rw [List.reverse_eq_nil_iff.mp hnil] at hway
    exact absurd hway List.not_mem_nil
  · rw [List.concat_eq_append] at hconcat
    rw [hconcat]
    exact h.first before q (hconcat ▸ List.prefix_rfl)

theorem Consistent.not_mem_fresh_of_isWay {rest : List Position}
    (h : Consistent grid extent roots looked walk)
    (hway : grid.IsWay extent roots (walk.way.reverse ++ q :: rest)) (hq : q ∉ walk.fresh)
    (hlast : (q :: rest).getLast? = some p) : p ∉ walk.fresh := by
  induction rest using List.reverseRecOn generalizing p with
  | nil =>
      obtain rfl : q = p := by simpa using hlast
      exact hq
  | append_singleton rest y ih =>
      obtain rfl : y = p := by simpa [List.getLast?_cons] using hlast
      have hshorter : grid.IsWay extent roots (walk.way.reverse ++ q :: rest) :=
        hway.of_prefix ⟨[y], by simp⟩
      have hx : (q :: rest).getLast? = some ((q :: rest).getLast (List.cons_ne_nil q rest)) :=
        List.getLast?_eq_some_getLast _
      generalize (q :: rest).getLast (List.cons_ne_nil q rest) = x at hx
      have hmem : x ∈ q :: rest := List.mem_of_getLast? hx
      have hformula : x ∈ grid.formulas :=
        hshorter.mem_formulas x (List.mem_append_right _ hmem)
      have hnot : x ∉ walk.way := by
        intro hxway
        exact (List.nodup_append.mp hshorter.nodup).2.2 x (List.mem_reverse.mpr hxway) x hmem rfl
      obtain ⟨value, hvalue⟩ := h.done_of_not_mem_way hformula (ih hshorter hx) hnot
      have hreads : y ∈ grid.nextCells extent roots (walk.way.reverse ++ q :: rest) :=
        hway.mem_nextCells _ y ⟨[], by simp⟩
      rw [Grid.nextCells, List.getLast?_append, hx] at hreads
      exact h.reads_done x value hvalue y hreads

theorem Ordered.not_mem_fresh_of_earlier {other : List Position}
    (h : Ordered grid extent roots (some p) walk)
    (hwalk : Consistent grid extent roots (some p) walk) (hother : grid.IsWay extent roots other)
    (hearlier : grid.Earlier extent roots other (walk.way.reverse ++ [p]))
    (hlast : other.getLast? = some q) : q ∉ walk.fresh := by
  rcases hearlier.concat_cases with hearlier | ⟨r, ⟨rest, rfl⟩, hlt⟩
  · exact h.parted other hother hearlier q hlast
  · rw [List.append_assoc, List.singleton_append] at hother hlast
    obtain ⟨passed, hchoices, hp⟩ := hwalk.looked_mem p rfl
    obtain ⟨passed', hchoices', hpassed⟩ := hwalk.passed_choices
    obtain rfl : passed = passed' := List.append_cancel_right (hchoices.symm.trans hchoices')
    have hr : r ∈ passed := by
      by_contra hr
      rw [← choices_eq, hchoices, List.idxOf_append_of_mem hp, List.idxOf_append_of_notMem hr]
        at hlt
      have := List.idxOf_lt_length_of_mem hp
      omega
    have hfresh : r ∉ walk.fresh := by
      intro hfresh
      obtain rfl : p = r := Option.some.inj (hpassed r hr hfresh)
      exact lt_irrefl _ hlt
    refine hwalk.not_mem_fresh_of_isWay hother hfresh ?_
    rw [List.getLast?_append] at hlast
    rw [← hlast, List.getLast?_eq_some_getLast (List.cons_ne_nil r rest), Option.some_or]

theorem Ordered.isFirstWay_concat (h : Ordered grid extent roots (some p) walk)
    (hwalk : Consistent grid extent roots (some p) walk) (hfresh : p ∈ walk.fresh) :
    grid.IsFirstWay extent roots (walk.way.reverse ++ [p]) := by
  obtain ⟨passed, hchoices, hp⟩ := hwalk.looked_mem p rfl
  have hnot : p ∉ walk.way.reverse := fun hmem =>
    hwalk.not_mem_fresh_of_mem_way (List.mem_reverse.mp hmem) hfresh
  have hnext : p ∈ grid.nextCells extent roots walk.way.reverse := by
    rw [← choices_eq, hchoices]
    exact List.mem_append_left _ hp
  have hway : grid.IsWay extent roots (walk.way.reverse ++ [p]) :=
    h.isWay.concat hnot (hwalk.mem_formulas_of_mem_fresh hfresh) hnext
  refine ⟨hway, ?_⟩
  intro other hother hlast hne
  have hlastp : other.getLast? = some p := by simpa using hlast
  have hnonempty : other ≠ [] := by
    rintro rfl
    simp at hlastp
  rcases hway.earlier_or_earlier hother (by simp) hnonempty hlast.symm (Ne.symm hne) with
    hearlier | hlater
  · exact hearlier
  · exact absurd hfresh (h.not_mem_fresh_of_earlier hwalk hother hlater hlastp)

theorem Ordered.take (h : Ordered grid extent roots none walk) (htakes : walk.Takes p next) :
    Ordered grid extent roots (some p) next := by
  have hmarked : ∀ x, walk.Marked x → next.Marked x := by
    intro x hx
    rwa [Marked, htakes.progress_eq]
  refine ⟨?_, ?_, ?_, ?_⟩
  · rw [htakes.way_eq, htakes.fresh_eq]
    exact h.parted
  · rw [htakes.way_eq]
    exact h.first
  · intro above frame below hsplit a ha
    cases htakes with
    | @read cell formula pending rest hstack =>
        cases above with
        | nil =>
            obtain ⟨rfl, rfl⟩ := List.cons.inj hsplit
            rcases h.underWay [] ⟨cell, formula, p :: pending⟩ rest hstack a ha with
              hpending | hnone | hloop
            · rcases List.mem_cons.mp hpending with rfl | hpending
              · exact .inr (.inl rfl)
              · exact .inl hpending
            · simp at hnone
            · exact .inr (.inr hloop)
        | cons top above =>
            obtain ⟨rfl, rfl⟩ := List.cons.inj hsplit
            rcases h.underWay (⟨cell, formula, p :: pending⟩ :: above) frame below hstack a ha with
              hpending | hnone | hloop
            · exact .inl hpending
            · simp at hnone
            · exact .inr (.inr hloop)
    | root hstack hroots => simp [hstack] at hsplit
  · rw [htakes.progress_eq]
    intro q value hvalue before a after hfirst hlast hreads x hx
    exact hmarked x (h.done q value hvalue before a after hfirst hlast hreads x hx)

theorem Ordered.opens (h : Ordered grid extent roots (some p) walk)
    (hwalk : Consistent grid extent roots (some p) walk)
    (hopens : Opens grid extent walk p next) : Ordered grid extent roots none next := by
  have hnone : walk.progress[p]? = none :=
    hwalk.getElem?_progress_eq_none fun _ => hopens.mem_fresh
  have hnot : p ∉ walk.way := fun hmem => hwalk.not_mem_fresh_of_mem_way hmem hopens.mem_fresh
  have hmarked : ∀ x, walk.Marked x → next.Marked x := by
    intro x hx
    have hxp : x ≠ p := by
      rintro rfl
      simp [Marked, hnone] at hx
    rwa [Marked, hopens.getElem?_progress_of_ne hxp]
  have hway : next.way.reverse = walk.way.reverse ++ [p] := by
    rw [hopens.way_eq, List.reverse_cons]
  refine ⟨?_, ?_, ?_, ?_⟩
  · intro other hother hearlier q hlast hfresh
    rw [hway] at hearlier
    rw [hopens.fresh_eq] at hfresh
    exact h.not_mem_fresh_of_earlier hwalk hother hearlier hlast
      (Std.ExtTreeMap.mem_of_mem_erase hfresh)
  · intro before q hbegins
    rw [hway] at hbegins
    rcases List.prefix_concat_iff.mp hbegins with heq | hbegins
    · rw [heq]
      exact h.isFirstWay_concat hwalk hopens.mem_fresh
    · exact h.first before q hbegins
  · intro above frame below hsplit a ha
    rw [hopens.stack_eq] at hsplit
    cases above with
    | nil =>
        obtain ⟨rfl, -⟩ := List.cons.inj hsplit
        exact .inl ha
    | cons top above =>
        obtain ⟨rfl, hrest⟩ : _ = top ∧ walk.stack = above ++ frame :: below :=
          List.cons.inj hsplit
        rcases h.underWay above frame below hrest a ha with hpending | hlooked | hloop
        · exact .inl hpending
        · -- The opened formula was not under way, so no loop can be closed there.
          obtain rfl := Option.some.inj hlooked
          refine .inr (.inr ?_)
          intro upper lower hcells
          refine absurd ?_ hnot
          rw [way, hrest, List.map_append, List.map_cons, hcells]
          simp
        · refine .inr (.inr ?_)
          intro upper lower hcells x hx
          exact hmarked x (hloop upper lower hcells x hx)
  · intro q value hvalue before a after hfirst hlast hreads x hx
    have hq : q ≠ p := by
      rintro rfl
      simp [hopens.getElem?_progress_self] at hvalue
    rw [hopens.getElem?_progress_of_ne hq] at hvalue
    exact hmarked x (h.done q value hvalue before a after hfirst hlast hreads x hx)

theorem Ordered.loops {above : List Position} (h : Ordered grid extent roots (some p) walk)
    (hwalk : Consistent grid extent roots (some p) walk) (hloops : walk.Loops p above next) :
    Ordered grid extent roots none next := by
  obtain ⟨low, hsplit⟩ := hloops.way_eq
  have hway : next.way = walk.way := by rw [way, way, hloops.stack_eq]
  have hnew : ∀ x, x ∈ above ∨ x = p → next.Marked x := by
    intro x hx
    exact .inl (by rw [hloops.getElem?_progress x, if_pos hx])
  have hmarked : ∀ x, walk.Marked x → next.Marked x := by
    intro x hx
    by_cases habove : x ∈ above ∨ x = p
    · exact hnew x habove
    · rwa [Marked, hloops.getElem?_progress x, if_neg habove]
  refine ⟨?_, ?_, ?_, ?_⟩
  · rw [hway, hloops.fresh_eq]
    exact h.parted
  · rw [hway]
    exact h.first
  · intro higher frame below hstack a ha
    rw [hloops.stack_eq] at hstack
    rcases h.underWay higher frame below hstack a ha with hpending | hlooked | hloop
    · exact .inl hpending
    · -- All formulas above the closing one are marked, so those between it and this frame are.
      obtain rfl := Option.some.inj hlooked
      refine .inr (.inr ?_)
      intro upper lower hcells x hx
      have hwhole : walk.way = higher.map Frame.cell ++ upper ++ p :: lower := by
        rw [way, hstack, List.map_append, List.map_cons, hcells, List.append_assoc]
      have hnodup := hwalk.nodup
      rw [hsplit, List.nodup_middle, List.nodup_cons, List.mem_append, not_or] at hnodup
      have habove : above = higher.map Frame.cell ++ upper :=
        (List.append_cons_inj_of_notMem hnodup.1.1 hnodup.1.2).mp (hsplit.symm.trans hwhole) |>.1
      refine hnew x (hx.imp_left ?_)
      rw [habove]
      exact List.mem_append_right _
    · refine .inr (.inr ?_)
      intro upper lower hcells x hx
      exact hmarked x (hloop upper lower hcells x hx)
  · intro q value hvalue before a after hfirst hlast hreads x hx
    rw [hloops.getElem?_progress q] at hvalue
    split at hvalue
    · simp at hvalue
    · exact hmarked x (h.done q value hvalue before a after hfirst hlast hreads x hx)

theorem Ordered.passes (h : Ordered grid extent roots (some p) walk) (hway : p ∉ walk.way) :
    Ordered grid extent roots none walk := by
  refine ⟨h.parted, h.first, ?_, h.done⟩
  intro above frame below hsplit a ha
  rcases h.underWay above frame below hsplit a ha with hpending | hlooked | hloop
  · exact .inl hpending
  · obtain rfl := Option.some.inj hlooked
    refine .inr (.inr ?_)
    intro upper lower hcells
    refine absurd ?_ hway
    rw [way, hsplit, List.map_append, List.map_cons, hcells]
    simp
  · exact .inr (.inr hloop)

theorem Ordered.ends {cell : Position} {value : Value} (h : Ordered grid extent roots none walk)
    (hends : Ends grid extent walk cell value next) : Ordered grid extent roots none next := by
  obtain ⟨formula, hstack⟩ := hends.stack_eq
  have hway : walk.way.reverse = next.way.reverse ++ [cell] := by
    rw [hends.way_eq, List.reverse_cons]
  have hmarked : ∀ x, walk.Marked x → next.Marked x := by
    intro x hx
    by_cases hxc : x = cell
    · subst hxc
      refine .inr ?_
      rw [hends.getElem?_progress_self]
      rcases hends.value_eq with ⟨-, rfl⟩ | ⟨hprogress, -⟩
      · rfl
      · simp [Marked, hprogress] at hx
    · rwa [Marked, hends.getElem?_progress_of_ne hxc]
  refine ⟨?_, ?_, ?_, ?_⟩
  · intro other hother hearlier q hlast
    rw [hends.fresh_eq]
    have hbegins : next.way.reverse <+: walk.way.reverse := hway ▸ List.prefix_append _ _
    exact h.parted other hother (hearlier.mono List.prefix_rfl hbegins) q hlast
  · intro before q hbegins
    refine h.first before q ?_
    rw [hway]
    exact hbegins.trans (List.prefix_append _ _)
  · intro above frame below hsplit a ha
    rcases h.underWay (⟨cell, formula, []⟩ :: above) frame below (by simp [hstack, hsplit]) a ha with
      hpending | hnone | hloop
    · exact .inl hpending
    · simp at hnone
    · refine .inr (.inr ?_)
      intro upper lower hcells x hx
      exact hmarked x (hloop upper lower hcells x hx)
  · intro q last hlast before a after hfirst hend hreads x hx
    refine hmarked x ?_
    by_cases hq : q = cell
    · -- The way that ends here is the first one to its formula, which has looked at all it reads.
      subst hq
      have hmem : q ∈ walk.way := by simp [way, hstack]
      have heq : walk.way.reverse = before ++ a :: after := by
        refine (h.isFirstWay hmem).unique hfirst ?_
        rw [hway, List.getLast?_append, List.getLast?_append, hend]
        rfl
      have hcells : q :: next.stack.map Frame.cell = after.reverse ++ a :: before.reverse := by
        have hreverse := congrArg List.reverse heq
        simpa [way, hstack] using hreverse
      rcases h.underWay [] ⟨q, formula, []⟩ next.stack hstack a hreads with
        hpending | hnone | hloop
      · simp at hpending
      · simp at hnone
      · exact hloop _ _ hcells x (by simpa [or_comm] using hx)
    · rw [hends.getElem?_progress_of_ne hq] at hlast
      exact h.done q last hlast before a after hfirst hend hreads x hx

theorem Ordered.step (h : Ordered grid extent roots none walk)
    (hwalk : Consistent grid extent roots none walk)
    (hstep : walk.step? grid extent = some next) : Ordered grid extent roots none next := by
  rcases hwalk.step_cases hstep with
    ⟨p, taken, htakes, hopens | ⟨above, hloops⟩ | ⟨-, hway, rfl⟩⟩ | ⟨cell, value, hends⟩
  · exact (h.take htakes).opens (hwalk.take htakes) hopens
  · exact (h.take htakes).loops (hwalk.take htakes) hloops
  · exact (h.take htakes).passes hway
  · exact h.ends hends

/-- A walk closes loops only where the first ways do. -/
theorem Ordered.closesLoop {above : List Position}
    (h : Ordered grid extent grid.formulas.keys (some p) walk)
    (hwalk : Consistent grid extent grid.formulas.keys (some p) walk)
    (hloops : walk.Loops p above next) (hq : q ∈ above ∨ q = p) : grid.ClosesLoop extent q := by
  obtain ⟨below, hsplit⟩ := hloops.way_eq
  have hway : walk.way.reverse = below.reverse ++ p :: above.reverse := by simp [hsplit]
  refine ⟨below.reverse, p, above.reverse, ?_, (hwalk.loop_chain hloops).2, ?_⟩
  · rw [← hway]
    exact h.isFirstWay (p := p) (by simp [hsplit])
  · simpa [or_comm] using hq

end Walk

namespace Grid

variable {grid : Grid} {extent : Extent} {p : Position}

theorem finalWalk_induction (grid : Grid) (extent : Extent) {motive : Walk → Prop}
    (hstart : motive (Walk.start grid grid.formulas.keys))
    (hstep : ∀ walk next, Walk.Consistent grid extent grid.formulas.keys none walk →
      Walk.Valued grid extent (grid.ClosesLoop extent) none walk → motive walk →
        walk.step? grid extent = some next → motive next) :
    (Walk.Ordered grid extent grid.formulas.keys none (grid.finalWalk extent) ∧
      Walk.Valued grid extent (grid.ClosesLoop extent) none (grid.finalWalk extent)) ∧
        motive (grid.finalWalk extent) := by
  have hrun : ((Walk.Consistent grid extent grid.formulas.keys none (grid.finalWalk extent) ∧
      Walk.Ordered grid extent grid.formulas.keys none (grid.finalWalk extent) ∧
        Walk.Valued grid extent (grid.ClosesLoop extent) none (grid.finalWalk extent)) ∧
          motive (grid.finalWalk extent)) ∧
            (grid.finalWalk extent).step? grid extent = none := by
    apply Walk.run_induction (motive := fun walk =>
      (Walk.Consistent grid extent grid.formulas.keys none walk ∧
        Walk.Ordered grid extent grid.formulas.keys none walk ∧
          Walk.Valued grid extent (grid.ClosesLoop extent) none walk) ∧ motive walk)
    · exact ⟨⟨Walk.consistent_start grid extent _, Walk.ordered_start grid extent _,
        Walk.valued_start grid extent _⟩, hstart⟩
    · rintro walk next ⟨⟨hwalk, hordered, hvalued⟩, hmotive⟩ h
      refine ⟨⟨hwalk.step h, hordered.step hwalk h, hvalued.step hwalk h ?_⟩, ?_⟩
      · intro p taken above htakes hloops q hq
        exact (hordered.take htakes).closesLoop (hwalk.take htakes) hloops hq
      · exact hstep walk next hwalk hvalued hmotive h
  exact ⟨hrun.1.1.2, hrun.1.2⟩

theorem finalWalk_ordered (grid : Grid) (extent : Extent) :
    Walk.Ordered grid extent grid.formulas.keys none (grid.finalWalk extent) ∧
      Walk.Valued grid extent (grid.ClosesLoop extent) none (grid.finalWalk extent) :=
  (finalWalk_induction grid extent (motive := fun _ => True) trivial fun _ _ _ _ _ _ => trivial).1

/-- To prove something of all formulas, prove it of those on which the first ways close a loop, and
of every other one from the formulas that it reads. -/
theorem formula_induction (grid : Grid) (extent : Extent) {P : Position → Prop}
    (h : ∀ p ∈ grid.formulas, (grid.ClosesLoop extent p ∨
      ∀ q, grid.Reads extent p q → q ∈ grid.formulas → P q) → P p) :
    ∀ p ∈ grid.formulas, P p := by
  have hdone : ∀ (p : Position) (value : Value),
      (grid.finalWalk extent).progress[p]? = some (.done value) → P p := by
    refine (finalWalk_induction grid extent (motive := fun walk => ∀ (p : Position)
      (value : Value), walk.progress[p]? = some (.done value) → P p) ?_ ?_).2
    · simp [Walk.start]
    · intro walk next hwalk hvalued hdone hstep p value hvalue
      rcases hwalk.done_cases hstep hvalue with hold | hends
      · exact hdone p value hold
      · obtain ⟨formula, hstack⟩ := hends.stack_eq
        refine h p ?_ ?_
        · exact hwalk.mem_formulas_of_mem_way (by simp [Walk.way, hstack])
        · rcases hends.value_eq with ⟨hlooped, -⟩ | ⟨hunder, -⟩
          · exact .inl (hvalued.looped p hlooped)
          · refine .inr ?_
            intro q hreads hq
            rcases hvalued.underWay [] ⟨p, formula, []⟩ next.stack hstack hunder q hreads with
              hpending | hnone | hfinal | habove
            · simp at hpending
            · simp at hnone
            · obtain ⟨last, hlast⟩ := hfinal.resolve_left (not_not_intro hq)
              exact hdone q last hlast
            · simp at habove
  intro p hp
  obtain ⟨value, hvalue⟩ := finalWalk_done extent hp
  exact hdone p value hvalue

theorem valueAt_of_closesLoop (h : grid.ClosesLoop extent p) :
    (grid.recalculate extent).grid.valueAt p = .fault .loop := by
  obtain ⟨before, a, after, hfirst, hback, hp⟩ := h
  have hend : (a :: after).getLast? = some ((a :: after).getLast (List.cons_ne_nil a after)) :=
    List.getLast?_eq_some_getLast _
  obtain ⟨last, hlast⟩ := finalWalk_done extent (hfirst.mem_formulas _
    (List.mem_append_right before (List.mem_of_getLast? hend)))
  have hmarked := (finalWalk_ordered grid extent).1.done _ last hlast before a after hfirst hend
    hback p hp
  obtain ⟨value, hvalue⟩ := finalWalk_done extent
    (hfirst.mem_formulas p (List.mem_append_right before hp))
  rw [Walk.Marked, hvalue] at hmarked
  have hloop : value = .fault .loop := by simpa using hmarked
  rw [valueAt_recalculate, Walk.look, hvalue]
  exact hloop

/-- A formula holds the fault of a loop if the first ways close a loop on it, or if that is what it
is worth. -/
theorem valueAt_eq_loop_iff (hp : p ∈ grid.formulas) :
    (grid.recalculate extent).grid.valueAt p = .fault .loop ↔
      grid.ClosesLoop extent p ∨
        grid.formulaValue extent (grid.recalculate extent).grid.valueAt p = .fault .loop := by
  have hcases := valueAt_recalculate_cases (finalWalk_ordered grid extent).2 hp
  constructor
  · intro hloop
    rcases hcases with ⟨-, hcloses⟩ | hvalue
    · exact .inl hcloses
    · exact .inr (hvalue ▸ hloop)
  · rintro (hcloses | hvalue)
    · exact valueAt_of_closesLoop hcloses
    · rcases hcases with ⟨hloop, -⟩ | hvalue'
      · exact hloop
      · rw [hvalue', hvalue]

/-- A formula on a loop holds the fault of a loop exactly if the first ways close a loop on it or it
is worth that fault. If they do not, it holds what it is worth, like a formula off all loops. -/
theorem valueAt_of_onLoop (hloop : grid.OnLoop extent p) :
    let after := (grid.recalculate extent).grid
    (after.valueAt p = .fault .loop ↔
        grid.ClosesLoop extent p ∨ grid.formulaValue extent after.valueAt p = .fault .loop) ∧
      (¬ grid.ClosesLoop extent p →
        after.valueAt p = grid.formulaValue extent after.valueAt p) := by
  intro after
  refine ⟨valueAt_eq_loop_iff hloop.mem_formulas, ?_⟩
  intro hcloses
  rcases valueAt_recalculate_cases (finalWalk_ordered grid extent).2 hloop.mem_formulas with
    ⟨-, h⟩ | hvalue
  · exact absurd h hcloses
  · exact hvalue

/-- Two loops that share two formulas. The second loop leads from the second of them over a third
formula back to the first, which a walk reaches when the second one is done. -/
def sharedLoops : Grid := .ofList
  [(⟨1, 0⟩, ⟨"=B2+C2", .formula "B2+C2", .empty, none⟩),
    (⟨1, 1⟩, ⟨"=A2", .formula "A2", .empty, none⟩),
    (⟨1, 2⟩, ⟨"=AVERAGE(B2)", .formula "AVERAGE(B2)", .empty, none⟩)] compare

theorem onLoop_sharedLoops : sharedLoops.OnLoop ⟨3, 3⟩ ⟨1, 2⟩ := by
  have hchain : [(⟨1, 2⟩ : Position), ⟨1, 1⟩, ⟨1, 0⟩].IsChain (sharedLoops.Reads ⟨3, 3⟩) := by
    simp only [List.isChain_cons_cons, List.isChain_singleton, Reads]
    decide +kernel
  exact transGen_of_isChain hchain (by unfold Reads; decide +kernel) (by simp)

theorem valueAt_of_onLoop_sharedLoops :
    let after := (sharedLoops.recalculate ⟨3, 3⟩).grid
    sharedLoops.OnLoop ⟨3, 3⟩ ⟨1, 2⟩ ∧
      (after.valueAt ⟨1, 2⟩ = .fault .loop ↔ sharedLoops.ClosesLoop ⟨3, 3⟩ ⟨1, 2⟩ ∨
        sharedLoops.formulaValue ⟨3, 3⟩ after.valueAt ⟨1, 2⟩ = .fault .loop) ∧
      (¬ sharedLoops.ClosesLoop ⟨3, 3⟩ ⟨1, 2⟩ →
        after.valueAt ⟨1, 2⟩ = sharedLoops.formulaValue ⟨3, 3⟩ after.valueAt ⟨1, 2⟩) :=
  ⟨onLoop_sharedLoops, valueAt_of_onLoop onLoop_sharedLoops⟩

theorem exists_onLoop_valueAt_ne :
    ¬ ∀ (grid : Grid) (extent : Extent) (p : Position), grid.OnLoop extent p →
      (grid.recalculate extent).grid.valueAt p = .fault .loop := by
  intro h
  have hvalue := h sharedLoops ⟨3, 3⟩ ⟨1, 2⟩ onLoop_sharedLoops
  rw [valueAt_recalculate, finalWalk, Walk.run_eq_advance 30 (by decide +kernel)] at hvalue
  exact absurd hvalue (by decide +kernel)

end Grid

end Spreadsheet
