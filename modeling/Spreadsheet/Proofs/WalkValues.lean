import Spreadsheet.Proofs.Walk

namespace Spreadsheet

namespace Walk

variable {grid : Grid} {extent : Extent} {roots : List Position} {looked : Option Position}
  {walk next : Walk} {p q : Position}

/-- A cell whose value the walk leaves as it is: it holds no formula, or one that is done. -/
def Final (grid : Grid) (walk : Walk) (p : Position) : Prop :=
  p ∉ grid.formulas ∨ ∃ value, walk.progress[p]? = some (.done value)

/-- Formulas that are done stay done and keep their values. -/
def Keeps (walk next : Walk) : Prop :=
  ∀ (p : Position) (value : Value), walk.progress[p]? = some (.done value) →
    next.progress[p]? = some (.done value)

/-- How the progress of a walk fits the values of the cells. Loops are only closed on marked
cells. -/
structure Valued (grid : Grid) (extent : Extent) (marks : Position → Prop)
    (looked : Option Position) (walk : Walk) : Prop where
  looped : ∀ p : Position, walk.progress[p]? = some .looped → marks p
  /-- What a formula outside all loops so far has read is final, up to the formula above it. -/
  underWay : ∀ above frame below, walk.stack = above ++ frame :: below →
    walk.progress[frame.cell]? = some .underWay → ∀ q ∈ grid.readsAt extent frame.cell,
      q ∈ frame.pending ∨ looked = some q ∨ walk.Final grid q ∨ q ∈ above.map Frame.cell
  done : ∀ (p : Position) (value : Value), walk.progress[p]? = some (.done value) →
    value = .fault .loop ∧ marks p ∨
      (∀ q ∈ grid.readsAt extent p, walk.Final grid q) ∧
        value = grid.formulaValue extent (walk.look grid) p

variable {marks : Position → Prop}

theorem valued_start (grid : Grid) (extent : Extent) (roots : List Position) :
    Valued grid extent marks none (start grid roots) where
  looped := by simp [start]
  underWay := by simp [start]
  done := by simp [start]

theorem Opens.keeps (hopens : Opens grid extent walk p next)
    (hwalk : Consistent grid extent roots looked walk) : walk.Keeps next := by
  intro q value hvalue
  have hq : q ≠ p := by
    rintro rfl
    rw [hwalk.getElem?_progress_eq_none fun _ => hopens.mem_fresh] at hvalue
    simp at hvalue
  rw [hopens.getElem?_progress_of_ne hq, hvalue]

theorem Loops.keeps {above : List Position} (hloops : walk.Loops p above next)
    (hwalk : Consistent grid extent roots looked walk) : walk.Keeps next := by
  obtain ⟨below, hway⟩ := hloops.way_eq
  intro q value hvalue
  rw [hloops.getElem?_progress q, if_neg, hvalue]
  intro hq
  have hmem : q ∈ walk.way := by
    rw [hway, List.mem_append, List.mem_cons]
    exact hq.imp_right .inl
  rcases (hwalk.mem_way q).mp hmem with hprogress | hprogress <;> simp [hvalue] at hprogress

theorem Ends.keeps {cell : Position} {value : Value}
    (hends : Ends grid extent walk cell value next) : walk.Keeps next := by
  intro q last hlast
  have hq : q ≠ cell := by
    rintro rfl
    rcases hends.value_eq with ⟨hprogress, -⟩ | ⟨hprogress, -⟩ <;> simp [hlast] at hprogress
  rw [hends.getElem?_progress_of_ne hq, hlast]

theorem Consistent.keeps_step (h : Consistent grid extent roots none walk)
    (hstep : walk.step? grid extent = some next) : walk.Keeps next := by
  rcases h.step_cases hstep with ⟨p, taken, htakes, hopens | ⟨above, hloops⟩ | ⟨-, -, rfl⟩⟩ |
    ⟨cell, value, hends⟩
  · have hkept := hopens.keeps (h.take htakes)
    rwa [Keeps, htakes.progress_eq] at hkept
  · have hkept := hloops.keeps (h.take htakes)
    rwa [Keeps, htakes.progress_eq] at hkept
  · intro q last hlast
    rwa [htakes.progress_eq]
  · exact hends.keeps

theorem Final.mono (h : walk.Final grid p) (hkept : walk.Keeps next) : next.Final grid p := by
  rcases h with h | ⟨value, h⟩
  · exact .inl h
  · exact .inr ⟨value, hkept p value h⟩

theorem Final.look_eq {looked' : Option Position} (h : walk.Final grid p)
    (hwalk : Consistent grid extent roots looked walk)
    (hnext : Consistent grid extent roots looked' next) (hkept : walk.Keeps next) :
    next.look grid p = walk.look grid p := by
  rcases h with h | ⟨value, h⟩
  · simp only [look, hwalk.getElem?_progress_eq_none fun hp => absurd hp h,
      hnext.getElem?_progress_eq_none fun hp => absurd hp h]
  · simp only [look, h, hkept p value h]

theorem Valued.done_mono {looked' : Option Position} {value : Value}
    (h : Valued grid extent marks looked walk)
    (hwalk : Consistent grid extent roots looked walk)
    (hnext : Consistent grid extent roots looked' next) (hkept : walk.Keeps next)
    (hdone : walk.progress[p]? = some (.done value)) :
    value = .fault .loop ∧ marks p ∨
      (∀ q ∈ grid.readsAt extent p, next.Final grid q) ∧
        value = grid.formulaValue extent (next.look grid) p := by
  rcases h.done p value hdone with hloop | ⟨hfinal, hvalue⟩
  · exact .inl hloop
  · refine .inr ⟨fun q hq => (hfinal q hq).mono hkept, ?_⟩
    rw [hvalue]
    exact Grid.formulaValue_congr fun q hq =>
      ((hfinal q hq).look_eq hwalk hnext hkept).symm

theorem Valued.take (h : Valued grid extent marks none walk) (htakes : walk.Takes p next) :
    Valued grid extent marks (some p) next := by
  have hprogress := htakes.progress_eq
  have hlook : next.look grid = walk.look grid := by
    funext q
    simp only [look, hprogress]
  refine ⟨?_, ?_, ?_⟩
  · rw [hprogress]
    exact h.looped
  · intro above frame below hsplit
    unfold Final
    rw [hprogress]
    intro hunder q hq
    cases htakes with
    | @read cell formula pending rest hstack =>
        cases above with
        | nil =>
            obtain ⟨rfl, rfl⟩ := List.cons.inj hsplit
            rcases h.underWay [] ⟨cell, formula, p :: pending⟩ rest hstack hunder q hq with
              hpending | hnone | hfinal | habove
            · rcases List.mem_cons.mp hpending with rfl | hpending
              · exact .inr (.inl rfl)
              · exact .inl hpending
            · simp at hnone
            · exact .inr (.inr (.inl hfinal))
            · simp at habove
        | cons top above =>
            obtain ⟨rfl, rfl⟩ := List.cons.inj hsplit
            rcases h.underWay (⟨cell, formula, p :: pending⟩ :: above) frame below hstack hunder
              q hq with hpending | hnone | hfinal | habove
            · exact .inl hpending
            · simp at hnone
            · exact .inr (.inr (.inl hfinal))
            · exact .inr (.inr (.inr habove))
    | root hstack hroots =>
        simp [hstack] at hsplit
  · unfold Final
    rw [hprogress, hlook]
    exact h.done

theorem Valued.opens (h : Valued grid extent marks (some p) walk)
    (hwalk : Consistent grid extent roots (some p) walk)
    (hopens : Opens grid extent walk p next) : Valued grid extent marks none next := by
  have hnext := hwalk.opens hopens
  have hkept := hopens.keeps hwalk
  have hself := hopens.getElem?_progress_self
  refine ⟨?_, ?_, ?_⟩
  · intro q hq
    by_cases hqp : q = p
    · subst hqp
      simp [hself] at hq
    · exact h.looped q (hopens.getElem?_progress_of_ne hqp ▸ hq)
  · intro above frame below hsplit hunder q hq
    rw [hopens.stack_eq] at hsplit
    cases above with
    | nil =>
        obtain ⟨rfl, -⟩ := List.cons.inj hsplit
        exact .inl hq
    | cons top above =>
        obtain ⟨rfl, hrest⟩ : _ = top ∧ walk.stack = above ++ frame :: below :=
          List.cons.inj hsplit
        have hframe : frame.cell ≠ p := by
          intro hcell
          have hmem : p ∈ walk.way := by simp [way, hrest, hcell]
          exact hwalk.not_mem_fresh_of_mem_way hmem hopens.mem_fresh
        rw [hopens.getElem?_progress_of_ne hframe] at hunder
        rcases h.underWay above frame below hrest hunder q hq with
          hpending | hlooked | hfinal | habove
        · exact .inl hpending
        · obtain rfl := Option.some.inj hlooked
          exact .inr (.inr (.inr (by simp)))
        · exact .inr (.inr (.inl (hfinal.mono hkept)))
        · exact .inr (.inr (.inr (by simp only [List.map_cons, List.mem_cons, habove, or_true])))
  · intro q value hvalue
    have hq : q ≠ p := by
      rintro rfl
      simp [hself] at hvalue
    rw [hopens.getElem?_progress_of_ne hq] at hvalue
    exact h.done_mono hwalk hnext hkept hvalue

theorem Valued.loops {above : List Position} (h : Valued grid extent marks (some p) walk)
    (hwalk : Consistent grid extent roots (some p) walk) (hloops : walk.Loops p above next)
    (hmarks : ∀ q, q ∈ above ∨ q = p → marks q) : Valued grid extent marks none next := by
  have hnext := hwalk.loops hloops
  have hkept := hloops.keeps hwalk
  obtain ⟨low, hway⟩ := hloops.way_eq
  refine ⟨?_, ?_, ?_⟩
  · intro q hq
    rw [hloops.getElem?_progress q] at hq
    split at hq
    · rename_i hmarked
      exact hmarks q hmarked
    · exact h.looped q hq
  · intro higher frame below hsplit hunder q hq
    rw [hloops.stack_eq] at hsplit
    rw [hloops.getElem?_progress] at hunder
    split at hunder
    · simp at hunder
    · rename_i hframe
      obtain ⟨habove, hne⟩ := not_or.mp hframe
      rcases h.underWay higher frame below hsplit hunder q hq with
        hpending | hlooked | hfinal | hover
      · exact .inl hpending
      · -- The loop is closed above this frame, so the cell looked at lies above it as well.
        obtain rfl := Option.some.inj hlooked
        have hcells : above ++ p :: low =
            higher.map Frame.cell ++ frame.cell :: below.map Frame.cell := by
          rw [← hway, way, hsplit, List.map_append, List.map_cons]
        rcases List.append_eq_append_iff.mp hcells with
          ⟨between, hover, hrest⟩ | ⟨between, habove', hrest⟩
        · cases between with
          | nil => exact absurd (List.cons.inj hrest).1.symm hne
          | cons r between =>
              obtain ⟨rfl, -⟩ := List.cons.inj hrest
              exact .inr (.inr (.inr (by simp [hover])))
        · cases between with
          | nil => exact absurd (List.cons.inj hrest).1 hne
          | cons r between =>
              obtain ⟨rfl, -⟩ := List.cons.inj hrest
              exact absurd (by simp [habove']) habove
      · exact .inr (.inr (.inl (hfinal.mono hkept)))
      · exact .inr (.inr (.inr hover))
  · intro q value hvalue
    rw [hloops.getElem?_progress q] at hvalue
    split at hvalue
    · simp at hvalue
    · exact h.done_mono hwalk hnext hkept hvalue

theorem Valued.passes (h : Valued grid extent marks (some p) walk)
    (hwalk : Consistent grid extent roots (some p) walk) (hfresh : p ∉ walk.fresh)
    (hway : p ∉ walk.way) : Valued grid extent marks none walk := by
  have hfinal : walk.Final grid p := by
    by_cases hp : p ∈ grid.formulas
    · exact .inr (hwalk.done_of_not_mem_way hp hfresh hway)
    · exact .inl hp
  refine ⟨h.looped, ?_, h.done⟩
  intro above frame below hsplit hunder q hq
  rcases h.underWay above frame below hsplit hunder q hq with
    hpending | hlooked | hq | habove
  · exact .inl hpending
  · obtain rfl := Option.some.inj hlooked
    exact .inr (.inr (.inl hfinal))
  · exact .inr (.inr (.inl hq))
  · exact .inr (.inr (.inr habove))

theorem Valued.ends {cell : Position} {value : Value} (h : Valued grid extent marks none walk)
    (hwalk : Consistent grid extent roots none walk)
    (hends : Ends grid extent walk cell value next) : Valued grid extent marks none next := by
  have hnext := hwalk.ends hends
  obtain ⟨formula, hstack⟩ := hends.stack_eq
  have hself := hends.getElem?_progress_self
  have hkept := hends.keeps
  refine ⟨?_, ?_, ?_⟩
  · intro q hq
    have hne : q ≠ cell := by
      rintro rfl
      simp [hself] at hq
    rw [hends.getElem?_progress_of_ne hne] at hq
    exact h.looped q hq
  · intro above frame below hsplit hunder q hq
    have hframe : frame.cell ≠ cell := by
      intro hcell
      simp [hcell, hself] at hunder
    rw [hends.getElem?_progress_of_ne hframe] at hunder
    rcases h.underWay (⟨cell, formula, []⟩ :: above) frame below (by simp [hstack, hsplit])
      hunder q hq with hpending | hnone | hfinal | habove
    · exact .inl hpending
    · simp at hnone
    · exact .inr (.inr (.inl (hfinal.mono hkept)))
    · rcases List.mem_cons.mp habove with rfl | habove
      · exact .inr (.inr (.inl (.inr ⟨value, hself⟩)))
      · exact .inr (.inr (.inr habove))
  · intro q last hlast
    by_cases hq : q = cell
    · subst hq
      obtain rfl : value = last := by simpa [hself] using hlast
      rcases hends.value_eq with ⟨hprogress, rfl⟩ | ⟨hprogress, hvalue⟩
      · exact .inl ⟨rfl, h.looped q hprogress⟩
      · have hreads : ∀ r ∈ grid.readsAt extent q, walk.Final grid r := by
          intro r hr
          rcases h.underWay [] ⟨q, formula, []⟩ next.stack hstack hprogress r hr with
            hpending | hnone | hfinal | habove
          · simp at hpending
          · simp at hnone
          · exact hfinal
          · simp at habove
        refine .inr ⟨fun r hr => (hreads r hr).mono hkept, ?_⟩
        rw [hvalue]
        exact Grid.formulaValue_congr fun r hr =>
          ((hreads r hr).look_eq hwalk hnext hkept).symm
    · rw [hends.getElem?_progress_of_ne hq] at hlast
      exact h.done_mono hwalk hnext hkept hlast

/-- A step keeps the values right if it closes loops on marked cells only. -/
theorem Valued.step (h : Valued grid extent marks none walk)
    (hwalk : Consistent grid extent roots none walk)
    (hstep : walk.step? grid extent = some next)
    (hmarks : ∀ p taken above, walk.Takes p taken → taken.Loops p above next →
      ∀ q, q ∈ above ∨ q = p → marks q) : Valued grid extent marks none next := by
  rcases hwalk.step_cases hstep with
    ⟨p, taken, htakes, hopens | ⟨above, hloops⟩ | ⟨hfresh, hway, rfl⟩⟩ | ⟨cell, value, hends⟩
  · exact (h.take htakes).opens (hwalk.take htakes) hopens
  · exact (h.take htakes).loops (hwalk.take htakes) hloops (hmarks p taken above htakes hloops)
  · exact (h.take htakes).passes (hwalk.take htakes) hfresh hway
  · exact h.ends hwalk hends

theorem Consistent.loop_chain {above : List Position}
    (h : Consistent grid extent roots (some p) walk) (hloops : walk.Loops p above next) :
    (p :: above.reverse).IsChain (grid.Reads extent) ∧
      grid.Reads extent ((p :: above.reverse).getLast (List.cons_ne_nil _ _)) p := by
  obtain ⟨below, hway⟩ := hloops.way_eq
  have hchain := h.chain
  rw [hway, show above ++ p :: below = (above ++ [p]) ++ below by simp] at hchain
  refine ⟨?_, ?_⟩
  · have hreverse := List.isChain_reverse.mpr hchain.left_of_append
    simpa using hreverse
  · obtain ⟨passed, hchoices, hp⟩ := h.looked_mem p rfl
    unfold way at hway
    unfold choices at hchoices
    cases hstack : walk.stack with
    | nil => simp [hstack] at hway
    | cons frame rest =>
        simp only [hstack, List.map_cons] at hway hchoices
        have hlast : (p :: above.reverse).getLast (List.cons_ne_nil _ _) = frame.cell := by
          cases above with
          | nil => simpa using (List.cons.inj hway).1.symm
          | cons top above =>
              obtain ⟨rfl, -⟩ := List.cons.inj hway
              simp
        rw [hlast, Grid.Reads, hchoices]
        exact List.mem_append_left _ hp

theorem Consistent.onLoop {above : List Position}
    (h : Consistent grid extent roots (some p) walk) (hloops : walk.Loops p above next)
    (hq : q ∈ above ∨ q = p) : grid.OnLoop extent q := by
  obtain ⟨hchain, hback⟩ := h.loop_chain hloops
  exact transGen_of_isChain hchain hback (by simpa [or_comm] using hq)

theorem Consistent.done_of_end (h : Consistent grid extent roots none walk)
    (hend : walk.step? grid extent = none) (hformula : p ∈ grid.formulas)
    (hfresh : p ∉ walk.fresh) : ∃ value, walk.progress[p]? = some (.done value) := by
  obtain ⟨hstack, -⟩ := step?_eq_none_iff.mp hend
  exact h.done_of_not_mem_way hformula hfresh (by simp [way, hstack])

theorem Consistent.root_not_mem_fresh (h : Consistent grid extent roots none walk)
    (hend : walk.step? grid extent = none) (hroot : p ∈ roots) : p ∉ walk.fresh := by
  obtain ⟨-, hroots⟩ := step?_eq_none_iff.mp hend
  have hpassed := h.passed_roots
  rw [hroots] at hpassed
  exact hpassed.not_mem_of_nil p hroot

end Walk

end Spreadsheet
