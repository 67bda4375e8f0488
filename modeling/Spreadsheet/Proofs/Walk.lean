import Mathlib.Data.List.Chain
import Spreadsheet.Proofs.Reads

/-!
How a walk goes. A step either looks at the next cell, which opens a formula, closes a loop or
passes over the cell, or it ends the latest formula. The invariant says how the formulas that have
not been reached, the progress of the others and the stack fit together.
-/

namespace Spreadsheet.Walk

variable {grid : Grid} {extent : Extent} {roots : List Position} {looked : Option Position}
  {walk next : Walk} {p q : Position}

/-- The cells of the formulas under way, the latest first. -/
def way (walk : Walk) : List Position := walk.stack.map Frame.cell

/-- The cells that the walk looks at from where it stands: those that the latest formula reads, or
the roots if no formula is under way. -/
def choices (grid : Grid) (extent : Extent) (roots : List Position) (walk : Walk) :
    List Position :=
  match walk.stack with
  | [] => roots
  | frame :: _ => grid.readsAt extent frame.cell

/-- The choices that are still to be looked at. -/
def ahead (walk : Walk) : List Position :=
  match walk.stack with
  | [] => walk.roots
  | frame :: _ => frame.pending

/-- The second walk is the first one once it has taken the next cell in order to look at it. -/
inductive Takes (walk : Walk) (p : Position) : Walk → Prop where
  | read {cell : Position} {formula : Option Expr} {pending : List Position} {below : List Frame}
      (hstack : walk.stack = ⟨cell, formula, p :: pending⟩ :: below) :
      Takes walk p { walk with stack := ⟨cell, formula, pending⟩ :: below }
  | root {rest : List Position} (hstack : walk.stack = []) (hroots : walk.roots = p :: rest) :
      Takes walk p { walk with roots := rest }

/-- The walk opens a formula that has not been reached. -/
structure Opens (grid : Grid) (extent : Extent) (walk : Walk) (p : Position) (next : Walk) :
    Prop where
  mem_fresh : p ∈ walk.fresh
  fresh_eq : next.fresh = walk.fresh.erase p
  progress_eq : next.progress = walk.progress.insert p .underWay
  stack_eq : next.stack = ⟨p, grid.exprAt? extent p, grid.readsAt extent p⟩ :: walk.stack
  roots_eq : next.roots = walk.roots

/-- The walk closes a loop at a formula under way, which lies below the given ones. -/
structure Loops (walk : Walk) (p : Position) (above : List Position) (next : Walk) : Prop where
  way_eq : ∃ below, walk.way = above ++ p :: below
  fresh_eq : next.fresh = walk.fresh
  getElem?_progress : ∀ q : Position,
    next.progress[q]? = if q ∈ above ∨ q = p then some .looped else walk.progress[q]?
  stack_eq : next.stack = walk.stack
  roots_eq : next.roots = walk.roots

/-- The walk ends the latest formula and gives it a value. -/
structure Ends (grid : Grid) (extent : Extent) (walk : Walk) (cell : Position) (value : Value)
    (next : Walk) : Prop where
  stack_eq : ∃ formula, walk.stack = ⟨cell, formula, []⟩ :: next.stack
  fresh_eq : next.fresh = walk.fresh
  progress_eq : next.progress = walk.progress.insert cell (.done value)
  roots_eq : next.roots = walk.roots
  value_eq : walk.progress[cell]? = some .looped ∧ value = .fault .loop ∨
    walk.progress[cell]? = some .underWay ∧
      value = grid.formulaValue extent (walk.look grid) cell

/-- All of a list that comes before the rest has been reached, but for the cell that the walk is
looking at. -/
def Passed (fresh : Std.ExtTreeMap Position String) (looked : Option Position)
    (whole rest : List Position) : Prop :=
  ∃ passed, whole = passed ++ rest ∧ ∀ p ∈ passed, p ∈ fresh → looked = some p

/-- How the parts of a walk fit together, while it is looking at a cell or between two steps. -/
structure Consistent (grid : Grid) (extent : Extent) (roots : List Position)
    (looked : Option Position) (walk : Walk) : Prop where
  getElem?_fresh : ∀ (p : Position) (body : String), walk.fresh[p]? = some body →
    grid.formulas[p]? = some body
  mem_progress : ∀ p, p ∈ walk.progress ↔ p ∈ grid.formulas ∧ p ∉ walk.fresh
  mem_way : ∀ p : Position, p ∈ walk.way ↔
    walk.progress[p]? = some .underWay ∨ walk.progress[p]? = some .looped
  nodup : walk.way.Nodup
  /-- Each formula under way is read by the one below it. -/
  chain : walk.way.IsChain fun p q => grid.Reads extent q p
  formula : ∀ frame ∈ walk.stack, frame.formula = grid.exprAt? extent frame.cell
  passed : ∀ frame ∈ walk.stack,
    Passed walk.fresh looked (grid.readsAt extent frame.cell) frame.pending
  passed_roots : Passed walk.fresh looked roots walk.roots
  reads_done : ∀ (p : Position) (value : Value), walk.progress[p]? = some (.done value) →
    ∀ q ∈ grid.readsAt extent p, q ∉ walk.fresh
  looked_mem : ∀ p, looked = some p →
    ∃ passed, walk.choices grid extent roots = passed ++ walk.ahead ∧ p ∈ passed

theorem consistent_start (grid : Grid) (extent : Extent) (roots : List Position) :
    Consistent grid extent roots none (start grid roots) where
  getElem?_fresh := fun _ _ h => h
  mem_progress := fun p => by simp [start]
  mem_way := fun p => by simp [start, way]
  nodup := by simp [start, way]
  chain := by simp [start, way]
  formula := by simp [start]
  passed := by simp [start]
  passed_roots := ⟨[], rfl, by simp⟩
  reads_done := by simp [start]
  looked_mem := by simp

theorem Passed.take {fresh : Std.ExtTreeMap Position String} {whole rest : List Position}
    (h : Passed fresh none whole (p :: rest)) : Passed fresh (some p) whole rest := by
  obtain ⟨passed, hwhole, hpassed⟩ := h
  refine ⟨passed ++ [p], by simp [hwhole], ?_⟩
  intro q hq hfresh
  rcases List.mem_append.mp hq with hq | hq
  · exact absurd (hpassed q hq hfresh) (by simp)
  · rw [List.mem_singleton.mp hq]

theorem Passed.settle {fresh fresh' : Std.ExtTreeMap Position String} {whole rest : List Position}
    (h : Passed fresh (some p) whole rest) (hp : p ∉ fresh')
    (hsub : ∀ q, q ∈ fresh' → q ∈ fresh) : Passed fresh' none whole rest := by
  obtain ⟨passed, hwhole, hpassed⟩ := h
  refine ⟨passed, hwhole, ?_⟩
  intro q hq hfresh
  have hlooked := hpassed q hq (hsub q hfresh)
  rw [Option.some.injEq] at hlooked
  exact absurd (hlooked ▸ hfresh) hp

theorem Takes.way_eq (h : walk.Takes p next) : next.way = walk.way := by
  cases h with
  | read hstack => simp [way, hstack]
  | root hstack hroots => rfl

theorem Takes.fresh_eq (h : walk.Takes p next) : next.fresh = walk.fresh := by
  cases h <;> rfl

theorem Takes.progress_eq (h : walk.Takes p next) : next.progress = walk.progress := by
  cases h <;> rfl

theorem Consistent.take (h : Consistent grid extent roots none walk) (htakes : walk.Takes p next) :
    Consistent grid extent roots (some p) next := by
  have hway := htakes.way_eq
  have hfresh := htakes.fresh_eq
  have hprogress := htakes.progress_eq
  have hpassed : ∀ {whole rest : List Position}, Passed walk.fresh none whole rest →
      Passed walk.fresh (some p) whole rest := by
    rintro whole rest ⟨passed, hwhole, hnot⟩
    exact ⟨passed, hwhole, fun q hq hq' => absurd (hnot q hq hq') (by simp)⟩
  refine ⟨?_, ?_, ?_, ?_, ?_, ?_, ?_, ?_, ?_, ?_⟩
  · rw [hfresh]
    exact h.getElem?_fresh
  · rw [hfresh, hprogress]
    exact h.mem_progress
  · rw [hway, hprogress]
    exact h.mem_way
  · rw [hway]
    exact h.nodup
  · rw [hway]
    exact h.chain
  · cases htakes with
    | @read cell formula pending below hstack =>
        intro frame hframe
        rcases List.mem_cons.mp hframe with rfl | hframe
        · exact h.formula ⟨cell, formula, p :: pending⟩ (hstack ▸ List.mem_cons_self)
        · exact h.formula frame (hstack ▸ List.mem_cons_of_mem _ hframe)
    | root hstack hroots => exact h.formula
  · rw [hfresh]
    cases htakes with
    | read hstack =>
        intro frame hframe
        rcases List.mem_cons.mp hframe with rfl | hframe
        · exact (h.passed _ (hstack ▸ List.mem_cons_self)).take
        · exact hpassed (h.passed _ (hstack ▸ List.mem_cons_of_mem _ hframe))
    | root hstack hroots => exact fun frame hframe => hpassed (h.passed frame hframe)
  · rw [hfresh]
    cases htakes with
    | read hstack => exact hpassed h.passed_roots
    | root hstack hroots => exact (hroots ▸ h.passed_roots).take
  · rw [hfresh, hprogress]
    exact h.reads_done
  · rintro q hq
    obtain rfl := Option.some.inj hq
    cases htakes with
    | read hstack =>
        obtain ⟨passed, hwhole, -⟩ := h.passed _ (hstack ▸ List.mem_cons_self)
        exact ⟨passed ++ [p], by simp [choices, ahead, hwhole], by simp⟩
    | root hstack hroots =>
        obtain ⟨passed, hwhole, -⟩ := h.passed_roots
        exact ⟨passed ++ [p], by simp [choices, ahead, hstack, hwhole, hroots], by simp⟩

theorem step?_cases (h : walk.step? grid extent = some next) :
    (∃ p taken, walk.Takes p taken ∧ next = taken.visit extent p) ∨
      ∃ cell formula below, walk.stack = ⟨cell, formula, []⟩ :: below ∧
        next = walk.close grid ⟨cell, formula, []⟩ below := by
  unfold step? at h
  split at h
  · rename_i cell formula p pending below hstack
    exact .inl ⟨p, _, .read hstack, (Option.some.inj h).symm⟩
  · rename_i cell formula below hstack
    exact .inr ⟨cell, formula, below, hstack, (Option.some.inj h).symm⟩
  · rename_i p rest hstack hroots
    exact .inl ⟨p, _, .root hstack hroots, (Option.some.inj h).symm⟩
  · simp at h

theorem step?_eq_none_iff :
    walk.step? grid extent = none ↔ walk.stack = [] ∧ walk.roots = [] := by
  unfold step?
  split <;> simp_all

theorem getElem?_closeLoop (closing q : Position) (stack : List Frame)
    (progress : Std.ExtTreeMap Position Progress) (above below : List Position)
    (hstack : stack.map Frame.cell = above ++ closing :: below) (habove : closing ∉ above) :
    (closeLoop closing progress stack)[q]? =
      if q ∈ above ∨ q = closing then some .looped else progress[q]? := by
  induction above generalizing stack progress with
  | nil =>
      cases stack with
      | nil => simp at hstack
      | cons frame rest =>
          obtain ⟨hcell, -⟩ := List.cons.inj hstack
          rw [closeLoop, if_pos hcell, hcell, Std.ExtTreeMap.getElem?_insert]
          simp only [Std.compare_eq_iff_eq, List.not_mem_nil, false_or, @eq_comm _ q]
  | cons cell above ih =>
      cases stack with
      | nil => simp at hstack
      | cons frame rest =>
          obtain ⟨hcell, hrest⟩ := List.cons.inj hstack
          obtain ⟨hne, hnot⟩ := not_or.mp (mt List.mem_cons.mpr habove)
          rw [closeLoop, hcell, if_neg (Ne.symm hne), ih rest _ hrest hnot]
          by_cases hq : q ∈ above ∨ q = closing
          · rw [if_pos hq, if_pos (hq.imp_left (List.mem_cons_of_mem _))]
          · by_cases hqcell : q = cell
            · subst hqcell
              rw [if_neg hq, if_pos (.inl List.mem_cons_self),
                Std.ExtTreeMap.getElem?_insert_self]
            · have hq' : ¬ (q ∈ cell :: above ∨ q = closing) := by
                simpa [hqcell] using hq
              rw [if_neg hq, if_neg hq', Std.ExtTreeMap.getElem?_insert,
                if_neg (by simpa using Ne.symm hqcell)]

theorem Consistent.visit_cases (h : Consistent grid extent roots (some p) walk) :
    Opens grid extent walk p (walk.visit extent p) ∨
      (∃ above, walk.Loops p above (walk.visit extent p)) ∨
      (p ∉ walk.fresh ∧ p ∉ walk.way ∧ walk.visit extent p = walk) := by
  unfold visit
  split
  · rename_i body hbody
    have hexpr : grid.exprAt? extent p = (parseFormula extent body).toOption := by
      rw [Grid.exprAt?, h.getElem?_fresh p body hbody, Option.bind_some]
    refine .inl ⟨?_, rfl, rfl, ?_, rfl⟩
    · rw [Std.ExtTreeMap.mem_iff_isSome_getElem?, hbody]
      rfl
    · simp only [openFormula, Frame.ofExpr, Grid.readsAt, hexpr]
  · rename_i hbody
    have hfresh : p ∉ walk.fresh := by
      rw [Std.ExtTreeMap.mem_iff_isSome_getElem?, hbody]
      simp
    have hloop (hway : p ∈ walk.way) :
        ∃ above, walk.Loops p above
          { walk with progress := closeLoop p walk.progress walk.stack } := by
      obtain ⟨above, below, hsplit⟩ := List.append_of_mem hway
      have hnodup := h.nodup
      rw [hsplit] at hnodup
      have habove : p ∉ above := fun hmem =>
        (List.nodup_append.mp hnodup).2.2 p hmem p List.mem_cons_self rfl
      exact ⟨above, ⟨below, hsplit⟩, rfl,
        fun q => getElem?_closeLoop p q _ _ above below hsplit habove, rfl, rfl⟩
    split
    · rename_i hprogress
      exact .inr (.inl (hloop ((h.mem_way p).mpr (.inl hprogress))))
    · rename_i hprogress
      exact .inr (.inl (hloop ((h.mem_way p).mpr (.inr hprogress))))
    · rename_i value hprogress
      refine .inr (.inr ⟨hfresh, ?_, rfl⟩)
      simp [h.mem_way p, hprogress]
    · rename_i hprogress
      refine .inr (.inr ⟨hfresh, ?_, rfl⟩)
      simp [h.mem_way p, hprogress]

theorem Consistent.close_ends {cell : Position} {formula : Option Expr} {below : List Frame}
    (h : Consistent grid extent roots none walk)
    (hstack : walk.stack = ⟨cell, formula, []⟩ :: below) :
    ∃ value, Ends grid extent walk cell value (walk.close grid ⟨cell, formula, []⟩ below) := by
  have hway : cell ∈ walk.way := by simp [way, hstack]
  have hformula : formula = grid.exprAt? extent cell :=
    h.formula ⟨cell, formula, []⟩ (hstack ▸ List.mem_cons_self)
  rcases (h.mem_way cell).mp hway with hprogress | hprogress
  · refine ⟨grid.formulaValue extent (walk.look grid) cell, ?_⟩
    cases hexpr : formula with
    | none =>
        have hvalue : grid.formulaValue extent (walk.look grid) cell = .fault .invalid := by
          simp [Grid.formulaValue, ← hformula, hexpr]
        refine ⟨⟨formula, ?_⟩, ?_, ?_, ?_, .inr ⟨hprogress, rfl⟩⟩ <;>
          simp [close, hprogress, hstack, hexpr, hvalue]
    | some e =>
        have hvalue : grid.formulaValue extent (walk.look grid) cell =
            e.value (walk.look grid) := by
          simp [Grid.formulaValue, ← hformula, hexpr]
        refine ⟨⟨formula, ?_⟩, ?_, ?_, ?_, .inr ⟨hprogress, rfl⟩⟩ <;>
          simp [close, hprogress, hstack, hexpr, hvalue]
  · refine ⟨.fault .loop, ⟨formula, ?_⟩, ?_, ?_, ?_, .inl ⟨hprogress, rfl⟩⟩ <;>
      simp [close, hprogress, hstack]

theorem Consistent.step_cases (h : Consistent grid extent roots none walk)
    (hstep : walk.step? grid extent = some next) :
    (∃ p taken, walk.Takes p taken ∧ (Opens grid extent taken p next ∨
        (∃ above, taken.Loops p above next) ∨
          (p ∉ taken.fresh ∧ p ∉ taken.way ∧ next = taken))) ∨
      ∃ cell value, Ends grid extent walk cell value next := by
  rcases step?_cases hstep with ⟨p, taken, htakes, rfl⟩ | ⟨cell, formula, below, hstack, rfl⟩
  · exact .inl ⟨p, taken, htakes, (h.take htakes).visit_cases⟩
  · obtain ⟨value, hends⟩ := h.close_ends hstack
    exact .inr ⟨cell, value, hends⟩

theorem Passed.not_mem_of_nil {fresh : Std.ExtTreeMap Position String} {whole : List Position}
    (h : Passed fresh none whole []) : ∀ q ∈ whole, q ∉ fresh := by
  obtain ⟨passed, rfl, hpassed⟩ := h
  intro q hq hfresh
  rw [List.append_nil] at hq
  exact absurd (hpassed q hq hfresh) (by simp)

theorem Consistent.mem_progress_of_mem_way (h : Consistent grid extent roots looked walk)
    (hway : p ∈ walk.way) : p ∈ walk.progress := by
  rw [Std.ExtTreeMap.mem_iff_isSome_getElem?]
  rcases (h.mem_way p).mp hway with hprogress | hprogress <;> simp [hprogress]

theorem Consistent.mem_formulas_of_mem_way (h : Consistent grid extent roots looked walk)
    (hway : p ∈ walk.way) : p ∈ grid.formulas :=
  ((h.mem_progress p).mp (h.mem_progress_of_mem_way hway)).1

theorem Consistent.not_mem_fresh_of_mem_way (h : Consistent grid extent roots looked walk)
    (hway : p ∈ walk.way) : p ∉ walk.fresh :=
  ((h.mem_progress p).mp (h.mem_progress_of_mem_way hway)).2

theorem Consistent.mem_formulas_of_mem_fresh (h : Consistent grid extent roots looked walk)
    (hfresh : p ∈ walk.fresh) : p ∈ grid.formulas := by
  rw [Std.ExtTreeMap.mem_iff_isSome_getElem?] at hfresh ⊢
  obtain ⟨body, hbody⟩ := Option.isSome_iff_exists.mp hfresh
  rw [h.getElem?_fresh p body hbody]
  rfl

theorem Consistent.getElem?_progress_eq_none (h : Consistent grid extent roots looked walk)
    (hp : p ∈ grid.formulas → p ∈ walk.fresh) : walk.progress[p]? = none := by
  have hnot : p ∉ walk.progress := by
    intro hmem
    obtain ⟨hformula, hfresh⟩ := (h.mem_progress p).mp hmem
    exact hfresh (hp hformula)
  rwa [Std.ExtTreeMap.mem_iff_isSome_getElem?, Bool.not_eq_true, Option.isSome_eq_false_iff,
    Option.isNone_iff_eq_none] at hnot

theorem Consistent.done_of_not_mem_way (h : Consistent grid extent roots looked walk)
    (hformula : p ∈ grid.formulas) (hfresh : p ∉ walk.fresh) (hway : p ∉ walk.way) :
    ∃ value, walk.progress[p]? = some (.done value) := by
  have hmem : p ∈ walk.progress := (h.mem_progress p).mpr ⟨hformula, hfresh⟩
  rw [Std.ExtTreeMap.mem_iff_isSome_getElem?] at hmem
  obtain ⟨progress, hprogress⟩ := Option.isSome_iff_exists.mp hmem
  rw [h.mem_way p, hprogress] at hway
  cases progress with
  | underWay => simp at hway
  | looped => simp at hway
  | done value => exact ⟨value, hprogress⟩

theorem Opens.way_eq (h : Opens grid extent walk p next) : next.way = p :: walk.way := by
  simp [way, h.stack_eq]

theorem Opens.getElem?_progress_self (h : Opens grid extent walk p next) :
    next.progress[p]? = some .underWay := by
  rw [h.progress_eq, Std.ExtTreeMap.getElem?_insert_self]

theorem Opens.getElem?_progress_of_ne (h : Opens grid extent walk p next) (hq : q ≠ p) :
    next.progress[q]? = walk.progress[q]? := by
  rw [h.progress_eq, Std.ExtTreeMap.getElem?_insert, if_neg (by simpa using hq.symm)]

theorem Consistent.opens (h : Consistent grid extent roots (some p) walk)
    (hopens : Opens grid extent walk p next) : Consistent grid extent roots none next := by
  have hway := hopens.way_eq
  have hnot : p ∉ walk.way := fun hmem => h.not_mem_fresh_of_mem_way hmem hopens.mem_fresh
  have herased : p ∉ next.fresh := by simp [hopens.fresh_eq]
  have hsub : ∀ q, q ∈ next.fresh → q ∈ walk.fresh := by
    intro q hq
    rw [hopens.fresh_eq] at hq
    exact Std.ExtTreeMap.mem_of_mem_erase hq
  refine ⟨?_, ?_, ?_, ?_, ?_, ?_, ?_, ?_, ?_, by simp⟩
  · intro q body hbody
    rw [hopens.fresh_eq, Std.ExtTreeMap.getElem?_erase] at hbody
    split at hbody
    · simp at hbody
    · exact h.getElem?_fresh q body hbody
  · intro q
    rw [hopens.progress_eq, hopens.fresh_eq, Std.ExtTreeMap.mem_insert, h.mem_progress q,
      Std.ExtTreeMap.mem_erase]
    by_cases hq : p = q
    · subst hq
      simp [h.mem_formulas_of_mem_fresh hopens.mem_fresh]
    · simp [hq]
  · intro q
    rw [hway, List.mem_cons]
    by_cases hq : q = p
    · subst hq
      simp [hopens.getElem?_progress_self]
    · simp [hq, hopens.getElem?_progress_of_ne hq, h.mem_way q]
  · rw [hway]
    exact List.nodup_cons.mpr ⟨hnot, h.nodup⟩
  · rw [hway]
    obtain ⟨passed, hchoices, hp⟩ := h.looked_mem p rfl
    have hchain := h.chain
    unfold way at hchain ⊢
    cases hstack : walk.stack with
    | nil => simp
    | cons frame below =>
        rw [hstack, List.map_cons] at hchain
        rw [List.map_cons, List.isChain_cons_cons]
        refine ⟨?_, hchain⟩
        have hwhole : grid.readsAt extent frame.cell = passed ++ walk.ahead := by
          simpa [choices, hstack] using hchoices
        rw [Grid.Reads, hwhole]
        exact List.mem_append_left _ hp
  · intro frame hframe
    rw [hopens.stack_eq] at hframe
    rcases List.mem_cons.mp hframe with rfl | hframe
    · rfl
    · exact h.formula frame hframe
  · intro frame hframe
    rw [hopens.stack_eq] at hframe
    rcases List.mem_cons.mp hframe with rfl | hframe
    · exact ⟨[], rfl, by simp⟩
    · exact (h.passed frame hframe).settle herased hsub
  · rw [hopens.roots_eq]
    exact h.passed_roots.settle herased hsub
  · intro q value hvalue r hr hfresh
    have hq : q ≠ p := by
      rintro rfl
      simp [hopens.getElem?_progress_self] at hvalue
    rw [hopens.getElem?_progress_of_ne hq] at hvalue
    exact h.reads_done q value hvalue r hr (hsub r hfresh)

theorem Consistent.loops {above : List Position} (h : Consistent grid extent roots (some p) walk)
    (hloops : walk.Loops p above next) : Consistent grid extent roots none next := by
  obtain ⟨below, hsplit⟩ := hloops.way_eq
  have hway : next.way = walk.way := by rw [way, way, hloops.stack_eq]
  have hmarked : ∀ q, q ∈ above ∨ q = p → q ∈ walk.way := by
    intro q hq
    rw [hsplit, List.mem_append, List.mem_cons]
    exact hq.imp_right .inl
  have hp : p ∉ next.fresh := by
    rw [hloops.fresh_eq]
    exact h.not_mem_fresh_of_mem_way (hmarked p (.inr rfl))
  have hsub : ∀ q, q ∈ next.fresh → q ∈ walk.fresh := fun q hq => hloops.fresh_eq ▸ hq
  refine ⟨?_, ?_, ?_, ?_, ?_, ?_, ?_, ?_, ?_, by simp⟩
  · rw [hloops.fresh_eq]
    exact h.getElem?_fresh
  · intro q
    have hmem : q ∈ next.progress ↔ q ∈ walk.progress := by
      rw [Std.ExtTreeMap.mem_iff_isSome_getElem?, hloops.getElem?_progress q]
      split
      · rename_i hq
        simp [h.mem_progress_of_mem_way (hmarked q hq)]
      · rw [Std.ExtTreeMap.mem_iff_isSome_getElem?]
    rw [hmem, hloops.fresh_eq]
    exact h.mem_progress q
  · intro q
    rw [hway, hloops.getElem?_progress q]
    split
    · rename_i hq
      simp [hmarked q hq]
    · exact h.mem_way q
  · rw [hway]
    exact h.nodup
  · rw [hway]
    exact h.chain
  · rw [hloops.stack_eq]
    exact h.formula
  · rw [hloops.stack_eq]
    exact fun frame hframe => (h.passed frame hframe).settle hp hsub
  · rw [hloops.roots_eq]
    exact h.passed_roots.settle hp hsub
  · intro q value hvalue
    rw [hloops.getElem?_progress q] at hvalue
    split at hvalue
    · simp at hvalue
    · rw [hloops.fresh_eq]
      exact h.reads_done q value hvalue

theorem Consistent.passes (h : Consistent grid extent roots (some p) walk) (hp : p ∉ walk.fresh) :
    Consistent grid extent roots none walk :=
  { h with
    passed := fun frame hframe => (h.passed frame hframe).settle hp fun _ hq => hq
    passed_roots := h.passed_roots.settle hp fun _ hq => hq
    looked_mem := by simp }

theorem Ends.way_eq {cell : Position} {value : Value} (h : Ends grid extent walk cell value next) :
    walk.way = cell :: next.way := by
  obtain ⟨formula, hstack⟩ := h.stack_eq
  simp [way, hstack]

theorem Ends.getElem?_progress_self {cell : Position} {value : Value}
    (h : Ends grid extent walk cell value next) : next.progress[cell]? = some (.done value) := by
  rw [h.progress_eq, Std.ExtTreeMap.getElem?_insert_self]

theorem Ends.getElem?_progress_of_ne {cell : Position} {value : Value}
    (h : Ends grid extent walk cell value next) (hq : q ≠ cell) :
    next.progress[q]? = walk.progress[q]? := by
  rw [h.progress_eq, Std.ExtTreeMap.getElem?_insert, if_neg (by simpa using hq.symm)]

theorem Consistent.ends {cell : Position} {value : Value}
    (h : Consistent grid extent roots none walk) (hends : Ends grid extent walk cell value next) :
    Consistent grid extent roots none next := by
  obtain ⟨formula, hstack⟩ := hends.stack_eq
  have hway := hends.way_eq
  have hnodup := h.nodup
  rw [hway, List.nodup_cons] at hnodup
  have hsub : ∀ frame ∈ next.stack, frame ∈ walk.stack := by
    intro frame hframe
    rw [hstack]
    exact List.mem_cons_of_mem _ hframe
  have hcell : cell ∈ walk.progress := h.mem_progress_of_mem_way (by simp [hway])
  refine ⟨?_, ?_, ?_, hnodup.2, ?_, ?_, ?_, ?_, ?_, by simp⟩
  · rw [hends.fresh_eq]
    exact h.getElem?_fresh
  · intro q
    rw [hends.fresh_eq, ← h.mem_progress q, hends.progress_eq, Std.ExtTreeMap.mem_insert,
      Std.compare_eq_iff_eq]
    constructor
    · rintro (rfl | hq)
      · exact hcell
      · exact hq
    · exact .inr
  · intro q
    have hold := h.mem_way q
    rw [hway, List.mem_cons] at hold
    by_cases hq : q = cell
    · subst hq
      simp [hnodup.1, hends.getElem?_progress_self]
    · rw [hends.getElem?_progress_of_ne hq]
      simpa [hq] using hold
  · have hchain := h.chain
    rw [hway] at hchain
    exact hchain.tail
  · exact fun frame hframe => h.formula frame (hsub frame hframe)
  · rw [hends.fresh_eq]
    exact fun frame hframe => h.passed frame (hsub frame hframe)
  · rw [hends.fresh_eq, hends.roots_eq]
    exact h.passed_roots
  · intro q last hlast
    rw [hends.fresh_eq]
    by_cases hq : q = cell
    · subst hq
      have hpassed := h.passed ⟨q, formula, []⟩ (hstack ▸ List.mem_cons_self)
      exact hpassed.not_mem_of_nil
    · rw [hends.getElem?_progress_of_ne hq] at hlast
      exact h.reads_done q last hlast

theorem Consistent.step (h : Consistent grid extent roots none walk)
    (hstep : walk.step? grid extent = some next) : Consistent grid extent roots none next := by
  rcases h.step_cases hstep with ⟨p, taken, htakes, hopens | ⟨above, hloops⟩ | ⟨hp, -, rfl⟩⟩ |
    ⟨cell, value, hends⟩
  · exact (h.take htakes).opens hopens
  · exact (h.take htakes).loops hloops
  · exact (h.take htakes).passes hp
  · exact h.ends hends

theorem Consistent.done_cases {value : Value} (h : Consistent grid extent roots none walk)
    (hstep : walk.step? grid extent = some next)
    (hdone : next.progress[p]? = some (.done value)) :
    walk.progress[p]? = some (.done value) ∨ Ends grid extent walk p value next := by
  rcases h.step_cases hstep with ⟨q, taken, htakes, hopens | ⟨above, hloops⟩ | ⟨-, -, rfl⟩⟩ |
    ⟨cell, last, hends⟩
  · have hq : p ≠ q := by
      rintro rfl
      simp [hopens.getElem?_progress_self] at hdone
    rw [hopens.getElem?_progress_of_ne hq, htakes.progress_eq] at hdone
    exact .inl hdone
  · rw [hloops.getElem?_progress, htakes.progress_eq] at hdone
    split at hdone
    · simp at hdone
    · exact .inl hdone
  · rw [htakes.progress_eq] at hdone
    exact .inl hdone
  · by_cases hcell : p = cell
    · subst hcell
      obtain rfl : last = value := by simpa [hends.getElem?_progress_self] using hdone
      exact .inr hends
    · rw [hends.getElem?_progress_of_ne hcell] at hdone
      exact .inl hdone

/-- What each step keeps holds at the end of a walk, where nothing is left to do. -/
theorem run_induction {motive : Walk → Prop} (hstart : motive walk)
    (hstep : ∀ walk next, motive walk → walk.step? grid extent = some next → motive next) :
    motive (walk.run grid extent) ∧ (walk.run grid extent).step? grid extent = none := by
  fun_induction run grid extent walk with
  | case1 walk next h ih => exact ih (hstep walk next hstart h)
  | case2 walk h => exact ⟨hstart, h⟩

end Spreadsheet.Walk
