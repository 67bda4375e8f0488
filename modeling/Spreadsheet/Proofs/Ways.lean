import Mathlib.Data.List.Infix
import Spreadsheet.Proofs.Reads

/-!
Ways through the formulas of a grid. A way begins at one of the given starts, goes on from each
formula to one that it reads, and visits none twice. Where two ways part, the earlier one goes on
with the cell that is read first. The first way to a formula is earlier than all others to it.
-/

namespace Spreadsheet

theorem prefix_or_parting {α : Type} (v w : List α) :
    v <+: w ∨ w <+: v ∨ ∃ shared p q, p ≠ q ∧ shared ++ [p] <+: v ∧ shared ++ [q] <+: w := by
  induction v generalizing w with
  | nil => exact .inl List.nil_prefix
  | cons p v ih =>
      cases w with
      | nil => exact .inr (.inl List.nil_prefix)
      | cons q w =>
          by_cases hpq : p = q
          · subst hpq
            rcases ih w with hvw | hwv | ⟨shared, r, s, hne, hv, hw⟩
            · exact .inl (List.prefix_cons_inj p |>.mpr hvw)
            · exact .inr (.inl (List.prefix_cons_inj p |>.mpr hwv))
            · refine .inr (.inr ⟨p :: shared, r, s, hne, ?_, ?_⟩)
              · exact List.prefix_cons_inj p |>.mpr hv
              · exact List.prefix_cons_inj p |>.mpr hw
          · exact .inr (.inr ⟨[], p, q, hpq, by simp, by simp⟩)

theorem parting_unique {α : Type} {v w shared other : List α} {p q r s : α}
    (hpq : p ≠ q) (hrs : r ≠ s) (hv : shared ++ [p] <+: v) (hw : shared ++ [q] <+: w)
    (hv' : other ++ [r] <+: v) (hw' : other ++ [s] <+: w) :
    shared = other ∧ p = r ∧ q = s := by
  induction shared generalizing other v w with
  | nil =>
      obtain ⟨v', rfl⟩ := hv
      obtain ⟨w', rfl⟩ := hw
      cases other with
      | nil => simp_all
      | cons x other =>
          rw [List.cons_append] at hv' hw'
          rw [List.nil_append, List.singleton_append, List.cons_prefix_cons] at hv' hw'
          exact absurd (hv'.1.symm.trans hw'.1) hpq
  | cons x shared ih =>
      obtain ⟨v', rfl⟩ := hv
      obtain ⟨w', rfl⟩ := hw
      cases other with
      | nil =>
          simp only [List.nil_append, List.cons_append, List.cons_prefix_cons] at hv' hw'
          exact absurd (hv'.1.trans hw'.1.symm) hrs
      | cons y other =>
          simp only [List.cons_append, List.cons_prefix_cons] at hv' hw'
          obtain ⟨rfl, hv'⟩ := hv'
          obtain ⟨hshared, hp, hq⟩ :=
            ih (List.prefix_append _ _) (List.prefix_append _ _) hv' hw'.2
          exact ⟨by rw [hshared], hp, hq⟩

theorem eq_of_prefix_of_getLast? {α : Type} {v w : List α} (h : v <+: w) (hnodup : w.Nodup)
    (hne : v ≠ []) (hlast : v.getLast? = w.getLast?) : v = w := by
  obtain ⟨rest, rfl⟩ := h
  rcases List.eq_nil_or_concat rest with rfl | ⟨front, last, rfl⟩
  · simp
  · obtain ⟨start, x, rfl⟩ := (List.eq_nil_or_concat v).resolve_left hne
    simp only [List.concat_eq_append, List.getLast?_append, List.getLast?_singleton,
      Option.some_or] at hlast
    obtain rfl := Option.some.inj hlast
    simp [List.nodup_append] at hnodup

namespace Grid

variable {grid : Grid} {extent : Extent} {starts v w way : List Position} {p q : Position}

/-- The cells with which a way can go on: those that its last formula reads, or the starts. -/
def nextCells (grid : Grid) (extent : Extent) (starts way : List Position) : List Position :=
  match way.getLast? with
  | none => starts
  | some p => grid.readsAt extent p

/-- Formulas that are visited one after the other, none of them twice. -/
structure IsWay (grid : Grid) (extent : Extent) (starts way : List Position) : Prop where
  nodup : way.Nodup
  mem_formulas : ∀ p ∈ way, p ∈ grid.formulas
  mem_nextCells : ∀ before p, before ++ [p] <+: way → p ∈ grid.nextCells extent starts before

/-- Where the two ways part, the first goes on with the cell that is read earlier. -/
def Earlier (grid : Grid) (extent : Extent) (starts v w : List Position) : Prop :=
  ∃ shared p q, shared ++ [p] <+: v ∧ shared ++ [q] <+: w ∧
    (grid.nextCells extent starts shared).idxOf p < (grid.nextCells extent starts shared).idxOf q

/-- The way to its last formula that is earlier than all others. -/
structure IsFirstWay (grid : Grid) (extent : Extent) (starts way : List Position) : Prop
    extends IsWay grid extent starts way where
  earlier : ∀ other, grid.IsWay extent starts other → other.getLast? = way.getLast? →
    other ≠ way → grid.Earlier extent starts way other

/-- The first way to some formula goes through a cell that this formula reads, and the given cell
lies on it from there on. The ways start from the formulas in their order. -/
def ClosesLoop (grid : Grid) (extent : Extent) (p : Position) : Prop :=
  ∃ before a after, grid.IsFirstWay extent grid.formulas.keys (before ++ a :: after) ∧
    grid.Reads extent ((a :: after).getLast (List.cons_ne_nil a after)) a ∧ p ∈ a :: after

theorem isWay_nil (grid : Grid) (extent : Extent) (starts : List Position) :
    grid.IsWay extent starts [] where
  nodup := List.nodup_nil
  mem_formulas := by simp
  mem_nextCells := by simp

theorem IsWay.concat (h : grid.IsWay extent starts way) (hp : p ∉ way)
    (hformula : p ∈ grid.formulas) (hnext : p ∈ grid.nextCells extent starts way) :
    grid.IsWay extent starts (way ++ [p]) where
  nodup := by
    rw [List.nodup_append]
    refine ⟨h.nodup, by simp, ?_⟩
    rintro q hq r hr rfl
    exact hp (List.mem_singleton.mp hr ▸ hq)
  mem_formulas := by
    intro q hq
    rcases List.mem_append.mp hq with hq | hq
    · exact h.mem_formulas q hq
    · rw [List.mem_singleton.mp hq]
      exact hformula
  mem_nextCells := by
    intro before q hq
    rcases List.prefix_concat_iff.mp hq with heq | hq
    · obtain ⟨rfl, hqp⟩ := List.append_inj' heq rfl
      rw [(List.cons.inj hqp).1]
      exact hnext
    · exact h.mem_nextCells before q hq

theorem IsWay.of_prefix (h : grid.IsWay extent starts w) (hbegins : v <+: w) :
    grid.IsWay extent starts v where
  nodup := hbegins.sublist.nodup h.nodup
  mem_formulas := fun p hp => h.mem_formulas p (hbegins.subset hp)
  mem_nextCells := fun before p hp => h.mem_nextCells before p (hp.trans hbegins)

theorem Earlier.mono (h : grid.Earlier extent starts v w) {v' w' : List Position}
    (hv : v <+: v') (hw : w <+: w') : grid.Earlier extent starts v' w' := by
  obtain ⟨shared, p, q, hp, hq, hlt⟩ := h
  exact ⟨shared, p, q, hp.trans hv, hq.trans hw, hlt⟩

theorem Earlier.asymm (h : grid.Earlier extent starts v w) : ¬ grid.Earlier extent starts w v := by
  rintro ⟨other, s, r, hs, hr, hlt'⟩
  obtain ⟨shared, p, q, hp, hq, hlt⟩ := h
  have hpq : p ≠ q := by
    rintro rfl
    exact lt_irrefl _ hlt
  have hrs : r ≠ s := by
    rintro rfl
    exact lt_irrefl _ hlt'
  obtain ⟨rfl, rfl, rfl⟩ := parting_unique hpq hrs hp hq hr hs
  exact lt_asymm hlt hlt'

/-- A way that is earlier than a longer one is earlier than its beginning, or goes on earlier at its
end. -/
theorem Earlier.concat_cases (h : grid.Earlier extent starts v (w ++ [p])) :
    grid.Earlier extent starts v w ∨ ∃ q, w ++ [q] <+: v ∧
      (grid.nextCells extent starts w).idxOf q < (grid.nextCells extent starts w).idxOf p := by
  obtain ⟨shared, q, r, hq, hr, hlt⟩ := h
  rcases List.prefix_concat_iff.mp hr with heq | hr
  · obtain ⟨rfl, hrp⟩ := List.append_inj' heq rfl
    rw [(List.cons.inj hrp).1] at hlt
    exact .inr ⟨q, hq, hlt⟩
  · exact .inl ⟨shared, q, r, hq, hr, hlt⟩

theorem IsWay.earlier_or_earlier (hv : grid.IsWay extent starts v)
    (hw : grid.IsWay extent starts w) (hne : v ≠ []) (hne' : w ≠ [])
    (hlast : v.getLast? = w.getLast?) (hvw : v ≠ w) :
    grid.Earlier extent starts v w ∨ grid.Earlier extent starts w v := by
  rcases prefix_or_parting v w with hbegins | hbegins | ⟨shared, p, q, hpq, hp, hq⟩
  · exact absurd (eq_of_prefix_of_getLast? hbegins hw.nodup hne hlast) hvw
  · exact absurd (eq_of_prefix_of_getLast? hbegins hv.nodup hne' hlast.symm).symm hvw
  · have hidx : (grid.nextCells extent starts shared).idxOf p ≠
        (grid.nextCells extent starts shared).idxOf q := by
      intro heq
      exact hpq ((List.idxOf_inj (hv.mem_nextCells shared p hp)).mp heq)
    rcases Nat.lt_or_gt_of_ne hidx with hlt | hgt
    · exact .inl ⟨shared, p, q, hp, hq, hlt⟩
    · exact .inr ⟨shared, q, p, hq, hp, hgt⟩

theorem IsFirstWay.unique (hv : grid.IsFirstWay extent starts v)
    (hw : grid.IsFirstWay extent starts w) (hlast : v.getLast? = w.getLast?) : v = w := by
  by_contra hvw
  have hearlier := hv.earlier w hw.toIsWay hlast.symm (Ne.symm hvw)
  exact hearlier.asymm (hw.earlier v hv.toIsWay hlast hvw)

theorem IsWay.isChain (h : grid.IsWay extent starts way) : way.IsChain (grid.Reads extent) := by
  rw [List.isChain_iff_forall_rel_of_append_cons_cons]
  rintro p q before after rfl
  have hq := h.mem_nextCells (before ++ [p]) q ⟨after, by simp⟩
  simpa [nextCells, Reads] using hq

theorem ClosesLoop.onLoop (h : grid.ClosesLoop extent p) : grid.OnLoop extent p := by
  obtain ⟨before, a, after, hway, hback, hp⟩ := h
  exact transGen_of_isChain hway.isChain.right_of_append hback hp

theorem ClosesLoop.mem_formulas (h : grid.ClosesLoop extent p) : p ∈ grid.formulas :=
  h.onLoop.mem_formulas

end Grid

end Spreadsheet
