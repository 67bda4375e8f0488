import Mathlib.Logic.Relation
import Spreadsheet.Dependency
import Spreadsheet.Proofs.Mentions
import Spreadsheet.Proofs.SortedMaps

namespace Spreadsheet.DependencyGraph

variable {grid : Grid} {extent : Extent} {graph : DependencyGraph} {p q f : Position}

theorem mem_getD_addDependent
    {dependents : Std.ExtTreeMap Position (Std.ExtTreeSet Position)} {formula cell : Position} :
    f ∈ (addDependent dependents formula cell).getD p ∅ ↔
      (f = formula ∧ p = cell) ∨ f ∈ dependents.getD p ∅ := by
  unfold addDependent
  rw [Std.ExtTreeMap.getD_alter]
  by_cases hp : cell = p
  · subst hp
    simp only [Std.compare_self, if_true, Option.getD_some, Std.ExtTreeSet.mem_insert,
      Std.compare_eq_iff_eq, Std.ExtTreeMap.getD_eq_getD_getElem?, and_true, @eq_comm _ f]
  · simp [hp, Ne.symm hp]

theorem mem_getD_foldl_addDependent (formula : Position) (cells : List Position)
    (dependents : Std.ExtTreeMap Position (Std.ExtTreeSet Position)) :
    f ∈ (cells.foldl (fun dependents cell => addDependent dependents formula cell)
        dependents).getD p ∅ ↔
      (f = formula ∧ p ∈ cells) ∨ f ∈ dependents.getD p ∅ := by
  induction cells generalizing dependents with
  | nil => simp
  | cons cell cells ih =>
      rw [List.foldl_cons, ih, mem_getD_addDependent, List.mem_cons]
      constructor
      · rintro (⟨hf, hp⟩ | ⟨hf, hp⟩ | hf)
        · exact .inl ⟨hf, .inr hp⟩
        · exact .inl ⟨hf, .inl hp⟩
        · exact .inr hf
      · rintro (⟨hf, hp | hp⟩ | hf)
        · exact .inr (.inl ⟨hf, hp⟩)
        · exact .inl ⟨hf, hp⟩
        · exact .inr (.inr hf)

theorem mem_getD_reverse {precedents : Std.ExtTreeMap Position (Std.ExtTreeSet Position)} :
    f ∈ (reverse precedents).getD p ∅ ↔ ∃ cells, precedents[f]? = some cells ∧ p ∈ cells := by
  have hlist : ∀ (entries : List (Position × Std.ExtTreeSet Position))
      (dependents : Std.ExtTreeMap Position (Std.ExtTreeSet Position)),
      f ∈ (entries.foldl (fun dependents entry => entry.2.foldl (fun dependents cell =>
          addDependent dependents entry.1 cell) dependents) dependents).getD p ∅ ↔
        (∃ cells, (f, cells) ∈ entries ∧ p ∈ cells) ∨ f ∈ dependents.getD p ∅ := by
    intro entries
    induction entries with
    | nil => simp
    | cons entry entries ih =>
        intro dependents
        obtain ⟨formula, cells⟩ := entry
        rw [List.foldl_cons, ih, Std.ExtTreeSet.foldl_eq_foldl_toList,
          mem_getD_foldl_addDependent, Std.ExtTreeSet.mem_toList]
        constructor
        · rintro (⟨others, hmem, hp⟩ | ⟨rfl, hp⟩ | hf)
          · exact .inl ⟨others, List.mem_cons_of_mem _ hmem, hp⟩
          · exact .inl ⟨cells, List.mem_cons_self, hp⟩
          · exact .inr hf
        · rintro (⟨others, hmem, hp⟩ | hf)
          · rcases List.mem_cons.mp hmem with heq | hmem
            · obtain ⟨rfl, rfl⟩ := Prod.mk.inj heq
              exact .inr (.inl ⟨rfl, hp⟩)
            · exact .inl ⟨others, hmem, hp⟩
          · exact .inr (.inr hf)
  rw [reverse, Std.ExtTreeMap.foldl_eq_foldl_toList, hlist]
  simp only [Std.ExtTreeMap.mem_toList_iff_getElem?_eq_some]
  simp

theorem mem_directDependents_ofGrid :
    f ∈ (ofGrid grid extent).directDependents p ↔ p ∈ (ofGrid grid extent).precedentsAt f := by
  rw [directDependents, precedentsAt, ofGrid, mem_getD_reverse,
    Std.ExtTreeMap.getD_eq_getD_getElem?]
  cases (precedentsOf grid extent)[f]? with
  | none => simp
  | some cells => simp

theorem mem_precedents_of_mem_directDependents
    (h : f ∈ (ofGrid grid extent).directDependents p) : f ∈ (ofGrid grid extent).precedents := by
  rw [directDependents, ofGrid, mem_getD_reverse] at h
  obtain ⟨cells, hcells, -⟩ := h
  rw [Std.ExtTreeMap.mem_iff_isSome_getElem?]
  simp only [ofGrid, hcells, Option.isSome_some]

theorem mem_precedentsAt_ofGrid : q ∈ (ofGrid grid extent).precedentsAt p ↔
    ∃ body, grid.formulas[p]? = some body ∧ q ∈ (Mentions.ofText extent body).allCells := by
  rw [precedentsAt, ofGrid, precedentsOf, Std.ExtTreeMap.getD_eq_getD_getElem?,
    Std.ExtTreeMap.getElem?_filterMap', Grid.getElem?_formulas]
  cases hcell : grid[p]? with
  | none => simp
  | some cell => cases hformula : cell.formula? <;> simp [hformula]

theorem mem_formulas_of_mem_precedentsAt (h : q ∈ (ofGrid grid extent).precedentsAt p) :
    p ∈ grid.formulas := by
  obtain ⟨body, hbody, -⟩ := mem_precedentsAt_ofGrid.mp h
  exact SortedMap.mem_of_getElem?_eq_some hbody

theorem mem_precedentsAt_of_reads (h : grid.Reads extent p q) :
    q ∈ (ofGrid grid extent).precedentsAt p := by
  unfold Grid.Reads Grid.readsAt Grid.exprAt? at h
  cases hbody : grid.formulas[p]? with
  | none => simp [hbody] at h
  | some body =>
      cases hparse : parseFormula extent body with
      | error reason => simp [hbody, hparse, Except.toOption] at h
      | ok e =>
          simp only [hbody, hparse, Except.toOption, Option.bind_some, Option.map_some,
            Option.getD_some] at h
          exact mem_precedentsAt_ofGrid.mpr
            ⟨body, hbody, Mentions.mem_allCells_of_mem_reads hparse h⟩

/-- The second cell mentions the first one. -/
def HasDependent (graph : DependencyGraph) (p f : Position) : Prop := f ∈ graph.directDependents p

/-- How the parts of a search for dependents fit together. -/
structure Gathers (graph : DependencyGraph)
    (unseen : Std.ExtTreeMap Position (Std.ExtTreeSet Position)) (pending : List Position)
    (seen : Std.ExtTreeSet Position) : Prop where
  mem_of_dependent : ∀ p f, graph.HasDependent p f → f ∈ graph.precedents
  unseen_iff : ∀ p ∈ graph.precedents, p ∈ unseen ↔ p ∉ seen
  mem_of_pending : ∀ p ∈ pending, p ∈ graph.precedents
  closed : ∀ p ∈ seen, ∀ f, graph.HasDependent p f → f ∈ seen ∨ f ∈ pending

variable {unseen : Std.ExtTreeMap Position (Std.ExtTreeSet Position)}
  {pending next : List Position} {seen : Std.ExtTreeSet Position}

theorem gathers_start (grid : Grid) (extent : Extent)
    (hpending : ∀ f ∈ pending, (ofGrid grid extent).HasDependent p f) :
    Gathers (ofGrid grid extent) (ofGrid grid extent).precedents pending ∅ where
  mem_of_dependent := fun _ _ => mem_precedents_of_mem_directDependents
  unseen_iff := fun _ hp => iff_of_true hp Std.ExtTreeSet.not_mem_empty
  mem_of_pending := fun f hf => mem_precedents_of_mem_directDependents (hpending f hf)
  closed := fun _ hp => absurd hp Std.ExtTreeSet.not_mem_empty

theorem gathers_directDependents (grid : Grid) (extent : Extent) (p : Position) :
    let graph := ofGrid grid extent
    Gathers graph graph.precedents (graph.directDependents p).toList ∅ :=
  gathers_start grid extent fun _ hf => Std.ExtTreeSet.mem_toList.mp hf

theorem Gathers.pass (h : Gathers graph unseen (p :: pending) seen) (hp : p ∈ seen) :
    Gathers graph unseen pending seen where
  mem_of_dependent := h.mem_of_dependent
  unseen_iff := h.unseen_iff
  mem_of_pending := fun q hq => h.mem_of_pending q (List.mem_cons_of_mem p hq)
  closed := by
    intro q hq f hf
    rcases h.closed q hq f hf with hseen | hpending
    · exact .inl hseen
    · rcases List.mem_cons.mp hpending with rfl | hpending
      · exact .inl hp
      · exact .inr hpending

theorem Gathers.collect (h : Gathers graph unseen (p :: pending) seen)
    (hnext : ∀ f, f ∈ next ↔ graph.HasDependent p f) :
    Gathers graph (unseen.erase p) (next ++ pending) (seen.insert p) where
  mem_of_dependent := h.mem_of_dependent
  unseen_iff := by
    intro q hq
    rw [SortedSet.mem_insert_iff, SortedMap.mem_erase_iff, h.unseen_iff q hq, not_or]
  mem_of_pending := by
    intro q hq
    rcases List.mem_append.mp hq with hq | hq
    · exact h.mem_of_dependent p q ((hnext q).mp hq)
    · exact h.mem_of_pending q (List.mem_cons_of_mem p hq)
  closed := by
    intro q hq f hf
    rw [SortedSet.mem_insert_iff, List.mem_append]
    rcases (SortedSet.mem_insert_iff p q).mp hq with rfl | hq
    · exact .inr (.inl ((hnext f).mpr hf))
    · rcases h.closed q hq f hf with hseen | hpending
      · exact .inl (.inr hseen)
      · rcases List.mem_cons.mp hpending with rfl | hpending
        · exact .inl (.inl rfl)
        · exact .inr (.inr hpending)

/-- What is collected holds all cells seen and pending and is closed. -/
theorem Gathers.collect_closed (h : Gathers graph unseen pending seen) :
    (∀ p, p ∈ seen ∨ p ∈ pending → p ∈ graph.collect unseen pending seen) ∧
      ∀ p ∈ graph.collect unseen pending seen, ∀ f, graph.HasDependent p f →
        f ∈ graph.collect unseen pending seen := by
  fun_induction DependencyGraph.collect graph unseen pending seen with
  | case1 unseen seen =>
      refine ⟨by simp, fun p hp f hf => ?_⟩
      simpa using h.closed p hp f hf
  | case2 unseen seen p rest hp ih =>
      obtain ⟨hmem, hclosed⟩ := ih (h.collect fun _ => Std.ExtTreeSet.mem_toList)
      refine ⟨fun q hq => hmem q ?_, hclosed⟩
      rw [SortedSet.mem_insert_iff, List.mem_append]
      rcases hq with hq | hq
      · exact .inl (.inr hq)
      · rcases List.mem_cons.mp hq with rfl | hq
        · exact .inl (.inl rfl)
        · exact .inr (.inr hq)
  | case3 unseen seen p rest hp ih =>
      have hseen : p ∈ seen := by
        by_contra hseen
        exact hp ((h.unseen_iff p (h.mem_of_pending p List.mem_cons_self)).mpr hseen)
      obtain ⟨hmem, hclosed⟩ := ih (h.pass hseen)
      refine ⟨fun q hq => hmem q ?_, hclosed⟩
      rcases hq with hq | hq
      · exact .inl hq
      · rcases List.mem_cons.mp hq with rfl | hq
        · exact .inl hseen
        · exact .inr hq

theorem allDependents_closed (grid : Grid) (extent : Extent) (p : Position) :
    let graph := ofGrid grid extent
    (∀ f ∈ graph.directDependents p, f ∈ graph.allDependents p) ∧
      ∀ q ∈ graph.allDependents p, ∀ f ∈ graph.directDependents q, f ∈ graph.allDependents p := by
  intro graph
  obtain ⟨hmem, hclosed⟩ := (gathers_directDependents grid extent p).collect_closed
  exact ⟨fun f hf => hmem f (.inr (Std.ExtTreeSet.mem_toList.mpr hf)), hclosed⟩

theorem mem_allDependents_of_reads (h : grid.Reads extent f p) :
    f ∈ (ofGrid grid extent).allDependents p :=
  (allDependents_closed grid extent p).1 f
    (mem_directDependents_ofGrid.mpr (mem_precedentsAt_of_reads h))

theorem mem_allDependents_trans (h : grid.Reads extent f q)
    (hq : q ∈ (ofGrid grid extent).allDependents p) :
    f ∈ (ofGrid grid extent).allDependents p :=
  (allDependents_closed grid extent p).2 q hq f
    (mem_directDependents_ofGrid.mpr (mem_precedentsAt_of_reads h))

end Spreadsheet.DependencyGraph
