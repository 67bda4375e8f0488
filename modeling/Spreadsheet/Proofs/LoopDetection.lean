import Spreadsheet.Dependency.Procedure
import Spreadsheet.Proofs.Dependents
import Spreadsheet.Proofs.LoopSearch

namespace Spreadsheet.DependencyGraph

variable {graph : DependencyGraph} {start p : Position} {path : List Position}
  {unseen : Std.ExtTreeMap Position (Std.ExtTreeSet Position)}
  {marks : Std.ExtTreeMap Position Mark} {way : List Visit}
  {visiting finished : Std.ExtTreeSet Position}

/-- The cells that are being visited and those that are finished, against the marks of a search. A
cell without a formula is visited and finished in between, and gets no mark. -/
structure Mirrors (graph : DependencyGraph)
    (unseen : Std.ExtTreeMap Position (Std.ExtTreeSet Position))
    (marks : Std.ExtTreeMap Position Mark) (visiting finished : Std.ExtTreeSet Position) :
    Prop where
  visiting_iff : ∀ p : Position, p ∈ visiting ↔ marks[p]? = some .onWay
  of_finished : ∀ p ∈ finished, p ∉ unseen ∧ marks[p]? ≠ some .onWay
  reached : ∀ p ∈ graph.precedents, p ∈ unseen ∨ p ∈ visiting ∨ p ∈ finished

theorem mirrors_start (graph : DependencyGraph) (start : Position) :
    Mirrors graph (graph.precedents.erase start)
      (Std.ExtTreeMap.ofList [(start, Mark.onWay)])
      ((∅ : Std.ExtTreeSet Position).insert start) ∅ where
  visiting_iff := by
    intro p
    rw [Std.ExtTreeMap.ofList_singleton, SortedMap.getElem?_insert, SortedSet.mem_insert_iff]
    simp
  of_finished := fun p hp => absurd hp Std.ExtTreeSet.not_mem_empty
  reached := by
    intro p hp
    rw [SortedMap.mem_erase_iff, SortedSet.mem_insert_iff]
    by_cases hstart : p = start
    · exact .inr (.inl (.inl hstart))
    · exact .inl ⟨hstart, hp⟩

theorem Mirrors.leave {cell : Position} (h : Mirrors graph unseen marks visiting finished)
    (hcell : cell ∉ unseen) :
    Mirrors graph unseen (marks.insert cell .done) (visiting.erase cell)
      (finished.insert cell) where
  visiting_iff := by
    intro p
    rw [SortedSet.mem_erase_iff, h.visiting_iff, SortedMap.getElem?_insert]
    by_cases hp : p = cell <;> simp [hp]
  of_finished := by
    intro p hp
    rw [SortedMap.getElem?_insert]
    by_cases hpcell : p = cell
    · simpa [hpcell] using hcell
    · rw [if_neg hpcell]
      exact h.of_finished p (((SortedSet.mem_insert_iff cell p).mp hp).resolve_left hpcell)
  reached := by
    intro p hp
    rw [SortedSet.mem_erase_iff, SortedSet.mem_insert_iff]
    by_cases hpcell : p = cell
    · exact .inr (.inr (.inl hpcell))
    · exact (h.reached p hp).imp_right (.imp (⟨hpcell, ·⟩) .inr)

theorem Mirrors.enter (h : Mirrors graph unseen marks visiting finished) (hp : p ∉ finished) :
    Mirrors graph (unseen.erase p) (marks.insert p .onWay) (visiting.insert p) finished where
  visiting_iff := by
    intro q
    rw [SortedSet.mem_insert_iff, h.visiting_iff, SortedMap.getElem?_insert]
    by_cases hq : q = p <;> simp [hq]
  of_finished := by
    intro q hq
    have hqp : q ≠ p := by
      rintro rfl
      exact hp hq
    rw [SortedMap.mem_erase_iff, SortedMap.getElem?_insert, if_neg hqp]
    exact ⟨fun h' => (h.of_finished q hq).1 h'.2, (h.of_finished q hq).2⟩
  reached := by
    intro q hq
    rw [SortedMap.mem_erase_iff, SortedSet.mem_insert_iff]
    by_cases hqp : q = p
    · exact .inr (.inl (.inl hqp))
    · exact (h.reached q hq).imp (⟨hqp, ·⟩) (.imp_left .inr)

theorem Mirrors.pass (h : Mirrors graph unseen marks visiting finished) (hp : p ∉ unseen)
    (hmark : marks[p]? ≠ some .onWay) :
    Mirrors graph unseen marks ((visiting.insert p).erase p) (finished.insert p) where
  visiting_iff := by
    intro q
    rw [SortedSet.mem_erase_iff, SortedSet.mem_insert_iff, h.visiting_iff]
    constructor
    · rintro ⟨hqp, hq⟩
      exact hq.resolve_left hqp
    · intro hq
      refine ⟨?_, .inr hq⟩
      rintro rfl
      exact hmark hq
  of_finished := by
    intro q hq
    rcases (SortedSet.mem_insert_iff p q).mp hq with rfl | hq
    · exact ⟨hp, hmark⟩
    · exact h.of_finished q hq
  reached := by
    intro q hq
    rw [SortedSet.mem_erase_iff, SortedSet.mem_insert_iff, SortedSet.mem_insert_iff]
    by_cases hqp : q = p
    · exact .inr (.inr (.inl hqp))
    · exact (h.reached q hq).imp_right (.imp (fun h' => ⟨hqp, .inr h'⟩) .inr)

theorem Mirrors.yields (h : Mirrors graph unseen marks visiting finished)
    (hsearch : Searching graph start unseen marks way) :
    Yields graph.exploreNext ⟨visiting, finished, way⟩ (graph.search unseen marks way) := by
  fun_induction search graph unseen marks way generalizing visiting finished with
  | case1 unseen marks => exact .now rfl
  | case2 unseen marks cell below ih =>
      refine .later rfl (ih (h.leave fun hcell => ?_) hsearch.leave)
      exact hsearch.not_mem_marks cell hcell ((mem_marks_iff cell).mpr
        (.inl ((hsearch.onWay_iff cell).mpr List.mem_cons_self)))
  | case3 unseen marks cell p pending below hp =>
      refine .now ?_
      rw [exploreNext]
      simp [(h.visiting_iff p).mpr hp]
  | case4 unseen marks cell p pending below hp hunseen ih =>
      have hvisiting : p ∉ visiting := fun hmem => hp ((h.visiting_iff p).mp hmem)
      have hfinished : p ∉ finished := fun hmem => (h.of_finished p hmem).1 hunseen
      have hcells := Std.ExtTreeMap.getElem?_eq_some_getElem hunseen
      have hprecedents : graph.precedentsAt p = unseen[p] := by
        rw [precedentsAt, Std.ExtTreeMap.getD_eq_getD_getElem?,
          ← hsearch.getElem?_unseen p hunseen, hcells, Option.getD_some]
      refine .later ?_ (ih (h.enter hfinished) (hsearch.enter hcells))
      rw [exploreNext]
      simp [hvisiting, hfinished, hprecedents]
  | case5 unseen marks cell p pending below hp hunseen ih =>
      have hvisiting : p ∉ visiting := fun hmem => hp ((h.visiting_iff p).mp hmem)
      have hnext := hsearch.pass (hsearch.loopFree hunseen hp)
      by_cases hfinished : p ∈ finished
      · refine .later ?_ (ih h hnext)
        rw [exploreNext]
        simp [hvisiting, hfinished]
      · have hformula : p ∉ graph.precedents := by
          intro hmem
          rcases h.reached p hmem with hmem | hmem | hmem
          · exact hunseen hmem
          · exact hvisiting hmem
          · exact hfinished hmem
        have hprecedents : (graph.precedentsAt p).toList = [] := by
          rw [precedentsAt, Std.ExtTreeMap.getD_eq_fallback hformula]
          rfl
        have hvisited : graph.exploreNext ⟨visiting, finished, ⟨cell, p :: pending⟩ :: below⟩ =
            .inl ⟨visiting.insert p, finished, ⟨p, []⟩ :: ⟨cell, pending⟩ :: below⟩ := by
          rw [exploreNext]
          simp [hvisiting, hfinished, hprecedents]
        -- The steps visit such a cell and leave it at once, where the search takes no notice of it.
        exact .later hvisited (.later rfl (ih (h.pass hunseen hp) hnext))

theorem IsLoopPath.nodup_dropLast (h : graph.IsLoopPath start path) : path.dropLast.Nodup := by
  obtain ⟨lead, a, inner, rfl, hnodup⟩ := h.closes
  rwa [← List.cons_append, ← List.append_assoc, List.dropLast_concat]

theorem IsLoopPath.exists_mem_dropLast (h : graph.IsLoopPath start path) :
    ∃ last ∈ path.dropLast, path.getLast? = some last := by
  obtain ⟨lead, a, inner, rfl, -⟩ := h.closes
  rw [← List.cons_append, ← List.append_assoc, List.dropLast_concat, List.getLast?_concat]
  exact ⟨a, by simp, rfl⟩

theorem IsLoopPath.exists_loop (h : graph.IsLoopPath start path) :
    ∃ p, Relation.ReflTransGen graph.HasPrecedent start p ∧
      Relation.TransGen graph.HasPrecedent p p := by
  obtain ⟨lead, a, inner, rfl, -⟩ := h.closes
  refine ⟨a, ?_, ?_⟩
  · refine h.isChain.induction (Relation.ReflTransGen graph.HasPrecedent start ·) _
      (fun _ _ hprecedent hway => hway.tail hprecedent) (fun hne => ?_) a (by simp)
    have hhead := h.head?_eq
    rw [List.head?_eq_some_head hne] at hhead
    rw [Option.some.inj hhead]
  · have hloop := h.isChain.right_of_append
    rw [← List.cons_append, List.isChain_append] at hloop
    refine transGen_of_isChain hloop.1 ?_ List.mem_cons_self
    exact hloop.2.2 _ (List.getLast?_eq_some_getLast _) a rfl

/-- The search comes to an end. It finds no way exactly if no loop of precedents can be reached, and
a way that it finds goes from the start along precedents to a cell that has come before, without
coming twice to any other one. -/
theorem loopFrom_eq_none_iff (graph : DependencyGraph) (start : Position) :
    Yields graph.exploreNext (graph.exploring start) (graph.loopFrom start) ∧
      (graph.loopFrom start = none ↔
        ¬ ∃ p, Relation.ReflTransGen graph.HasPrecedent start p ∧
          Relation.TransGen graph.HasPrecedent p p) ∧
      ∀ path, graph.loopFrom start = some path →
        path.head? = some start ∧ path.IsChain graph.HasPrecedent ∧ path.dropLast.Nodup ∧
          ∃ last ∈ path.dropLast, path.getLast? = some last := by
  refine ⟨(mirrors_start graph start).yields (searching_start graph start), ⟨?_, ?_⟩, ?_⟩
  · rintro hnone ⟨p, hway, hloop⟩
    obtain ⟨path, hpath, -⟩ := exists_loopFrom hway hloop
    rw [hnone] at hpath
    cases hpath
  · intro hloop
    rcases loopFrom_cases graph start with ⟨path, -, hpath⟩ | ⟨hnone, -⟩
    · exact absurd hpath.exists_loop hloop
    · exact hnone
  · intro path hpath
    have h := isLoopPath_of_loopFrom hpath
    exact ⟨h.head?_eq, h.isChain, h.nodup_dropLast, h.exists_mem_dropLast⟩

end Spreadsheet.DependencyGraph
