import Mathlib.Data.List.Chain
import Mathlib.Data.List.Nodup
import Mathlib.Logic.Relation
import Spreadsheet.Dependency
import Spreadsheet.Proofs.SortedMaps

/-!
The search for a loop. The cells on its way are precedents of each other, and a cell that is done
leads to no loop, since all of its precedents were done before it. So a path that is found runs into
a loop, and there is none to be reached if the search ends without a path.
-/

namespace Spreadsheet.DependencyGraph

variable {graph : DependencyGraph} {start p q : Position} {path : List Position}

/-- The formula in the first cell mentions the second cell. -/
def HasPrecedent (graph : DependencyGraph) (p q : Position) : Prop := q ∈ graph.precedentsAt p

/-- No way from a cell along precedents goes on forever. -/
def LoopFree (graph : DependencyGraph) (p : Position) : Prop :=
  Acc (fun q p => graph.HasPrecedent p q) p

/-- A way along precedents that visits no cell twice before it closes a loop at its end. -/
structure IsLoopPath (graph : DependencyGraph) (start : Position) (path : List Position) :
    Prop where
  head?_eq : path.head? = some start
  isChain : path.IsChain graph.HasPrecedent
  closes : ∃ lead a inner, path = lead ++ a :: (inner ++ [a]) ∧ (lead ++ a :: inner).Nodup

/-- The loop at the end of a way: from the first place of its last cell on. -/
def loopOf (path : List Position) : List Position :=
  path.dropWhile fun p => path.getLast? ≠ some p

theorem IsLoopPath.loopOf_eq (h : graph.IsLoopPath start path) :
    (∃ a inner, loopOf path = a :: (inner ++ [a])) ∧
      (loopOf path).IsChain graph.HasPrecedent := by
  refine ⟨?_, h.isChain.suffix (List.dropWhile_suffix _)⟩
  obtain ⟨lead, a, inner, rfl, hnodup⟩ := h.closes
  refine ⟨a, inner, ?_⟩
  have hlast : (lead ++ a :: (inner ++ [a])).getLast? = some a := by
    rw [← List.cons_append, ← List.append_assoc, List.getLast?_concat]
  have hlead : ∀ p ∈ lead, a ≠ p := by
    rintro p hp rfl
    exact (List.nodup_append.mp hnodup).2.2 a hp a List.mem_cons_self rfl
  rw [loopOf, hlast, List.dropWhile_append_of_pos (by simpa using hlead),
    List.dropWhile_cons_of_neg (by simp)]

theorem loopFree_of_not_mem (h : p ∉ graph.precedents) : graph.LoopFree p := by
  refine Acc.intro p fun q hq => ?_
  rw [HasPrecedent, precedentsAt, Std.ExtTreeMap.getD_eq_fallback h] at hq
  exact absurd hq Std.ExtTreeSet.not_mem_empty

theorem LoopFree.not_transGen (h : graph.LoopFree p)
    (hway : Relation.ReflTransGen graph.HasPrecedent p q) :
    ¬ Relation.TransGen graph.HasPrecedent q q := by
  induction h with
  | intro p _ ih =>
      intro hloop
      -- Either the way goes on from the first cell, or it has reached the loop and goes round it.
      have hnext : ∃ next, graph.HasPrecedent p next ∧
          Relation.ReflTransGen graph.HasPrecedent next q := by
        rcases Relation.ReflTransGen.cases_head hway with rfl | hnext
        · exact Relation.TransGen.head'_iff.mp hloop
        · exact hnext
      obtain ⟨next, hprecedent, hrest⟩ := hnext
      exact ih next hprecedent hrest hloop

/-- How the parts of a search fit together. The way lists its cells from the latest to the start. -/
structure Searching (graph : DependencyGraph) (start : Position)
    (unseen : Std.ExtTreeMap Position (Std.ExtTreeSet Position))
    (marks : Std.ExtTreeMap Position Mark) (way : List Visit) : Prop where
  getElem?_unseen : ∀ p ∈ unseen, unseen[p]? = graph.precedents[p]?
  unseen_or_marked : ∀ p ∈ graph.precedents, p ∈ unseen ∨ p ∈ marks
  not_mem_marks : ∀ p ∈ unseen, p ∉ marks
  onWay_iff : ∀ p : Position, marks[p]? = some .onWay ↔ p ∈ way.map Visit.cell
  start_mem : start ∈ marks
  getLast?_eq : way ≠ [] → (way.map Visit.cell).getLast? = some start
  nodup : (way.map Visit.cell).Nodup
  chain : (way.map Visit.cell).IsChain fun p q => graph.HasPrecedent q p
  pending : ∀ visit ∈ way, ∀ q ∈ visit.pending, graph.HasPrecedent visit.cell q
  /-- A precedent that is not pending any more leads to no loop, or the search stands above it. -/
  passed : ∀ above visit below, way = above ++ visit :: below →
    ∀ q, graph.HasPrecedent visit.cell q →
      q ∈ visit.pending ∨ graph.LoopFree q ∨ q ∈ above.map Visit.cell
  done : ∀ p : Position, marks[p]? = some .done → graph.LoopFree p

variable {unseen : Std.ExtTreeMap Position (Std.ExtTreeSet Position)}
  {marks : Std.ExtTreeMap Position Mark} {way below : List Visit} {cell : Position}
  {pending : List Position}

theorem mem_toList_precedents {cells : Std.ExtTreeSet Position}
    (h : graph.precedents[p]? = some cells) : q ∈ cells.toList ↔ graph.HasPrecedent p q := by
  rw [HasPrecedent, precedentsAt, Std.ExtTreeMap.getD_eq_getD_getElem?, h, Option.getD_some,
    Std.ExtTreeSet.mem_toList]

theorem mem_marks_iff (p : Position) :
    p ∈ marks ↔ marks[p]? = some .onWay ∨ marks[p]? = some .done := by
  rw [Std.ExtTreeMap.mem_iff_isSome_getElem?]
  cases marks[p]? with
  | none => simp
  | some mark => cases mark <;> simp

theorem searching_start (graph : DependencyGraph) (start : Position) :
    Searching graph start (graph.precedents.erase start)
      (Std.ExtTreeMap.ofList [(start, Mark.onWay)])
      [⟨start, (graph.precedentsAt start).toList⟩] := by
  rw [Std.ExtTreeMap.ofList_singleton]
  have hmem : ∀ p : Position,
      p ∈ (∅ : Std.ExtTreeMap Position Mark).insert start .onWay ↔ p = start := by
    intro p
    simp [Std.ExtTreeMap.mem_insert, @eq_comm _ p]
  exact
    { getElem?_unseen := by
        intro p hp
        rw [Std.ExtTreeMap.getElem?_erase, if_neg]
        simpa using ((SortedMap.mem_erase_iff start p).mp hp).1.symm
      unseen_or_marked := by
        intro p hp
        rw [SortedMap.mem_erase_iff, hmem]
        by_cases hstart : p = start
        · exact .inr hstart
        · exact .inl ⟨hstart, hp⟩
      not_mem_marks := fun p hp => by
        rw [hmem]
        exact ((SortedMap.mem_erase_iff start p).mp hp).1
      onWay_iff := fun p => by
        rw [SortedMap.getElem?_insert]
        simp
      start_mem := (hmem start).mpr rfl
      getLast?_eq := fun _ => rfl
      nodup := by simp
      chain := List.isChain_singleton _
      pending := by
        intro visit hvisit q hq
        rw [List.mem_singleton.mp hvisit] at hq
        rw [List.mem_singleton.mp hvisit]
        exact Std.ExtTreeSet.mem_toList.mp hq
      passed := by
        intro above visit below hway q hq
        cases above with
        | nil =>
            obtain ⟨rfl, -⟩ := List.cons.inj hway
            exact .inl (Std.ExtTreeSet.mem_toList.mpr hq)
        | cons top above => simp at hway
      done := fun p hp => by
        rw [SortedMap.getElem?_insert] at hp
        simp at hp }

theorem Searching.loopFree (h : Searching graph start unseen marks way)
    (hunseen : p ∉ unseen) (hway : marks[p]? ≠ some .onWay) : graph.LoopFree p := by
  by_cases hp : p ∈ graph.precedents
  · have hmarked := (h.unseen_or_marked p hp).resolve_left hunseen
    exact h.done p (((mem_marks_iff p).mp hmarked).resolve_left hway)
  · exact loopFree_of_not_mem hp

theorem Searching.pass
    (h : Searching graph start unseen marks (⟨cell, p :: pending⟩ :: below))
    (hp : graph.LoopFree p) :
    Searching graph start unseen marks (⟨cell, pending⟩ :: below) :=
  { h with
    getLast?_eq := fun _ => h.getLast?_eq (List.cons_ne_nil _ _)
    pending := by
      intro visit hvisit q hq
      rcases List.mem_cons.mp hvisit with rfl | hvisit
      · exact h.pending _ List.mem_cons_self q (List.mem_cons_of_mem p hq)
      · exact h.pending visit (List.mem_cons_of_mem _ hvisit) q hq
    passed := by
      intro above visit lower hway q hq
      cases above with
      | nil =>
          obtain ⟨rfl, rfl⟩ := List.cons.inj hway
          rcases h.passed [] ⟨cell, p :: pending⟩ below rfl q hq with hpending | hfree | habove
          · rcases List.mem_cons.mp hpending with rfl | hpending
            · exact .inr (.inl hp)
            · exact .inl hpending
          · exact .inr (.inl hfree)
          · exact .inr (.inr habove)
      | cons top above =>
          obtain ⟨rfl, rfl⟩ := List.cons.inj hway
          exact h.passed (⟨cell, p :: pending⟩ :: above) visit lower rfl q hq }

theorem Searching.enter {cells : Std.ExtTreeSet Position}
    (h : Searching graph start unseen marks (⟨cell, p :: pending⟩ :: below))
    (hcells : unseen[p]? = some cells) :
    Searching graph start (unseen.erase p) (marks.insert p .onWay)
      (⟨p, cells.toList⟩ :: ⟨cell, pending⟩ :: below) := by
  have hp : p ∈ unseen := SortedMap.mem_of_getElem?_eq_some hcells
  have hentry : graph.precedents[p]? = some cells := h.getElem?_unseen p hp ▸ hcells
  have hnot : p ∉ marks := h.not_mem_marks p hp
  have hoff : p ∉ (⟨cell, pending⟩ :: below).map Visit.cell := by
    intro hmem
    exact hnot ((mem_marks_iff p).mpr (.inl ((h.onWay_iff p).mpr hmem)))
  have hreads : graph.HasPrecedent cell p :=
    h.pending _ List.mem_cons_self p List.mem_cons_self
  exact
    { getElem?_unseen := by
        intro q hq
        obtain ⟨hne, hq⟩ := (SortedMap.mem_erase_iff p q).mp hq
        rw [Std.ExtTreeMap.getElem?_erase, if_neg (by simpa using hne.symm)]
        exact h.getElem?_unseen q hq
      unseen_or_marked := by
        intro q hq
        rw [SortedMap.mem_erase_iff, SortedMap.mem_insert_iff]
        by_cases hqp : q = p
        · exact .inr (.inl hqp)
        · exact (h.unseen_or_marked q hq).imp (⟨hqp, ·⟩) .inr
      not_mem_marks := by
        intro q hq
        obtain ⟨hne, hq⟩ := (SortedMap.mem_erase_iff p q).mp hq
        rw [SortedMap.mem_insert_iff]
        exact not_or.mpr ⟨hne, h.not_mem_marks q hq⟩
      onWay_iff := by
        intro q
        rw [SortedMap.getElem?_insert, List.map_cons, List.mem_cons]
        by_cases hqp : q = p
        · simp [hqp]
        · rw [if_neg hqp, h.onWay_iff]
          simp [hqp]
      start_mem := (SortedMap.mem_insert_iff p start .onWay).mpr (.inr h.start_mem)
      getLast?_eq := fun _ => by
        have hlast := h.getLast?_eq (List.cons_ne_nil _ _)
        simpa using hlast
      nodup := List.nodup_cons.mpr ⟨hoff, h.nodup⟩
      chain := List.isChain_cons_cons.mpr ⟨hreads, h.chain⟩
      pending := by
        intro visit hvisit q hq
        rcases List.mem_cons.mp hvisit with rfl | hvisit
        · exact (mem_toList_precedents hentry).mp hq
        · rcases List.mem_cons.mp hvisit with rfl | hvisit
          · exact h.pending _ List.mem_cons_self q (List.mem_cons_of_mem p hq)
          · exact h.pending visit (List.mem_cons_of_mem _ hvisit) q hq
      passed := by
        intro above visit lower hway q hq
        cases above with
        | nil =>
            obtain ⟨rfl, -⟩ := List.cons.inj hway
            exact .inl ((mem_toList_precedents hentry).mpr hq)
        | cons top above =>
            obtain ⟨rfl, hrest⟩ := List.cons.inj hway
            cases above with
            | nil =>
                obtain ⟨rfl, -⟩ := List.cons.inj hrest
                rcases h.passed [] ⟨cell, p :: pending⟩ below rfl q hq with
                  hpending | hfree | habove
                · rcases List.mem_cons.mp hpending with rfl | hpending
                  · exact .inr (.inr List.mem_cons_self)
                  · exact .inl hpending
                · exact .inr (.inl hfree)
                · cases habove
            | cons second above =>
                obtain ⟨rfl, rfl⟩ := List.cons.inj hrest
                rcases h.passed (⟨cell, p :: pending⟩ :: above) visit lower rfl q hq with
                  hpending | hfree | habove
                · exact .inl hpending
                · exact .inr (.inl hfree)
                · exact .inr (.inr (List.mem_cons_of_mem _ habove))
      done := by
        intro q hq
        rw [SortedMap.getElem?_insert] at hq
        split at hq
        · cases hq
        · exact h.done q hq }

theorem Searching.leave (h : Searching graph start unseen marks (⟨cell, []⟩ :: below)) :
    Searching graph start unseen (marks.insert cell .done) below := by
  have hfree : graph.LoopFree cell := by
    refine Acc.intro cell fun q hq => ?_
    rcases h.passed [] ⟨cell, []⟩ below rfl q hq with hpending | hfree | habove
    · cases hpending
    · exact hfree
    · cases habove
  have hcell : cell ∈ marks := by
    rw [mem_marks_iff, h.onWay_iff]
    exact .inl List.mem_cons_self
  obtain ⟨hoff, hnodup⟩ := List.nodup_cons.mp h.nodup
  have hinsert : ∀ q : Position, q ∈ marks.insert cell .done ↔ q ∈ marks := by
    intro q
    rw [SortedMap.mem_insert_iff, or_iff_right_iff_imp]
    rintro rfl
    exact hcell
  exact
    { getElem?_unseen := h.getElem?_unseen
      unseen_or_marked := fun q hq => by
        rw [hinsert]
        exact h.unseen_or_marked q hq
      not_mem_marks := fun q hq => by
        rw [hinsert]
        exact h.not_mem_marks q hq
      onWay_iff := by
        intro q
        rw [SortedMap.getElem?_insert]
        split
        · rename_i hq
          subst hq
          simpa using hoff
        · rename_i hq
          rw [h.onWay_iff]
          simp [hq]
      start_mem := (hinsert start).mpr h.start_mem
      getLast?_eq := by
        intro hne
        have hlast := h.getLast?_eq (List.cons_ne_nil _ _)
        rwa [List.map_cons, List.getLast?_cons_of_ne_nil (by simpa using hne)] at hlast
      nodup := hnodup
      chain := h.chain.tail
      pending := fun visit hvisit => h.pending visit (List.mem_cons_of_mem _ hvisit)
      passed := by
        intro above visit lower hway q hq
        rcases h.passed (⟨cell, []⟩ :: above) visit lower (by rw [hway, List.cons_append]) q hq with
          hpending | hfree | habove
        · exact .inl hpending
        · exact .inr (.inl hfree)
        · rcases List.mem_cons.mp habove with rfl | habove
          · exact .inr (.inl hfree)
          · exact .inr (.inr habove)
      done := by
        intro q hq
        rw [SortedMap.getElem?_insert] at hq
        split at hq
        · rename_i hcell
          exact hcell ▸ hfree
        · exact h.done q hq }

theorem Searching.isLoopPath
    (h : Searching graph start unseen marks (⟨cell, p :: pending⟩ :: below))
    (hp : marks[p]? = some .onWay) :
    graph.IsLoopPath start (((⟨cell, p :: pending⟩ :: below).map Visit.cell).reverse ++ [p]) := by
  have hreads : graph.HasPrecedent cell p :=
    h.pending _ List.mem_cons_self p List.mem_cons_self
  refine ⟨?_, ?_, ?_⟩
  · rw [List.head?_append, List.head?_reverse, h.getLast?_eq (List.cons_ne_nil _ _)]
    rfl
  · rw [List.isChain_append]
    refine ⟨List.isChain_reverse.mpr h.chain, List.isChain_singleton p, ?_⟩
    simpa using hreads
  · obtain ⟨above, lower, hsplit⟩ := List.append_of_mem ((h.onWay_iff p).mp hp)
    refine ⟨lower.reverse, p, above.reverse, ?_, ?_⟩
    · rw [hsplit]
      simp
    · have hnodup := h.nodup
      rw [hsplit, ← List.nodup_reverse] at hnodup
      simpa using hnodup

/-- A search that returns a path has found a loop, and one that returns none has seen that its start
leads to no loop. -/
theorem Searching.search_cases (h : Searching graph start unseen marks way) :
    (∃ path, graph.search unseen marks way = some path ∧ graph.IsLoopPath start path) ∨
      graph.search unseen marks way = none ∧ graph.LoopFree start := by
  fun_induction search graph unseen marks way with
  | case1 unseen marks =>
      refine .inr ⟨rfl, h.done start (((mem_marks_iff start).mp h.start_mem).resolve_left ?_)⟩
      rw [h.onWay_iff]
      exact List.not_mem_nil
  | case2 unseen marks cell below ih => exact ih h.leave
  | case3 unseen marks cell p pending below hp => exact .inl ⟨_, rfl, h.isLoopPath hp⟩
  | case4 unseen marks cell p pending below hp hunseen ih =>
      exact ih (h.enter (Std.ExtTreeMap.getElem?_eq_some_getElem hunseen))
  | case5 unseen marks cell p pending below hp hunseen ih =>
      exact ih (h.pass (h.loopFree hunseen hp))

theorem loopFrom_cases (graph : DependencyGraph) (p : Position) :
    (∃ path, graph.loopFrom p = some path ∧ graph.IsLoopPath p path) ∨
      graph.loopFrom p = none ∧ graph.LoopFree p :=
  (searching_start graph p).search_cases

theorem isLoopPath_of_loopFrom (h : graph.loopFrom p = some path) : graph.IsLoopPath p path := by
  rcases loopFrom_cases graph p with ⟨other, hother, hpath⟩ | ⟨hnone, -⟩
  · obtain rfl := Option.some.inj (hother.symm.trans h)
    exact hpath
  · rw [hnone] at h
    cases h

theorem exists_loopFrom (hway : Relation.ReflTransGen graph.HasPrecedent p q)
    (hloop : Relation.TransGen graph.HasPrecedent q q) :
    ∃ path, graph.loopFrom p = some path ∧ graph.IsLoopPath p path := by
  rcases loopFrom_cases graph p with hpath | ⟨-, hfree⟩
  · exact hpath
  · exact absurd hloop (hfree.not_transGen hway)

end Spreadsheet.DependencyGraph
