import Mathlib.Data.List.Perm.Basic
import Spreadsheet.Dependency.Procedure
import Spreadsheet.Proofs.Dependents
import Spreadsheet.Proofs.LoopSearch

namespace Spreadsheet.DependencyGraph

variable {grid : Grid} {extent : Extent} {graph : DependencyGraph} {p q r f : Position}
  {unseen : Std.ExtTreeMap Position (Std.ExtTreeSet Position)} {pending : List Position}
  {seen : Std.ExtTreeSet Position} {entries : List (Position × Cell)}

/-- The formulas among some cells with the cells that each mentions. -/
def mentioned (extent : Extent) (entries : List (Position × Cell)) :
    List (Position × Std.ExtTreeSet Position) :=
  entries.filterMap fun entry =>
    entry.2.formula?.map fun body => (entry.1, (Mentions.ofText extent body).allCells)

/-- The pairs of a formula and a cell that it mentions. -/
def mentionPairs (mentioned : List (Position × Std.ExtTreeSet Position)) :
    List (Position × Position) :=
  mentioned.flatMap fun entry => entry.2.toList.map (Prod.mk entry.1)

def addPair (dependents : Std.ExtTreeMap Position (Std.ExtTreeSet Position))
    (pair : Position × Position) : Std.ExtTreeMap Position (Std.ExtTreeSet Position) :=
  addDependent dependents pair.1 pair.2

instance : RightCommutative addPair where
  right_comm dependents pair other := by
    obtain ⟨f, p⟩ := pair
    obtain ⟨g, q⟩ := other
    apply Std.ExtTreeMap.ext_getElem?
    intro r
    simp only [addPair, addDependent, Std.ExtTreeMap.getElem?_alter, Std.compare_eq_iff_eq]
    by_cases hp : p = r <;> by_cases hq : q = r <;> simp [hp, hq, SortedSet.insert_right_comm _ f g]

theorem foldl_addPair (mentioned : List (Position × Std.ExtTreeSet Position))
    (dependents : Std.ExtTreeMap Position (Std.ExtTreeSet Position)) :
    mentioned.foldl (fun dependents entry => entry.2.foldl (fun dependents cell =>
      addDependent dependents entry.1 cell) dependents) dependents =
        (mentionPairs mentioned).foldl addPair dependents := by
  simp only [mentionPairs, List.foldl_flatMap, List.foldl_map, addPair,
    Std.ExtTreeSet.foldl_eq_foldl_toList]

theorem foldl_add (entries : List (Position × Cell)) (graph : DependencyGraph) :
    entries.foldl (add extent) graph =
      ⟨graph.precedents.insertMany (mentioned extent entries),
        (mentionPairs (mentioned extent entries)).foldl addPair graph.dependents⟩ := by
  rw [← foldl_addPair]
  induction entries generalizing graph with
  | nil => rfl
  | cons entry entries ih =>
      rw [List.foldl_cons, ih]
      cases hformula : entry.2.formula? with
      | none => simp [add, mentioned, hformula]
      | some body => simp [add, mentioned, hformula, Std.ExtTreeMap.insertMany_cons]

theorem toList_precedentsOf :
    (precedentsOf grid extent).toList = mentioned extent grid.toList := by
  rw [precedentsOf, Std.ExtTreeMap.toList_filterMap]
  refine List.filterMap_congr fun entry _ => ?_
  rw [Option.map_map]
  rfl

theorem ofListed_eq (h : entries.Perm grid.toList) :
    ofListed extent entries = ofGrid grid extent := by
  have hmentioned : (mentioned extent entries).Perm (precedentsOf grid extent).toList := by
    rw [toList_precedentsOf]
    exact h.filterMap _
  have hpairs : (mentionPairs (mentioned extent entries)).Perm
      (mentionPairs (precedentsOf grid extent).toList) :=
    hmentioned.flatMap_right _
  rw [ofListed, foldl_add, hpairs.foldl_eq, ← foldl_addPair,
    ← Std.ExtTreeMap.ofList_eq_insertMany_empty, SortedMap.ofList_of_perm hmentioned, ofGrid, reverse,
    Std.ExtTreeMap.foldl_eq_foldl_toList]

theorem exists_of_mem_collect (h : q ∈ graph.collect unseen pending seen) :
    q ∈ seen ∨ ∃ p ∈ pending, Relation.ReflTransGen graph.HasDependent p q := by
  fun_induction DependencyGraph.collect graph unseen pending seen with
  | case1 unseen seen => exact .inl h
  | case2 unseen seen p rest hp ih =>
      rcases ih h with hseen | ⟨r, hr, hway⟩
      · rcases (SortedSet.mem_insert_iff p q).mp hseen with rfl | hseen
        · exact .inr ⟨q, List.mem_cons_self, .refl⟩
        · exact .inl hseen
      · rcases List.mem_append.mp hr with hr | hr
        · exact .inr ⟨p, List.mem_cons_self, hway.head (Std.ExtTreeSet.mem_toList.mp hr)⟩
        · exact .inr ⟨r, List.mem_cons_of_mem p hr, hway⟩
  | case3 unseen seen p rest hp ih =>
      rcases ih h with hseen | ⟨r, hr, hway⟩
      · exact .inl hseen
      · exact .inr ⟨r, List.mem_cons_of_mem p hr, hway⟩

theorem Gathers.mem_collect_iff (h : Gathers graph unseen pending seen) :
    q ∈ graph.collect unseen pending seen ↔
      q ∈ seen ∨ ∃ p ∈ pending, Relation.ReflTransGen graph.HasDependent p q := by
  refine ⟨exists_of_mem_collect, ?_⟩
  obtain ⟨hmem, hclosed⟩ := h.collect_closed
  rintro (hseen | ⟨p, hp, hway⟩)
  · exact hmem q (.inl hseen)
  · induction hway with
    | refl => exact hmem p (.inr hp)
    | tail _ hdependent ih => exact hclosed _ ih _ hdependent

theorem Gathers.collect_congr {others : List Position} (h : Gathers graph unseen pending seen)
    (hothers : Gathers graph unseen others seen) (hsame : ∀ p, p ∈ pending ↔ p ∈ others) :
    graph.collect unseen pending seen = graph.collect unseen others seen := by
  apply Std.ExtTreeSet.ext_mem
  intro q
  rw [h.mem_collect_iff, hothers.mem_collect_iff]
  simp only [hsame]

/-- The steps of the search come to an end with what is collected, whatever the order in which
dependents become pending. -/
theorem Gathers.yields {unseen : Std.ExtTreeMap Position (Std.ExtTreeSet Position)}
    {pending : List Position} {seen : Std.ExtTreeSet Position}
    (h : Gathers graph unseen pending seen) :
    Yields graph.collectNext ⟨seen, pending⟩ (graph.collect unseen pending seen) := by
  -- The recursion follows the pending cells of the steps, which `collect` lists in another order.
  match pending with
  | [] =>
      rw [DependencyGraph.collect]
      exact .now rfl
  | p :: rest =>
      have hunseen := h.unseen_iff p (h.mem_of_pending p List.mem_cons_self)
      by_cases hseen : p ∈ seen
      · have hnext := h.pass hseen
        have hcollect : graph.collect unseen (p :: rest) seen = graph.collect unseen rest seen := by
          rw [DependencyGraph.collect, dif_neg (hunseen.not.mpr (not_not_intro hseen))]
        rw [hcollect]
        refine .later ?_ hnext.yields
        rw [collectNext]
        simp [hseen]
      · have hmem : p ∈ unseen := hunseen.mpr hseen
        have hnext : Gathers graph (unseen.erase p)
            ((graph.directDependents p).toList.reverse ++ rest) (seen.insert p) :=
          h.collect fun _ => List.mem_reverse.trans Std.ExtTreeSet.mem_toList
        have hcollect : graph.collect unseen (p :: rest) seen =
            graph.collect (unseen.erase p)
              ((graph.directDependents p).toList.reverse ++ rest) (seen.insert p) := by
          rw [DependencyGraph.collect, dif_pos hmem]
          exact (h.collect fun _ => Std.ExtTreeSet.mem_toList).collect_congr hnext (by simp)
        rw [hcollect]
        refine .later ?_ hnext.yields
        rw [collectNext]
        simp [hseen]
termination_by (unseen.size, pending.length)
decreasing_by
  · exact Prod.Lex.right _ (by simp)
  · exact Prod.Lex.left _ _ (Position.size_erase_lt hmem)

theorem hasDependent_ofGrid :
    (ofGrid grid extent).HasDependent p f ↔ (ofGrid grid extent).HasPrecedent f p :=
  mem_directDependents_ofGrid

theorem transGen_hasDependent_iff :
    Relation.TransGen (ofGrid grid extent).HasDependent p f ↔
      Relation.TransGen (ofGrid grid extent).HasPrecedent f p := by
  have hswap : (ofGrid grid extent).HasDependent =
      Function.swap (ofGrid grid extent).HasPrecedent := by
    funext p f
    exact propext hasDependent_ofGrid
  rw [hswap, Relation.transGen_swap]

theorem mem_formulas_of_transGen
    (h : Relation.TransGen (ofGrid grid extent).HasPrecedent f p) : f ∈ grid.formulas := by
  obtain ⟨q, hprecedent, -⟩ := Relation.TransGen.head'_iff.mp h
  exact mem_formulas_of_mem_precedentsAt hprecedent

theorem mem_allDependents_iff :
    f ∈ (ofGrid grid extent).allDependents p ↔
      Relation.TransGen (ofGrid grid extent).HasPrecedent f p := by
  rw [allDependents, (gathers_directDependents grid extent p).mem_collect_iff,
    ← transGen_hasDependent_iff, Relation.TransGen.head'_iff]
  simp only [Std.ExtTreeSet.not_mem_empty, false_or, Std.ExtTreeSet.mem_toList]
  rfl

theorem yields_allDependents (grid : Grid) (extent : Extent) (p : Position) :
    let graph := ofGrid grid extent
    Yields graph.collectNext (graph.collecting p) (graph.allDependents p) := by
  intro graph
  have hgathers : Gathers graph graph.precedents (graph.directDependents p).toList.reverse ∅ :=
    gathers_start grid extent fun f hf => Std.ExtTreeSet.mem_toList.mp (List.mem_reverse.mp hf)
  rw [allDependents, (gathers_directDependents grid extent p).collect_congr hgathers
    fun _ => List.mem_reverse.symm]
  exact hgathers.yields

/-- What a graph says about dependents. It is the same in whatever order the cells of its grid are
found, and shows the cells that the formulas mention. The direct dependents of a cell are the
formulas that have it among their precedents. The search for all dependents comes to an end and
gives the formulas from which one or more steps to a precedent lead to the cell, so that a cell is
among its own dependents exactly if it is on a loop. -/
theorem allDependents_ofGrid (grid : Grid) (extent : Extent) (p f : Position) :
    let graph := ofGrid grid extent
    (∀ entries : List (Position × Cell), entries.Perm grid.toList →
        ofListed extent entries = graph) ∧
      (p ∈ graph.precedentsAt f ↔
        ∃ body, grid.formulas[f]? = some body ∧ p ∈ (Mentions.ofText extent body).allCells) ∧
      (f ∈ graph.directDependents p ↔ p ∈ graph.precedentsAt f) ∧
      Yields graph.collectNext (graph.collecting p) (graph.allDependents p) ∧
      (f ∈ graph.allDependents p ↔
        f ∈ grid.formulas ∧ Relation.TransGen graph.HasPrecedent f p) ∧
      (p ∈ graph.allDependents p ↔ Relation.TransGen graph.HasPrecedent p p) := by
  intro graph
  refine ⟨fun entries => ofListed_eq, mem_precedentsAt_ofGrid, mem_directDependents_ofGrid,
    yields_allDependents grid extent p, ?_, mem_allDependents_iff⟩
  rw [mem_allDependents_iff]
  exact (and_iff_right_of_imp mem_formulas_of_transGen).symm

end Spreadsheet.DependencyGraph
