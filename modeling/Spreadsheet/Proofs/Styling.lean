import Spreadsheet.Proofs.Reachable

namespace Spreadsheet

/-- What becomes of a place where styles change: at most the style of its cell, and an empty place
at most gets a cell that holds nothing but a style. -/
def Restyles (before after : Option Cell) : Prop :=
  after = before ∨ ∃ style, after = some { before.getD (Cell.ofStyle {}) with style := some style }

namespace Restyles

variable {before after : Option Cell}

theorem input_eq (h : Restyles before after) :
    (after.map Cell.input).getD "" = (before.map Cell.input).getD "" := by
  rcases h with rfl | ⟨style, rfl⟩
  · rfl
  · cases before <;> rfl

theorem value_eq (h : Restyles before after) :
    (after.map Cell.value).getD .empty = (before.map Cell.value).getD .empty := by
  rcases h with rfl | ⟨style, rfl⟩
  · rfl
  · cases before <;> rfl

theorem display_eq (h : Restyles before after) :
    (after.map Cell.display).getD "" = (before.map Cell.display).getD "" := by
  rcases h with rfl | ⟨style, rfl⟩
  · rfl
  · cases before <;> rfl

theorem formula?_eq (h : Restyles before after) :
    after.bind Cell.formula? = before.bind Cell.formula? := by
  rcases h with rfl | ⟨style, rfl⟩
  · rfl
  · cases before <;> rfl

theorem used_eq (h : Restyles before after) :
    (after.filter fun cell => !cell.input.isEmpty).map Cell.input =
      (before.filter fun cell => !cell.input.isEmpty).map Cell.input := by
  rcases h with rfl | ⟨style, rfl⟩
  · rfl
  · cases before with
    | none => rfl
    | some cell => by_cases hinput : cell.input.isEmpty <;> simp [Option.filter_some, hinput]

end Restyles

namespace Grid

variable {grid other : Grid} {extent : Extent} {text : String}

theorem sameContents_of_restyles (h : ∀ p : Position, Restyles other[p]? grid[p]?) :
    SameContents grid other where
  formulas_eq := by
    apply Std.ExtTreeMap.ext_getElem?
    intro p
    rw [getElem?_formulas, getElem?_formulas, (h p).formula?_eq]
  valueAt_eq := funext fun p => (h p).value_eq

theorem SameSource.evaluateInput_eq (h : SameSource grid other) :
    grid.evaluateInput extent text = other.evaluateInput extent text := by
  have hbody : ∀ body, grid.evaluate extent body = other.evaluate extent body := by
    intro body
    have hsettled := h.settledValue_eq
    unfold evaluate Walk.start
    simp only [h.formulas_eq, Walk.run_congr hsettled, Walk.look_congr hsettled]
  unfold evaluateInput
  split <;> exact hbody _

theorem precedentsOf_eq_map : DependencyGraph.precedentsOf grid extent =
    grid.formulas.map fun _ body => (Mentions.ofText extent body).allCells := by
  apply Std.ExtTreeMap.ext_getElem?
  intro p
  rw [DependencyGraph.precedentsOf, Std.ExtTreeMap.getElem?_filterMap',
    Std.ExtTreeMap.getElem?_map, getElem?_formulas, Option.map_bind]
  rfl

theorem dependencies_eq (h : grid.formulas = other.formulas) :
    DependencyGraph.ofGrid grid extent = DependencyGraph.ofGrid other extent := by
  rw [DependencyGraph.ofGrid, DependencyGraph.ofGrid, precedentsOf_eq_map, precedentsOf_eq_map, h]

end Grid

namespace Sheet

variable {before after : Sheet}

/-- A sheet in which nothing but the styles of cells and the tables can have changed. -/
structure Restyled (before after : Sheet) : Prop where
  frame : after = { before with cells := after.cells, tables := after.tables }
  cells : ∀ p : Position, Restyles before.cells[p]? after.cells[p]?

theorem Restyled.refl (sheet : Sheet) : sheet.Restyled sheet := ⟨rfl, fun _ => .inl rfl⟩

theorem Restyled.addTable {table : Table} (h : before.Restyled after) :
    before.Restyled (after.addTable table) := by
  refine ⟨?_, h.cells⟩
  rw [Sheet.addTable, h.frame]

theorem Restyled.usedRange_eq (h : before.Restyled after) : after.usedRange = before.usedRange := by
  have hused : ∀ sheet : Sheet, (sheet.cells.filter fun _ cell => !cell.input.isEmpty).keys =
      ((sheet.cells.filter fun _ cell => !cell.input.isEmpty).map fun _ cell => cell.input).keys :=
    fun sheet => Std.ExtTreeMap.keys_map.symm
  have hinputs : ((after.cells.filter fun _ cell => !cell.input.isEmpty).map
      fun _ cell => cell.input) =
        (before.cells.filter fun _ cell => !cell.input.isEmpty).map fun _ cell => cell.input := by
    apply Std.ExtTreeMap.ext_getElem?
    intro p
    rw [Std.ExtTreeMap.getElem?_map, Std.ExtTreeMap.getElem?_map, Std.ExtTreeMap.getElem?_filter',
      Std.ExtTreeMap.getElem?_filter']
    exact (h.cells p).used_eq
  unfold usedRange
  rw [hused after, hinputs, ← hused before]

/-- Two sheets that hold, show and export the same. -/
structure SameContents (before after : Sheet) : Prop where
  input : ∀ p, after.input p = before.input p
  value : ∀ p, after.value p = before.value p
  inputText : after.inputText = before.inputText
  visibleText : after.visibleText = before.visibleText
  visibleRows : after.visibleRows = before.visibleRows

theorem Restyled.sameContents (h : before.Restyled after) : before.SameContents after := by
  have hinput : after.input = before.input := funext fun p => (h.cells p).input_eq
  have hshown : after.shown = before.shown := funext fun p => (h.cells p).display_eq
  have hvisible : after.isRowVisible = before.isRowVisible := by
    unfold isRowVisible
    rw [hshown, h.frame]
  refine ⟨congrFun hinput, fun p => (h.cells p).value_eq, ?_, ?_, ?_⟩
  · rw [inputText, inputText, usedText, usedText, h.usedRange_eq, hinput]
  · rw [visibleText, visibleText, usedText, usedText, h.usedRange_eq, hshown, hvisible]
  · rw [visibleRows, visibleRows, hvisible, h.frame]

end Sheet

namespace Document

variable {settings : Settings} {d next : Document} {sheet : Sheet}
  {update : Position → Style → Style} {cells : List Position}

theorem previous_ne_next {p : Position} {change : Change}
    (h : styleChange? sheet update p = some change) : change.previous ≠ change.next := by
  unfold styleChange? at h
  split at h
  · dsimp only at h
    split at h
    · cases h
    · rename_i hne
      obtain rfl := Option.some.inj h
      exact hne
  · cases h

theorem mem_restyle {change : Change} (h : change ∈ (restyle sheet cells update).2) :
    change.cell ∈ cells ∧ styleChange? sheet update change.cell = some change := by
  obtain ⟨p, hp, hchange⟩ := List.mem_filterMap.mp h
  obtain rfl := (styleChange?_eq_some hchange).2.1
  exact ⟨hp, hchange⟩

theorem restyled_restyle (update : Position → Style → Style) (hnodup : cells.Nodup)
    (hproper : sheet.cells.IsProper) :
    sheet.Restyled (restyle sheet cells update).1 := by
  have hchanges := changesOf_restyle update hnodup hproper
  rw [restyle_fst]
  refine ⟨rfl, fun p => ?_⟩
  dsimp only
  by_cases hp : p ∈ (restyle sheet cells update).2.map Change.cell
  · obtain ⟨change, hchange, rfl⟩ := List.mem_map.mp hp
    obtain ⟨-, -, -, -, hnext⟩ := styleChange?_eq_some (mem_restyle hchange).2
    rw [Grid.getElem?_applied_of_mem hchanges.nodup hchange]
    exact .inr ⟨_, hnext⟩
  · rw [Grid.getElem?_applied_of_not_mem hp]
    exact .inl rfl

theorem mem_changes_restyle (update : Position → Style → Style) (hnodup : cells.Nodup)
    (hproper : sheet.cells.IsProper) (p : Position) :
    p ∈ (restyle sheet cells update).2.map Change.cell ↔
      (restyle sheet cells update).1.cells[p]? ≠ sheet.cells[p]? := by
  have hchanges := changesOf_restyle update hnodup hproper
  rw [restyle_fst]
  constructor
  · intro hp
    obtain ⟨change, hchange, rfl⟩ := List.mem_map.mp hp
    rw [Grid.getElem?_applied_of_mem hchanges.nodup hchange, ← hchanges.previous_eq change hchange]
    exact (previous_ne_next (mem_restyle hchange).2).symm
  · intro hne
    by_contra hp
    exact hne (Grid.getElem?_applied_of_not_mem hp)

theorem mem_of_mem_changes_restyle {p : Position}
    (hp : p ∈ (restyle sheet cells update).2.map Change.cell) : p ∈ cells := by
  obtain ⟨change, hchange, rfl⟩ := List.mem_map.mp hp
  exact (mem_restyle hchange).1

/-- Two documents that hold, show and export the same, and whose formulas read and give the
same. -/
structure SameContents (before after : Document) : Prop where
  sheets : List.Forall₂ Sheet.SameContents before.workbook.sheets after.workbook.sheets
  precedents : ∀ p, after.precedents p = before.precedents p
  dependents : ∀ p, after.dependents p = before.dependents p
  evaluate : ∀ text, after.evaluate text = before.evaluate text

/-- A document in which nothing but the styles of chosen cells of the active sheet and the tables
there can have changed. -/
structure Restyled (chosen : Position → Prop) (before after : Document) : Prop where
  workbook : after.workbook = before.workbook.setActiveSheet after.activeSheet
  activeSheet : before.activeSheet.Restyled after.activeSheet
  chosen : ∀ p, after.activeSheet.cells[p]? ≠ before.activeSheet.cells[p]? → chosen p

theorem forall₂_set {α : Type} {R : α → α → Prop} (hrefl : ∀ a, R a a) {l : List α} {index : Nat}
    {a b : α} (ha : l[index]? = some a) (hab : R a b) : List.Forall₂ R l (l.set index b) := by
  induction l generalizing index with
  | nil => exact .nil
  | cons first rest ih =>
      cases index with
      | zero =>
          obtain rfl := Option.some.inj ha
          exact .cons hab (List.forall₂_same.mpr fun c _ => hrefl c)
      | succ index => exact .cons (hrefl first) (ih ha)

theorem Restyled.sameContents {chosen : Position → Prop} (h : d.WellFormed settings)
    (hrestyled : Restyled chosen d next) : SameContents d next := by
  have hcells := Grid.sameContents_of_restyles hrestyled.activeSheet.cells
  have hextent : next.activeSheet.extent = d.activeSheet.extent := by
    rw [hrestyled.activeSheet.frame]
  have hdependencies : next.dependencies = d.dependencies := by
    rw [Document.dependencies, Document.dependencies, hextent,
      Grid.dependencies_eq hcells.formulas_eq]
  refine ⟨?_, fun p => ?_, fun p => ?_, fun text => ?_⟩
  · rw [hrestyled.workbook]
    exact forall₂_set (fun sheet => (Sheet.Restyled.refl sheet).sameContents)
      h.workbook.getElem?_active hrestyled.activeSheet.sameContents
  · rw [Document.precedents, Document.precedents, hdependencies]
  · rw [Document.dependents, Document.dependents, hdependencies]
  · rw [Document.evaluate, Document.evaluate, hextent, hcells.sameSource.evaluateInput_eq]

/-- The result is the number of cells that have changed, and there is a record exactly if there are
any. -/
structure IsCounted (before : Document) (result : Done Nat) : Prop where
  count : ∃ changed : List Position, changed.Nodup ∧ result.value = changed.length ∧
    ∀ p, p ∈ changed ↔
      result.document.activeSheet.cells[p]? ≠ before.activeSheet.cells[p]?
  history : if result.value = 0 then result.document.history = before.history
    else ∃ record, result.document.history = before.history.push record

theorem WellFormed.commit_restyle (h : d.WellFormed settings) (hsettled : d.IsSettled)
    (cells : List Position) (update : Position → Style → Style) :
    let restyled := restyle d.activeSheet cells update
    let after := (d.commit restyled.1 restyled.2).document
    after.workbook = d.workbook.setActiveSheet restyled.1 ∧
      if restyled.2.length = 0 then after.history = d.history
      else ∃ record, after.history = d.history.push record := by
  have hnext := (isSettled_restyle hsettled.activeSheet cells update).recalculated_eq
  have hsheet : (restyle d.activeSheet cells update).1 = { d.activeSheet with
      cells := d.activeSheet.cells.applied .redoing (restyle d.activeSheet cells update).2 } :=
    restyle_fst
  generalize restyle d.activeSheet cells update = restyled at *
  obtain ⟨next, changes⟩ := restyled
  dsimp only at hnext hsheet ⊢
  unfold Document.commit
  by_cases hchanges : changes = []
  · subst hchanges
    refine ⟨?_, rfl⟩
    rw [hsheet]
    exact h.workbook.setActiveSheet_activeSheet.symm
  · rw [if_neg (by simpa using hchanges), if_neg (by simpa using hchanges)]
    refine ⟨congrArg d.workbook.setActiveSheet hnext, .ofChanges changes, ?_⟩
    exact History.recordBatch_eq _ hchanges

theorem WellFormed.restyled {chosen : Position → Prop} (h : d.WellFormed settings)
    (hworkbook : next.workbook = d.workbook.setActiveSheet sheet)
    (hsheet : d.activeSheet.Restyled sheet)
    (hchosen : ∀ p, sheet.cells[p]? ≠ d.activeSheet.cells[p]? → chosen p) :
    Restyled chosen d next := by
  obtain rfl := h.activeSheet_of_workbook hworkbook
  exact ⟨hworkbook, hsheet, hchosen⟩

theorem WellFormed.restyled_restyleSelection (h : d.WellFormed settings) (hsettled : d.IsSettled)
    (update : Position → Style → Style) :
    Restyled (· ∈ d.selection.cells) d (d.restyleSelection update).document ∧
      IsCounted d (d.restyleSelection update) := by
  have hnodup := nodup_selected d
  have hproper := h.activeSheet.isProper
  obtain ⟨hworkbook, hhistory⟩ := h.commit_restyle hsettled d.selection.cells.toList update
  have hchanged := mem_changes_restyle update hnodup hproper
  constructor
  · refine h.restyled hworkbook (restyled_restyle update hnodup hproper) fun p hne => ?_
    rw [← hchanged] at hne
    exact Std.ExtTreeSet.mem_toList.mp (mem_of_mem_changes_restyle hne)
  · have hactive : (d.restyleSelection update).document.activeSheet =
        (restyle d.activeSheet d.selection.cells.toList update).1 :=
      h.activeSheet_of_workbook hworkbook
    refine ⟨⟨(restyle d.activeSheet d.selection.cells.toList update).2.map Change.cell,
      (changesOf_restyle update hnodup hproper).nodup, (List.length_map _).symm, ?_⟩, hhistory⟩
    rw [hactive]
    exact hchanged

theorem WellFormed.restyled_insertTable {style : TableStyle} {result : Done Nat}
    (h : d.WellFormed settings) (hdone : d.insertTable style = .ok result) :
    Restyled (fun p => ∃ region, d.selection.bounds = some region ∧
      p ∈ region.rowCells region.topLeft.row) d result.document := by
  obtain ⟨region, id, hbounds, -, hresult⟩ := insertTable_eq_ok hdone
  rw [hresult]
  have hnodup := region.nodup_rowCells region.topLeft.row
  have hproper := h.activeSheet.isProper
  refine h.restyled rfl (restyled_restyle _ hnodup hproper).addTable fun p hne => ?_
  exact ⟨region, hbounds,
    mem_of_mem_changes_restyle ((mem_changes_restyle _ hnodup hproper p).mpr hne)⟩

end Document

/-- A call that changes the styles of cells. -/
inductive Styling where
  | toggle (flag : StyleFlag)
  | cycleAlign
  | fill (color : Option String)
  | borders (preset : BorderPreset)
  | table (style : TableStyle)
  | namedTable (name : String)

namespace Styling

/-- What a call makes of a document. -/
def run (d : Document) : Styling → Except Failure (Document.Done Nat)
  | .toggle flag => .ok (d.toggleStyle flag)
  | .cycleAlign => .ok d.cycleAlign
  | .fill color => .ok (d.applyFill color)
  | .borders preset => d.applyBorders preset
  | .table style => d.insertTable style
  | .namedTable name => d.insertTableNamed name

/-- Whether the result of a call is the number of a table and not that of the changed cells. -/
def insertsTable : Styling → Bool
  | .table _ => true
  | .namedTable _ => true
  | _ => false

/-- The cells that a call may give other styles: all that are selected, or the first row of the
rectangle around them where a table is put. -/
def IsChosen (styling : Styling) (d : Document) (p : Position) : Prop :=
  if styling.insertsTable then
    ∃ region, d.selection.bounds = some region ∧ p ∈ region.rowCells region.topLeft.row
  else p ∈ d.selection.cells

end Styling

namespace Document

variable {settings : Settings} {d : Document} {styling : Styling} {result : Done Nat}

/-- Whatever a call makes of styles, it leaves contents alone. -/
theorem Reachable.restyled_styling (h : Reachable settings d)
    (hdone : styling.run d = .ok result) :
    Restyled (styling.IsChosen d) d result.document ∧ SameContents d result.document ∧
      (styling.insertsTable = false → IsCounted d result) := by
  suffices hrestyled : Restyled (styling.IsChosen d) d result.document ∧
      (styling.insertsTable = false → IsCounted d result) from
    ⟨hrestyled.1, hrestyled.1.sameContents h.wellFormed, hrestyled.2⟩
  have hselection := h.wellFormed.restyled_restyleSelection h.isSettled
  cases styling with
  | toggle flag =>
      obtain rfl := Except.ok.inj hdone
      exact ⟨(hselection _).1, fun _ => (hselection _).2⟩
  | cycleAlign =>
      obtain rfl := Except.ok.inj hdone
      exact ⟨(hselection _).1, fun _ => (hselection _).2⟩
  | fill color =>
      obtain rfl := Except.ok.inj hdone
      exact ⟨(hselection _).1, fun _ => (hselection _).2⟩
  | borders preset =>
      obtain ⟨region, -, rfl⟩ := applyBorders_eq_ok hdone
      exact ⟨(hselection _).1, fun _ => (hselection _).2⟩
  | table style =>
      exact ⟨h.wellFormed.restyled_insertTable hdone, fun hno => nomatch hno⟩
  | namedTable name =>
      obtain ⟨style, hdone⟩ := insertTableNamed_eq_ok hdone
      exact ⟨h.wellFormed.restyled_insertTable hdone, fun hno => nomatch hno⟩

/-- A number and a sum over it and two empty cells below, all three of which are selected. -/
def sumOverEmpty : List Operation :=
  [.write ⟨0, 0⟩ "3", .write ⟨0, 1⟩ "=SUM(A1:A3)", .click ⟨0, 0⟩, .extendSelection ⟨2, 0⟩]

theorem restyled_styling_sumOverEmpty :
    let d := (Session.run ⟨.new .standard, .empty⟩ sumOverEmpty).document
    let result := d.toggleStyle .bold
    result.value = 3 ∧ Restyled (· ∈ d.selection.cells) d result.document ∧
      SameContents d result.document ∧ IsCounted d result := by
  intro d result
  have h : Reachable .standard d := reachable_run .new sumOverEmpty
  have hdone : (Styling.toggle .bold).run d = .ok result := rfl
  obtain ⟨hrestyled, hsame, hcounted⟩ := h.restyled_styling hdone
  exact ⟨by decide +kernel, hrestyled, hsame, hcounted rfl⟩

end Document

end Spreadsheet
