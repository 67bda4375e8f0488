import Spreadsheet.Proofs.Loading
import Spreadsheet.Stored.Encoding

namespace Spreadsheet

namespace Cell

theorem ofChars_eq_empty_iff {cs : List Char} : Content.ofChars cs = .empty ↔ cs = [] := by
  constructor
  · intro h
    unfold Content.ofChars at h
    split at h
    · rfl
    · cases h
    · split at h <;> cases h
  · rintro rfl
    rfl

theorem ofInput?_eq_none_iff {input : String} {style : Option Style} :
    ofInput? input style = none ↔ Text.dropLineEnds input = "" := by
  have hempty : Text.dropLineEnds input = "" ↔
      Text.dropRightWhile Text.isLineEnd input.toList = [] := by
    rw [Text.dropLineEnds, String.ofList_eq_empty_iff]
  rw [hempty, ← ofChars_eq_empty_iff]
  unfold ofInput?
  split
  · rename_i hcontent
    simp [hcontent]
  · rename_i hcontent
    simpa using hcontent

end Cell

namespace StoredCell

variable {stored last : StoredCell} {cell : Cell}

/-- A cell with the style of a stored one and, unless this holds nothing but line ends, with its
input. -/
structure IsKept (stored : StoredCell) (cell : Cell) : Prop where
  style_eq : cell.style = stored.style
  input_eq : Text.dropLineEnds stored.input ≠ "" → cell.input = stored.input

theorem toCell?_of_input (h : Text.dropLineEnds stored.input ≠ "") :
    ∃ cell, stored.toCell? = some cell ∧ cell.input = stored.input ∧ cell.style = stored.style := by
  obtain ⟨cell, hcell⟩ := Option.ne_none_iff_exists'.mp (mt Cell.ofInput?_eq_none_iff.mp h)
  obtain ⟨hinput, hstyle, -, -⟩ := Cell.entered_of_ofInput? hcell
  exact ⟨cell, by rw [toCell?, hcell, Option.some_or], hinput, hstyle⟩

theorem toCell?_of_no_input (h : Text.dropLineEnds stored.input = "") :
    stored.toCell? = stored.style.map Cell.ofStyle := by
  rw [toCell?, Cell.ofInput?_eq_none_iff.mpr h, Option.none_or]

theorem exists_isKept_iff (h : Text.dropLineEnds stored.input ≠ "" ∨ stored.style.isSome = true) :
    (∃ cell, last.toCell? = some cell ∧ stored.IsKept cell) ↔
      last.style = stored.style ∧
        (Text.dropLineEnds stored.input ≠ "" → last.input = stored.input) := by
  by_cases hlast : Text.dropLineEnds last.input = ""
  · rw [toCell?_of_no_input hlast]
    constructor
    · rintro ⟨cell, hcell, hkept⟩
      obtain ⟨style, hstyle, rfl⟩ := Option.map_eq_some_iff.mp hcell
      refine ⟨hstyle.trans hkept.style_eq, fun hinput => ?_⟩
      -- the cell has no input, so it cannot have the one of the stored cell
      exact absurd (congrArg Text.dropLineEnds (hkept.input_eq hinput)).symm hinput
    · rintro ⟨hstyle, hinput⟩
      have hblank : Text.dropLineEnds stored.input = "" := by
        by_contra hsome
        exact hsome (hinput hsome ▸ hlast)
      obtain ⟨style, hsome⟩ := Option.isSome_iff_exists.mp (h.resolve_left (not_not.mpr hblank))
      rw [hstyle, hsome]
      exact ⟨_, rfl, hsome.symm, fun hne => absurd hblank hne⟩
  · obtain ⟨cell, hcell, hinput, hstyle⟩ := toCell?_of_input hlast
    rw [hcell]
    constructor
    · rintro ⟨other, hother, hkept⟩
      obtain rfl := Option.some.inj hother
      exact ⟨hstyle ▸ hkept.style_eq, fun hne => hinput ▸ hkept.input_eq hne⟩
    · rintro ⟨hsame, hkeeps⟩
      exact ⟨cell, rfl, hstyle.trans hsame, fun hne => hinput.trans (hkeeps hne)⟩

end StoredCell

namespace Grid

variable {grid other : Grid} {p : Position} {stored : StoredCell}

/-- A stored cell has become what a grid holds at a position. -/
def Keeps (grid : Grid) (p : Position) (stored : StoredCell) : Prop :=
  ∃ cell, grid[p]? = some cell ∧ stored.IsKept cell

theorem Keeps.of_entered (hentered : grid.entered = other.entered) (h : grid.Keeps p stored) :
    other.Keeps p stored := by
  obtain ⟨cell, hcell, hkept⟩ := h
  have hfound := entered_eq_iff.mp hentered p
  rw [hcell] at hfound
  obtain ⟨found, hother, hsame⟩ := Option.map_eq_some_iff.mp hfound.symm
  obtain ⟨hinput, -, -, hstyle⟩ := Cell.mk.inj hsame
  exact ⟨found, hother, hstyle.trans hkept.style_eq, fun hne => hinput.trans (hkept.input_eq hne)⟩

theorem mem_of_entered_eq (hentered : grid.entered = other.entered) (h : p ∈ grid) : p ∈ other := by
  rw [Std.ExtTreeMap.mem_iff_isSome_getElem?] at h ⊢
  have hfound := congrArg Option.isSome (entered_eq_iff.mp hentered p)
  rwa [Option.isSome_map, Option.isSome_map, h, eq_comm] at hfound

end Grid

namespace StoredSheet

variable {settings : Settings} {stored : StoredSheet} {sheet start next : Sheet} {p : Position}
  {entries : List (String × StoredCell)}

/-- The last one among stored cells whose name is that of a position. -/
def lastOf? (entries : List (String × StoredCell)) (p : Position) : Option StoredCell :=
  (entries.filter fun entry => Position.ofName? entry.1 = some p).getLast?.map Prod.snd

/-- The cell that is stored under the last of the names of a position. -/
def lastAt? (stored : StoredSheet) (p : Position) : Option StoredCell :=
  lastOf? stored.cells.toList p

theorem lastOf?_cons (entry : String × StoredCell) :
    lastOf? (entry :: entries) p = (lastOf? entries p).or
      (if Position.ofName? entry.1 = some p then some entry.2 else none) := by
  unfold lastOf?
  rw [List.filter_cons]
  split
  · rename_i hname
    rw [if_pos (of_decide_eq_true hname), List.getLast?_cons]
    cases (entries.filter fun entry => Position.ofName? entry.1 = some p).getLast? <;> rfl
  · rename_i hname
    rw [if_neg (by simpa using hname), Option.or_none]

theorem exists_lastAt? {name : String} {cell : StoredCell} (hcell : stored.cells[name]? = some cell)
    (hname : Position.ofName? name = some p) : ∃ last, stored.lastAt? p = some last := by
  have hmem : (name, cell) ∈
      stored.cells.toList.filter fun entry => Position.ofName? entry.1 = some p :=
    List.mem_filter.mpr
      ⟨Std.ExtTreeMap.mem_toList_iff_getElem?_eq_some.mpr hcell, decide_eq_true hname⟩
  unfold lastAt? lastOf?
  rw [List.getLast?_eq_some_getLast (List.ne_nil_of_mem hmem)]
  exact ⟨_, rfl⟩

theorem exists_name_of_lastAt? {last : StoredCell} (h : stored.lastAt? p = some last) :
    ∃ name, stored.cells[name]? = some last ∧ Position.ofName? name = some p := by
  obtain ⟨⟨name, _⟩, hlast, rfl⟩ := Option.map_eq_some_iff.mp h
  obtain ⟨hmem, hname⟩ := List.mem_filter.mp (List.mem_of_getLast? hlast)
  exact ⟨name, Std.ExtTreeMap.mem_toList_iff_getElem?_eq_some.mp hmem, of_decide_eq_true hname⟩

theorem mem_cells_of_getElem? {name : String} {cell : StoredCell}
    (hcell : stored.cells[name]? = some cell) : name ∈ stored.cells :=
  SortedMap.mem_of_getElem?_eq_some hcell

theorem lastAt?_eq_of_forall {name : String} {cell : StoredCell}
    (hcell : stored.cells[name]? = some cell) (hname : Position.ofName? name = some p)
    (honly : ∀ other ∈ stored.cells, Position.ofName? other = some p → other = name) :
    stored.lastAt? p = some cell := by
  obtain ⟨last, hlast⟩ := exists_lastAt? hcell hname
  obtain ⟨other, hfound, hother⟩ := exists_name_of_lastAt? hlast
  obtain rfl := honly other (mem_cells_of_getElem? hfound) hother
  rw [hlast, ← hfound, hcell]

theorem getElem?_addCell {name : String} {cell : StoredCell}
    (hadd : addCell start name cell = .ok next) :
    (∃ q, Position.ofName? name = some q) ∧ next.cells[p]? =
      if Position.ofName? name = some p then cell.toCell? else start.cells[p]? := by
  unfold addCell at hadd
  split at hadd
  · rename_i q hq
    obtain ⟨hname, -⟩ := Option.filter_eq_some_iff.mp hq
    obtain rfl := Except.ok.inj hadd
    refine ⟨⟨q, hname⟩, ?_⟩
    rw [hname, Sheet.put, Std.ExtTreeMap.getElem?_alter]
    simp
  · cases hadd

/-- Cells that are put in place one after the other: at each position the last one stays. -/
theorem getElem?_foldlM_addCell
    (h : entries.foldlM (fun sheet (name, cell) => addCell sheet name cell) start = .ok sheet) :
    (∀ entry ∈ entries, ∃ q, Position.ofName? entry.1 = some q) ∧
      sheet.cells[p]? = match lastOf? entries p with
        | some cell => cell.toCell?
        | none => start.cells[p]? := by
  induction entries generalizing start with
  | nil =>
      obtain rfl := Except.ok.inj h
      exact ⟨List.forall_mem_nil _, rfl⟩
  | cons entry entries ih =>
      obtain ⟨name, cell⟩ := entry
      obtain ⟨next, hadd, h⟩ := bind_eq_ok h
      obtain ⟨hname, hnext⟩ := getElem?_addCell (p := p) hadd
      obtain ⟨hnames, hlast⟩ := ih h
      refine ⟨List.forall_mem_cons.mpr ⟨hname, hnames⟩, hlast.trans ?_⟩
      rw [lastOf?_cons, hnext]
      cases lastOf? entries p with
      | some last => rfl
      | none =>
          rw [Option.none_or]
          by_cases hp : Position.ofName? name = some p
          · rw [if_pos hp, if_pos hp]
          · rw [if_neg hp, if_neg hp]

theorem cells_toSheet (h : stored.toSheet settings = .ok sheet) :
    (∀ name ∈ stored.cells, ∃ q, Position.ofName? name = some q) ∧
      ∀ p, sheet.cells[p]? = (stored.lastAt? p).bind StoredCell.toCell? := by
  unfold toSheet at h
  split at h
  · dsimp only at h
    obtain ⟨filled, hfilled, h⟩ := bind_eq_ok h
    obtain ⟨wide, hwide, h⟩ := bind_eq_ok h
    obtain ⟨high, hhigh, h⟩ := bind_eq_ok h
    obtain ⟨filtered, hfiltered, h⟩ := bind_eq_ok h
    obtain ⟨tables, -, h⟩ := bind_eq_ok h
    obtain rfl := Except.ok.inj h
    have hwidths := foldlM_eq_ok (motive := fun sheet => sheet.cells = filled.cells) hwide rfl
      fun sheet entry _ next hsheet hset =>
        (Sheet.sameBody_setColumnWidth (mapError_eq_ok hset)).cells_eq.trans hsheet
    have hheights := foldlM_eq_ok (motive := fun sheet => sheet.cells = filled.cells) hhigh hwidths
      fun sheet entry _ next hsheet hset =>
        (Sheet.sameBody_setRowHeight (mapError_eq_ok hset)).cells_eq.trans hsheet
    have hcells : filtered.cells = filled.cells :=
      foldlM_eq_ok (motive := fun sheet => sheet.cells = filled.cells) hfiltered hheights
        fun sheet entry _ next hsheet hset =>
          (Sheet.sameBody_setColumnFilter (mapError_eq_ok hset)).cells_eq.trans hsheet
    constructor
    · intro name hname
      obtain ⟨cell, hcell⟩ := Option.isSome_iff_exists.mp
        (Std.ExtTreeMap.mem_iff_isSome_getElem?.mp hname)
      exact (getElem?_foldlM_addCell (p := ⟨0, 0⟩) hfilled).1 (name, cell)
        (Std.ExtTreeMap.mem_toList_iff_getElem?_eq_some.mpr hcell)
    · intro p
      refine (congrArg (·[p]?) hcells).trans ((getElem?_foldlM_addCell hfilled).2.trans ?_)
      rw [← lastAt?]
      cases stored.lastAt? p <;> rfl
  · cases h

end StoredSheet

namespace StoredWorkbook

variable {settings : Settings} {stored : StoredWorkbook} {workbook : Workbook}

theorem sheets_toWorkbook (h : stored.toWorkbook settings = .ok workbook) :
    workbook.sheets.length = stored.sheets.length ∧
      ∀ (index : Nat) (file : StoredSheet) (sheet : Sheet), stored.sheets[index]? = some file →
        workbook.sheets[index]? = some sheet →
          ∃ before, file.toSheet settings = .ok before ∧ sheet.cells = before.cells := by
  unfold toWorkbook at h
  split at h
  · cases h
  · obtain ⟨sheets, hsheets, h⟩ := bind_eq_ok h
    have hmap := map_of_mapM_eq_ok hsheets
    unfold Workbook.ofSheets at h
    split at h
    · cases h
    · split at h
      · obtain rfl := Except.ok.inj h
        refine ⟨by simpa using (congrArg List.length hmap).symm, ?_⟩
        intro index file sheet hfile hsheet
        obtain ⟨before, hbefore, rfl⟩ := Option.map_eq_some_iff.mp
          (List.getElem?_mapIdx.symm.trans hsheet)
        have hplace := congrArg (·[index]?) hmap
        simp only [List.getElem?_map, hfile, hbefore, Option.map_some, Option.some.injEq] at hplace
        exact ⟨before, hplace, rfl⟩
      · cases h

end StoredWorkbook

namespace Workbook

variable {settings : Settings} {text : String} {workbook : Workbook} {notices : List Notice}

theorem ofText_eq_ok (h : ofText settings text = .ok (workbook, notices)) :
    ∃ stored opened, (Json.ofText? text).bind StoredWorkbook.ofJson? = some stored ∧
      stored.toWorkbook settings = .ok opened ∧ workbook = opened.recalculation.1 := by
  unfold ofText at h
  split at h
  · cases h
  · rename_i stored hstored
    split at h
    · rename_i opened hopened
      exact ⟨stored, opened, hstored, hopened, (congrArg Prod.fst (Except.ok.inj h)).symm⟩
    · cases h

/-- What a workbook that is loaded keeps of the cells that are stored for it. It has no others, and a
stored cell that holds something is kept exactly if the last one for its position has the same style
and the same input, so always if its position has no other name there. -/
theorem ofText_keeps_iff (h : ofText settings text = .ok (workbook, notices)) :
    ∃ stored : StoredWorkbook, (Json.ofText? text).bind StoredWorkbook.ofJson? = some stored ∧
      workbook.sheets.length = stored.sheets.length ∧
      ∀ (index : Nat) (file : StoredSheet) (sheet : Sheet), stored.sheets[index]? = some file →
        workbook.sheets[index]? = some sheet →
          (∀ p ∈ sheet.cells, ∃ name ∈ file.cells, Position.ofName? name = some p) ∧
          ∀ (name : String) (cell : StoredCell), file.cells[name]? = some cell →
            Text.dropLineEnds cell.input ≠ "" ∨ cell.style.isSome = true →
              ∃ p last, Position.ofName? name = some p ∧ file.lastAt? p = some last ∧
                (sheet.cells.Keeps p cell ↔ last.style = cell.style ∧
                  (Text.dropLineEnds cell.input ≠ "" → last.input = cell.input)) ∧
                ((∀ other ∈ file.cells, Position.ofName? other = some p → other = name) →
                  sheet.cells.Keeps p cell) := by
  obtain ⟨stored, opened, hstored, hopened, rfl⟩ := ofText_eq_ok h
  obtain ⟨hlength, hsheets⟩ := StoredWorkbook.sheets_toWorkbook hopened
  refine ⟨stored, hstored, by simpa [recalculation] using hlength, ?_⟩
  intro index file sheet hfile hsheet
  simp only [recalculation, List.map_map, List.getElem?_map] at hsheet
  obtain ⟨settled, hsettled, rfl⟩ := Option.map_eq_some_iff.mp hsheet
  obtain ⟨before, hbefore, hcells⟩ := hsheets index file settled hfile hsettled
  obtain ⟨hnames, hlast⟩ := StoredSheet.cells_toSheet hbefore
  have hentered : (settled.recalculation.grid).entered = before.cells.entered :=
    hcells ▸ Grid.entered_recalculate
  constructor
  · intro p hp
    have hp := Grid.mem_of_entered_eq hentered hp
    rw [Std.ExtTreeMap.mem_iff_isSome_getElem?, hlast] at hp
    obtain ⟨_, hfound⟩ := Option.isSome_iff_exists.mp hp
    obtain ⟨last, hfound, -⟩ := Option.bind_eq_some_iff.mp hfound
    obtain ⟨name, hname, hposition⟩ := StoredSheet.exists_name_of_lastAt? hfound
    exact ⟨name, StoredSheet.mem_cells_of_getElem? hname, hposition⟩
  · intro name cell hcell hsome
    obtain ⟨p, hname⟩ := hnames name (StoredSheet.mem_cells_of_getElem? hcell)
    obtain ⟨last, hfound⟩ := StoredSheet.exists_lastAt? hcell hname
    have hkeeps : Grid.Keeps settled.recalculation.grid p cell ↔ last.style = cell.style ∧
        (Text.dropLineEnds cell.input ≠ "" → last.input = cell.input) := by
      have hplace : before.cells[p]? = last.toCell? := by rw [hlast, hfound, Option.bind_some]
      rw [← StoredCell.exists_isKept_iff hsome, ← hplace]
      exact ⟨Grid.Keeps.of_entered hentered, Grid.Keeps.of_entered hentered.symm⟩
    refine ⟨p, last, hname, hfound, hkeeps, fun honly => hkeeps.mpr ?_⟩
    obtain rfl := Option.some.inj
      (hfound.symm.trans (StoredSheet.lastAt?_eq_of_forall hcell hname honly))
    exact ⟨rfl, fun _ => rfl⟩

/-- Two cells under two names each. What comes last for the first of them holds nothing. -/
def secondNames : String :=
  "\x7b\"sheets\":[\x7b\"name\":\"S\",\"columnCount\":2,\"rowCount\":2,\"cells\":\x7b" ++
    "\"A01\":\x7b\"rawInput\":\"x\"\x7d,\"A1\":\x7b\x7d," ++
    "\"B02\":\x7b\"rawInput\":\"=A1\"\x7d,\"B2\":\x7b\"rawInput\":\"=A1\"\x7d\x7d\x7d]\x7d"

theorem exists_ofText_secondNames :
    ∃ workbook notices stored file sheet,
      ofText .standard secondNames = .ok (workbook, notices) ∧
      (Json.ofText? secondNames).bind StoredWorkbook.ofJson? = some stored ∧
      stored.sheets = [file] ∧ workbook.sheets = [sheet] ∧
      file.cells["A01"]? = some ⟨"x", none⟩ ∧ file.cells["B02"]? = some ⟨"=A1", none⟩ ∧
      file.lastAt? ⟨0, 0⟩ = some ⟨"", none⟩ ∧ file.lastAt? ⟨1, 1⟩ = some ⟨"=A1", none⟩ ∧
      sheet.cells.keys = [⟨1, 1⟩] := by
  have hsheets : (ofText .standard secondNames).toOption.map (fun result =>
      result.1.sheets.map fun sheet => sheet.cells.keys) = some [[⟨1, 1⟩]] := by
    decide +kernel
  have hfiles : ((Json.ofText? secondNames).bind StoredWorkbook.ofJson?).map (fun stored =>
      stored.sheets.map fun file => [file.cells["A01"]?, file.cells["B02"]?,
        file.lastAt? ⟨0, 0⟩, file.lastAt? ⟨1, 1⟩]) =
      some [[some ⟨"x", none⟩, some ⟨"=A1", none⟩, some ⟨"", none⟩, some ⟨"=A1", none⟩]] := by
    decide +kernel
  obtain ⟨stored, hstored, hfiles⟩ := Option.map_eq_some_iff.mp hfiles
  obtain ⟨file, hfile, hcells⟩ := List.map_eq_singleton_iff.mp hfiles
  simp only [List.cons.injEq, and_true] at hcells
  obtain ⟨hfirst, hsecond, hlast, hlast'⟩ := hcells
  cases h : ofText .standard secondNames with
  | error reason =>
      rw [h] at hsheets
      cases hsheets
  | ok result =>
      rw [h] at hsheets
      obtain ⟨sheet, hsheet, hkeys⟩ := List.map_eq_singleton_iff.mp (Option.some.inj hsheets)
      exact ⟨result.1, result.2, stored, file, sheet, rfl, hstored, hfile, hsheet, hfirst, hsecond,
        hlast, hlast', hkeys⟩

theorem ofText_keeps_iff_secondNames :
    ∃ workbook notices sheet, ofText .standard secondNames = .ok (workbook, notices) ∧
      workbook.sheets = [sheet] ∧ sheet.cells.Keeps ⟨1, 1⟩ ⟨"=A1", none⟩ ∧
      ¬ sheet.cells.Keeps ⟨0, 0⟩ ⟨"x", none⟩ := by
  obtain ⟨workbook, notices, stored, file, sheet, h, hstored, hfile, hsheet, hfirst, hsecond, hlast,
    hlast', -⟩ := exists_ofText_secondNames
  obtain ⟨read, hread, -, hkeeps⟩ := ofText_keeps_iff h
  obtain rfl := Option.some.inj (hstored.symm.trans hread)
  obtain ⟨-, hkeeps⟩ := hkeeps 0 file sheet (by rw [hfile]; rfl) (by rw [hsheet]; rfl)
  refine ⟨workbook, notices, sheet, h, hsheet, ?_, ?_⟩
  · obtain ⟨p, last, hname, hfound, hiff, -⟩ := hkeeps "B02" _ hsecond (.inl (by decide))
    obtain rfl : ⟨1, 1⟩ = p :=
      Option.some.inj ((by decide +kernel : Position.ofName? "B02" = some ⟨1, 1⟩).symm.trans hname)
    obtain rfl := Option.some.inj (hlast'.symm.trans hfound)
    exact hiff.mpr ⟨rfl, fun _ => rfl⟩
  · obtain ⟨p, last, hname, hfound, hiff, -⟩ := hkeeps "A01" _ hfirst (.inl (by decide))
    obtain rfl : ⟨0, 0⟩ = p :=
      Option.some.inj ((by decide +kernel : Position.ofName? "A01" = some ⟨0, 0⟩).symm.trans hname)
    obtain rfl := Option.some.inj (hlast.symm.trans hfound)
    exact fun hkept => absurd ((hiff.mp hkept).2 (by decide)) (by decide)

theorem exists_ofText_not_keeps :
    ¬ ∀ (settings : Settings) (text : String) (workbook : Workbook) (notices : List Notice)
        (stored : StoredWorkbook), ofText settings text = .ok (workbook, notices) →
      (Json.ofText? text).bind StoredWorkbook.ofJson? = some stored →
      ∀ (index : Nat) (file : StoredSheet) (sheet : Sheet), stored.sheets[index]? = some file →
        workbook.sheets[index]? = some sheet →
          ∀ (name : String) (cell : StoredCell), file.cells[name]? = some cell →
            Text.dropLineEnds cell.input ≠ "" ∨ cell.style.isSome = true →
              ∃ p, Position.ofName? name = some p ∧ sheet.cells.Keeps p cell := by
  intro hall
  obtain ⟨workbook, notices, stored, file, sheet, h, hstored, hfile, hsheet, hcell, -, -, -,
    hkeys⟩ := exists_ofText_secondNames
  obtain ⟨p, hname, found, hfound, -⟩ := hall _ _ _ _ _ h hstored 0 file sheet
    (by rw [hfile]; rfl) (by rw [hsheet]; rfl) "A01" _ hcell (.inl (by decide))
  obtain rfl : (⟨0, 0⟩ : Position) = p :=
    Option.some.inj ((by decide +kernel : Position.ofName? "A01" = some ⟨0, 0⟩).symm.trans hname)
  have hmem : (⟨0, 0⟩ : Position) ∈ sheet.cells.keys :=
    Std.ExtTreeMap.mem_keys.mpr
      (Std.ExtTreeMap.mem_iff_isSome_getElem?.mpr (Option.isSome_of_eq_some hfound))
  rw [hkeys] at hmem
  simp at hmem

end Workbook

end Spreadsheet
