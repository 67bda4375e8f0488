import Spreadsheet.Proofs.JsonNumbers
import Spreadsheet.Proofs.SortedMaps
import Spreadsheet.Stored.Encoding

namespace Spreadsheet

section Collections

variable {κ α β γ : Type} [Ord κ] [Std.TransOrd κ] [Std.LawfulEqOrd κ] [DecidableEq κ]

theorem mapM_map_eq_map {m : Type → Type} [Monad m] [LawfulMonad m] {items : List α}
    {write : α → β} {read : β → m γ} {meant : α → γ}
    (h : ∀ item ∈ items, read (write item) = pure (meant item)) :
    (items.map write).mapM read = pure (items.map meant) := by
  induction items with
  | nil => rfl
  | cons item items ih =>
      obtain ⟨hitem, hitems⟩ := List.forall_mem_cons.mp h
      rw [List.map_cons, List.mapM_cons, hitem, ih hitems, pure_bind, pure_bind, List.map_cons]

theorem exists_of_mapM_eq_some {items : List α} {results : List β} {read : α → Option β}
    (h : items.mapM read = some results) : ∀ item ∈ items, ∃ result, read item = some result := by
  induction items generalizing results with
  | nil => exact fun item hitem => absurd hitem List.not_mem_nil
  | cons item items ih =>
      rw [List.mapM_cons] at h
      obtain ⟨first, hfirst, h⟩ := Option.bind_eq_some_iff.mp h
      obtain ⟨rest, hrest, -⟩ := Option.bind_eq_some_iff.mp h
      exact List.forall_mem_cons.mpr ⟨⟨first, hfirst⟩, ih hrest⟩

theorem mapM_map_eq {m : Type → Type} [Monad m] [LawfulMonad m] {items : List α} {write : α → β}
    {read : β → m α} (h : ∀ item ∈ items, read (write item) = pure item) :
    (items.map write).mapM read = pure items :=
  (mapM_map_eq_map h).trans (congrArg pure (List.map_id items))

end Collections

namespace Json

variable {κ α : Type} {read : Json → Option α} {write : α → Json} {json : Json} {name : String}

/-- A value that can be put into a text and is read as some data. -/
structure Carries (read : Json → Option α) (json : Json) (meant : α) : Prop where
  writable : json.Writable
  read_eq : read json = some meant

theorem textKey?_encode (text : String) : textKey? (Quoted.encode text.toList) = some text := by
  rw [textKey?, Quoted.decode?_encode, Option.map_some, String.ofList_toList]

theorem carries_ofString (text : String) : Carries toText? (ofString text) text :=
  ⟨.string _, textKey?_encode text⟩

theorem writable_ofNat (n : Nat) : (ofNat n).Writable := .number (Number.ofChars?_toDigits n)

theorem carries_ofNat {n : Nat} (h : n < Number.limit) : Carries toNat? (ofNat n) n :=
  ⟨writable_ofNat n, Number.toNat?_toDigits h⟩

theorem writable_ofFloat (x : Float) : (ofFloat x).Writable := by
  cases hx : x.isFinite with
  | false => exact ofFloat_eq_null hx ▸ .null
  | true =>
      have h := isSome_toFloat?_ofFloat x
      rw [hx] at h
      unfold ofFloat at h ⊢
      split at h
      · obtain ⟨number, hnumber⟩ :=
          Option.isSome_iff_exists.mp (Option.isSome_of_isSome_bind h)
        exact .number hnumber
      · cases h

/-- The double that is read from what is written for a finite one. -/
def reread (x : Float) : Float := (ofFloat x).toFloat?.getD x

theorem reread_eq {x y : Float} (h : (ofFloat x).toFloat? = some y) : reread x = y := by
  rw [reread, h, Option.getD_some]

theorem carries_ofFloat {x : Float} (h : x.isFinite = true) :
    Carries toFloat? (ofFloat x) (reread x) := by
  obtain ⟨y, hy⟩ := Option.isSome_iff_exists.mp (h ▸ isSome_toFloat?_ofFloat x)
  exact ⟨writable_ofFloat x, hy.trans (congrArg some (reread_eq hy).symm)⟩

theorem carries_ofOption {value : Option α}
    (h : ∀ x ∈ value, Carries read (write x) x ∧ write x ≠ .null) :
    Carries (toOption? read) (ofOption write value) value := by
  cases value with
  | none => exact ⟨.null, rfl⟩
  | some x =>
      obtain ⟨hcarries, hnull⟩ := h x rfl
      refine ⟨hcarries.writable, ?_⟩
      rw [ofOption, toOption?]
      · rw [hcarries.read_eq, Option.map_some]
      · exact hnull

theorem carries_ofList {items : List α} (h : ∀ x ∈ items, Carries read (write x) x) :
    Carries (toList? read) (ofList write items) items := by
  constructor
  · refine .array fun json hjson => ?_
    obtain ⟨x, hx, rfl⟩ := List.mem_map.mp hjson
    exact (h x hx).writable
  · exact mapM_map_eq fun x hx => (h x hx).read_eq

theorem writable_ofMembers {members : List (String × Json)}
    (h : ∀ member ∈ members, member.2.Writable) : (ofMembers members).Writable := by
  refine .object (fun member hmember => ?_) fun member hmember => ?_
  · obtain ⟨named, -, rfl⟩ := List.mem_map.mp hmember
    exact ⟨named.1.toList, rfl⟩
  · obtain ⟨named, hnamed, rfl⟩ := List.mem_map.mp hmember
    exact h named hnamed

theorem toRecord?_ofMembers {fields : List String} {members : List (String × Json)}
    (hnodup : fields.Nodup) (hmembers : (members.map Prod.fst).Sublist fields) :
    toRecord? fields (ofMembers members) = some members := by
  have hnamed : (members.map fun member => (Quoted.encode member.1.toList, member.2)).mapM
      (fun member => (do return (← textKey? member.1, member.2) : Option (String × Json))) =
        some members := by
    refine mapM_map_eq fun member _ => ?_
    dsimp only
    rw [textKey?_encode]
    rfl
  have hknown : (members.filter fun member => fields.contains member.1) = members := by
    refine List.filter_eq_self.mpr fun member hmember => ?_
    exact List.contains_iff_mem.mpr (hmembers.subset (List.mem_map_of_mem hmember))
  refine (congrArg (Option.bind · _) hnamed).trans ?_
  rw [Option.bind_some]
  refine (congrArg (fun known : List (String × Json) =>
    if (known.map Prod.fst).Nodup then some known else none) hknown).trans ?_
  exact if_pos (hnodup.sublist hmembers)

theorem field?_eq_some {record : List (String × Json)} {value : α}
    (hlookup : record.lookup name = some json) (h : Carries read json value) :
    field? record name read = some value := by
  rw [field?, hlookup, Option.bind_some, h.read_eq]

theorem fieldOr?_eq_some {record : List (String × Json)} {value standard : α}
    (hlookup : record.lookup name = some json) (h : Carries read json value) :
    fieldOr? record name read standard = some value := by
  rw [fieldOr?, hlookup]
  exact h.read_eq

variable [Ord κ] [Std.TransOrd κ] [Std.LawfulEqOrd κ]

theorem writable_ofMap {key : κ → String} {entries : Std.ExtTreeMap κ α}
    (h : ∀ (k : κ) (value : α), entries[k]? = some value → (write value).Writable) :
    (ofMap key write entries).Writable := by
  refine writable_ofMembers fun member hmember => ?_
  obtain ⟨entry, hentry, rfl⟩ := List.mem_map.mp hmember
  exact h entry.1 entry.2 (Std.ExtTreeMap.mem_toList_iff_getElem?_eq_some.mp hentry)

theorem exists_of_toMap?_ofMap {key : κ → String} {readKey : List Char → Option κ}
    {entries found : Std.ExtTreeMap κ α}
    (h : toMap? readKey read (ofMap key write entries) = some found) {k : κ} {value : α}
    (hvalue : entries[k]? = some value) : ∃ result, read (write value) = some result := by
  rw [ofMap, ofMembers, toMap?, List.map_map] at h
  obtain ⟨results, hresults, -⟩ := Option.bind_eq_some_iff.mp h
  obtain ⟨result, hresult⟩ := exists_of_mapM_eq_some hresults _ (List.mem_map_of_mem
    (Std.ExtTreeMap.mem_toList_iff_getElem?_eq_some.mpr hvalue))
  obtain ⟨_, _, hresult⟩ := Option.bind_eq_some_iff.mp hresult
  obtain ⟨result, hvalue, -⟩ := Option.bind_eq_some_iff.mp hresult
  exact ⟨result, hvalue⟩

variable [DecidableEq κ]

theorem carries_ofMap_map {key : κ → String} {readKey : List Char → Option κ} {meant : α → α}
    {entries : Std.ExtTreeMap κ α}
    (h : ∀ (k : κ) (value : α), entries[k]? = some value →
      readKey (Quoted.encode (key k).toList) = some k ∧
        Carries read (write value) (meant value)) :
    Carries (toMap? readKey read) (ofMap key write entries) (entries.map fun _ => meant) := by
  refine ⟨writable_ofMap fun k value hvalue => (h k value hvalue).2.writable, ?_⟩
  have hentries : (entries.toList.map fun entry =>
        (Quoted.encode (key entry.1).toList, write entry.2)).mapM
          (fun member => (do return (← readKey member.1, ← read member.2) : Option (κ × α))) =
        some (entries.toList.map fun entry => (entry.1, meant entry.2)) := by
    refine mapM_map_eq_map fun entry hentry => ?_
    obtain ⟨hkey, hvalue⟩ :=
      h entry.1 entry.2 (Std.ExtTreeMap.mem_toList_iff_getElem?_eq_some.mp hentry)
    simp [hkey, hvalue.read_eq]
  rw [ofMap, ofMembers, toMap?, List.map_map]
  refine (congrArg (Option.bind · fun entries =>
    some (Std.ExtTreeMap.ofList entries : Std.ExtTreeMap κ α)) hentries).trans (congrArg some ?_)
  rw [← Std.ExtTreeMap.toList_map (f := fun _ => meant), SortedMap.ofList_toList]

theorem carries_ofMap {key : κ → String} {readKey : List Char → Option κ}
    {entries : Std.ExtTreeMap κ α}
    (h : ∀ (k : κ) (value : α), entries[k]? = some value →
      readKey (Quoted.encode (key k).toList) = some k ∧ Carries read (write value) value) :
    Carries (toMap? readKey read) (ofMap key write entries) entries := by
  have hread : Carries (toMap? readKey read) (ofMap key write entries) (entries.map fun _ => id) :=
    carries_ofMap_map h
  rwa [show (entries.map fun _ => id) = entries from Std.ExtTreeMap.map_id] at hread

theorem natKey?_encode {n : Nat} (h : n < Number.limit) :
    natKey? (Quoted.encode (toString n).toList) = some n := by
  have hdigits : (toString n).toList = Nat.toDigits 10 n := Nat.toList_repr
  rw [hdigits, Quoted.encode_of_isDigit fun c hc => Position.isDigit_of_mem_toDigits hc, natKey?,
    Number.toNat?_toDigits h]

end Json

namespace Align

theorem ofName?_name (align : Align) : ofName? align.name = some align := by
  cases align <;> rfl

theorem carries_toJson (align : Align) : Json.Carries ofJson? align.toJson align := by
  refine ⟨.string _, ?_⟩
  rw [toJson, Json.ofString, ofJson?, Json.textKey?_encode, Option.bind_some, ofName?_name]

end Align

theorem Border.carries_toJson (border : Border) : Json.Carries ofJson? border.toJson border := by
  constructor
  · exact Json.writable_ofMembers (by simp [Json.Writable.bool])
  · rw [ofJson?, toJson, Json.toRecord?_ofMembers (by simp) (by simp)]
    rfl

theorem Style.carries_toJson (style : Style) : Json.Carries ofJson? style.toJson style := by
  have halign := style.align.carries_toJson
  have hfill : Json.Carries (Json.toOption? Json.toText?)
      (Json.ofOption Json.ofString style.fill) style.fill :=
    Json.carries_ofOption fun fill _ => ⟨Json.carries_ofString fill, Json.noConfusion⟩
  have hborder : Json.Carries (Json.toOption? Border.ofJson?)
      (Json.ofOption Border.toJson style.border) style.border :=
    Json.carries_ofOption fun border _ => ⟨border.carries_toJson, Json.noConfusion⟩
  constructor
  · refine Json.writable_ofMembers ?_
    simp [Json.Writable.bool, halign.writable, hfill.writable, hborder.writable]
  · rw [ofJson?, toJson, Json.toRecord?_ofMembers (by simp) (by simp)]
    simp [Json.fieldOr?, List.lookup_cons, Json.toBool?, halign.read_eq, hfill.read_eq,
      hborder.read_eq]

namespace StoredCell

theorem carries_toJson (cell : StoredCell) : Json.Carries ofJson? cell.toJson cell := by
  have hinput := Json.carries_ofString cell.input
  obtain ⟨input, style⟩ := cell
  cases style with
  | none =>
      constructor
      · refine Json.writable_ofMembers ?_
        simp [hinput.writable]
      · rw [ofJson?, toJson, Json.toRecord?_ofMembers (by simp) (by simp)]
        simp [Json.fieldOr?, List.lookup_cons, hinput.read_eq]
  | some style =>
      have hstyle : Json.Carries (Json.toOption? Style.ofJson?) style.toJson (some style) :=
        show Json.Carries _ (Json.ofOption Style.toJson (some style)) _ from
          Json.carries_ofOption fun style _ => ⟨style.carries_toJson, Json.noConfusion⟩
      constructor
      · refine Json.writable_ofMembers ?_
        simp [hinput.writable, hstyle.writable]
      · rw [ofJson?, toJson, Json.toRecord?_ofMembers (by simp) (by simp)]
        simp [Json.fieldOr?, List.lookup_cons, hinput.read_eq, hstyle.read_eq]

end StoredCell

namespace StoredTable

theorem writable_toJson (table : StoredTable) : table.toJson.Writable := by
  refine Json.writable_ofMembers ?_
  simp [Json.Writable.bool, Json.writable_ofNat, (Json.carries_ofString _).writable]

theorem carries_toJson {table : StoredTable} (h : table.id < Json.Number.limit) :
    Json.Carries ofJson? table.toJson table := by
  have hid := Json.carries_ofNat h
  have htext := fun text => Json.carries_ofString text
  refine ⟨table.writable_toJson, ?_⟩
  rw [ofJson?, toJson, Json.toRecord?_ofMembers (by simp) (by simp)]
  simp [Json.field?, Json.fieldOr?, List.lookup_cons, Json.toBool?, hid.read_eq, (htext _).read_eq]

end StoredTable

/-- Widths or heights that are all finite. -/
def AllFinite (sizes : Std.ExtTreeMap Nat Float) : Prop :=
  ∀ (place : Nat) (size : Float), sizes[place]? = some size → size.isFinite = true

instance (sizes : Std.ExtTreeMap Nat Float) : Decidable (AllFinite sizes) :=
  decidable_of_iff (∀ entry ∈ sizes.toList, entry.2.isFinite = true)
    ⟨fun h place size hsize =>
        h (place, size) (Std.ExtTreeMap.mem_toList_iff_getElem?_eq_some.mpr hsize),
      fun h entry hentry =>
        h entry.1 entry.2 (Std.ExtTreeMap.mem_toList_iff_getElem?_eq_some.mp hentry)⟩

namespace StoredSheet

variable {sheet : StoredSheet}

/-- A stored sheet whose natural numbers stay below the limit. -/
structure IsPrintable (sheet : StoredSheet) : Prop where
  columns_lt : sheet.columns < Json.Number.limit
  rows_lt : sheet.rows < Json.Number.limit
  columnWidths : ∀ (col : Nat) (width : Float), sheet.columnWidths[col]? = some width →
    col < Json.Number.limit
  rowHeights : ∀ (row : Nat) (height : Float), sheet.rowHeights[row]? = some height →
    row < Json.Number.limit
  columnFilters : ∀ (col : Nat) (texts : Std.ExtTreeSet String),
    sheet.columnFilters[col]? = some texts → col < Json.Number.limit
  tables : ∀ table ∈ sheet.tables, table.id < Json.Number.limit

/-- Reads widths or heights. -/
def sizesOfJson? (json : Json) : Option (Std.ExtTreeMap Nat Float) :=
  json.toMap? Json.natKey? Json.toFloat?

/-- The values that are written for widths or heights. -/
def sizesJson (sizes : Std.ExtTreeMap Nat Float) : Json := Json.ofMap toString Json.ofFloat sizes

theorem carries_sizes {sizes : Std.ExtTreeMap Nat Float} (hfinite : AllFinite sizes)
    (h : ∀ (place : Nat) (size : Float), sizes[place]? = some size → place < Json.Number.limit) :
    Json.Carries sizesOfJson? (sizesJson sizes) (sizes.map fun _ => Json.reread) :=
  Json.carries_ofMap_map fun place size hsize =>
    ⟨Json.natKey?_encode (h place size hsize), Json.carries_ofFloat (hfinite place size hsize)⟩

theorem allFinite_of_sizesOfJson? {sizes found : Std.ExtTreeMap Nat Float}
    (h : sizesOfJson? (sizesJson sizes) = some found) : AllFinite sizes := by
  intro place size hsize
  obtain ⟨read, hread⟩ := Json.exists_of_toMap?_ofMap h hsize
  rw [← Json.isSome_toFloat?_ofFloat, hread]
  rfl

theorem carries_texts (texts : Std.ExtTreeSet String) :
    Json.Carries textsOfJson? (Json.ofList Json.ofString texts.toList) texts := by
  have hlist : Json.Carries (Json.toList? Json.toText?)
      (Json.ofList Json.ofString texts.toList) texts.toList :=
    Json.carries_ofList fun text _ => Json.carries_ofString text
  refine ⟨hlist.writable, ?_⟩
  rw [textsOfJson?, hlist.read_eq, Option.map_some, SortedSet.ofList_toList]

theorem fieldOr?_unlessEmpty {α : Type} {read : Json → Option α} {json : Json}
    {record : List (String × Json)} {name : String} {isEmpty : Bool} {standard : α}
    (hlookup : record.lookup name = if isEmpty then none else some json)
    (hempty : isEmpty = true → read json = some standard) :
    Json.fieldOr? record name read standard = read json := by
  cases isEmpty with
  | true => rw [Json.fieldOr?, hlookup, if_pos rfl, hempty rfl]
  | false => rw [Json.fieldOr?, hlookup, if_neg Bool.false_ne_true]

theorem lookup_unlessEmpty (isEmpty : Bool) (name other : String) (json : Json) :
    (unlessEmpty isEmpty name json).lookup other =
      if other = name then if isEmpty then none else some json else none := by
  cases isEmpty with
  | true => simp [unlessEmpty]
  | false =>
      by_cases h : other = name
      · simp [unlessEmpty, h]
      · simp [unlessEmpty, List.lookup_cons, h, beq_false_of_ne h]

theorem keys_unlessEmpty (isEmpty : Bool) (name : String) (json : Json) :
    ((unlessEmpty isEmpty name json).map Prod.fst).Sublist [name] := by
  cases isEmpty <;> simp [unlessEmpty]

theorem writable_unlessEmpty {isEmpty : Bool} {name : String} {json : Json} (h : json.Writable) :
    ∀ member ∈ unlessEmpty isEmpty name json, member.2.Writable := by
  cases isEmpty <;> simp [unlessEmpty, h]

theorem carries_cells (cells : Std.ExtTreeMap String StoredCell) :
    Json.Carries (Json.toMap? Json.textKey? StoredCell.ofJson?)
      (Json.ofMap id StoredCell.toJson cells) cells :=
  Json.carries_ofMap fun name cell _ => ⟨Json.textKey?_encode name, cell.carries_toJson⟩

theorem writable_toJson (sheet : StoredSheet) : sheet.toJson.Writable := by
  have hsizes : ∀ sizes, (sizesJson sizes).Writable := fun sizes =>
    Json.writable_ofMap fun _ size _ => Json.writable_ofFloat size
  have hfilters : (Json.ofMap toString (fun texts => Json.ofList Json.ofString texts.toList)
      sheet.columnFilters).Writable :=
    Json.writable_ofMap fun _ texts _ => (carries_texts texts).writable
  have htables : (Json.ofList StoredTable.toJson sheet.tables).Writable := by
    refine .array fun json hjson => ?_
    obtain ⟨table, -, rfl⟩ := List.mem_map.mp hjson
    exact table.writable_toJson
  refine Json.writable_ofMembers ?_
  simp only [List.forall_mem_append]
  refine ⟨⟨⟨⟨?_, writable_unlessEmpty (hsizes _)⟩, writable_unlessEmpty (hsizes _)⟩,
    writable_unlessEmpty hfilters⟩, writable_unlessEmpty htables⟩
  simp [(Json.carries_ofString sheet.name).writable, Json.writable_ofNat,
    (carries_cells sheet.cells).writable]

/-- A sheet is read back from what is written for it, with its widths and heights as they are
read. -/
theorem ofJson?_toJson (h : sheet.IsPrintable) :
    ofJson? sheet.toJson = (sizesOfJson? (sizesJson sheet.columnWidths)).bind fun widths =>
      (sizesOfJson? (sizesJson sheet.rowHeights)).bind fun heights =>
        some { sheet with columnWidths := widths, rowHeights := heights } := by
  have hname := Json.carries_ofString sheet.name
  have hcolumns := Json.carries_ofNat h.columns_lt
  have hrows := Json.carries_ofNat h.rows_lt
  have hfilters : Json.Carries (Json.toMap? Json.natKey? textsOfJson?)
      (Json.ofMap toString (fun texts => Json.ofList Json.ofString texts.toList)
        sheet.columnFilters) sheet.columnFilters :=
    Json.carries_ofMap fun col texts htexts =>
      ⟨Json.natKey?_encode (h.columnFilters col texts htexts), carries_texts texts⟩
  have htables : Json.Carries (Json.toList? StoredTable.ofJson?)
      (Json.ofList StoredTable.toJson sheet.tables) sheet.tables :=
    Json.carries_ofList fun table htable => StoredTable.carries_toJson (h.tables table htable)
  have hnone : sizesOfJson? (sizesJson ∅) = some ∅ := rfl
  have hsizes : ∀ sizes : Std.ExtTreeMap Nat Float, sizes.isEmpty = true →
      Json.toMap? Json.natKey? Json.toFloat? (Json.ofMap toString Json.ofFloat sizes) = some ∅ :=
    fun sizes hempty => Std.ExtTreeMap.isEmpty_iff.mp hempty ▸ hnone
  rw [ofJson?, toJson, Json.toRecord?_ofMembers (by simp)]
  · simp only [Option.bind_eq_bind, Option.bind_some]
    rw [Json.field?_eq_some (by simp) hname,
      Json.field?_eq_some (by simp [List.lookup_cons]) hcolumns,
      Json.field?_eq_some (by simp [List.lookup_cons]) hrows,
      Json.fieldOr?_eq_some (by simp [List.lookup_cons]) (carries_cells sheet.cells),
      fieldOr?_unlessEmpty (by simp [List.lookup_cons, List.lookup_append, lookup_unlessEmpty])
        (hsizes sheet.columnWidths),
      fieldOr?_unlessEmpty (by simp [List.lookup_cons, List.lookup_append, lookup_unlessEmpty])
        (hsizes sheet.rowHeights),
      fieldOr?_unlessEmpty (by simp [List.lookup_cons, List.lookup_append, lookup_unlessEmpty])
        fun h => hfilters.read_eq.trans (congrArg some (Std.ExtTreeMap.isEmpty_iff.mp h)),
      fieldOr?_unlessEmpty (by simp [List.lookup_cons, List.lookup_append, lookup_unlessEmpty])
        fun h => htables.read_eq.trans (congrArg some (List.isEmpty_iff.mp h)),
      hfilters.read_eq, htables.read_eq]
    rfl
  · simp only [List.map_append]
    exact ((((List.Sublist.refl ["name", "columnCount", "rowCount", "cells"]).append
      (keys_unlessEmpty _ _ _)).append (keys_unlessEmpty _ _ _)).append
        (keys_unlessEmpty _ _ _)).append (keys_unlessEmpty _ _ _)

/-- The sheet with its widths and heights as they are read. -/
def reread (sheet : StoredSheet) : StoredSheet :=
  { sheet with
    columnWidths := sheet.columnWidths.map fun _ => Json.reread
    rowHeights := sheet.rowHeights.map fun _ => Json.reread }

theorem ofJson?_toJson_of_allFinite (h : sheet.IsPrintable) (hwidths : AllFinite sheet.columnWidths)
    (hheights : AllFinite sheet.rowHeights) : ofJson? sheet.toJson = some sheet.reread := by
  rw [ofJson?_toJson h, (carries_sizes hwidths h.columnWidths).read_eq,
    (carries_sizes hheights h.rowHeights).read_eq]
  rfl

theorem allFinite_of_ofJson? (h : sheet.IsPrintable) {found : StoredSheet}
    (hfound : ofJson? sheet.toJson = some found) :
    AllFinite sheet.columnWidths ∧ AllFinite sheet.rowHeights := by
  rw [ofJson?_toJson h] at hfound
  obtain ⟨widths, hwidths, hfound⟩ := Option.bind_eq_some_iff.mp hfound
  obtain ⟨heights, hheights, -⟩ := Option.bind_eq_some_iff.mp hfound
  exact ⟨allFinite_of_sizesOfJson? hwidths, allFinite_of_sizesOfJson? hheights⟩

end StoredSheet

namespace StoredWorkbook

variable {workbook : StoredWorkbook}

theorem writable_toJson (workbook : StoredWorkbook) : workbook.toJson.Writable := by
  have hsheets : (Json.ofList StoredSheet.toJson workbook.sheets).Writable := by
    refine .array fun json hjson => ?_
    obtain ⟨sheet, -, rfl⟩ := List.mem_map.mp hjson
    exact sheet.writable_toJson
  refine Json.writable_ofMembers ?_
  simp [(Json.carries_ofString workbook.name).writable, Json.writable_ofNat, hsheets]

theorem ofJson?_text (hactive : workbook.active < Json.Number.limit) :
    (Json.ofText? workbook.toJson.text).bind ofJson? =
      (workbook.sheets.mapM fun sheet => StoredSheet.ofJson? sheet.toJson).bind fun sheets =>
        some { workbook with sheets := sheets } := by
  have hname := Json.carries_ofString workbook.name
  have hnumber := Json.carries_ofNat hactive
  have hsheets : Json.toList? StoredSheet.ofJson?
      (Json.ofList StoredSheet.toJson workbook.sheets) =
        workbook.sheets.mapM fun sheet => StoredSheet.ofJson? sheet.toJson :=
    List.mapM_map
  rw [workbook.writable_toJson.ofText?_text, Option.bind_some, ofJson?, toJson,
    Json.toRecord?_ofMembers (by simp) (by simp)]
  simp only [Option.bind_eq_bind, Option.bind_some]
  rw [Json.fieldOr?_eq_some (by simp) hname,
    Json.fieldOr?_eq_some (by simp [List.lookup_cons]) hnumber]
  simp [Json.field?, List.lookup_cons, hsheets]

end StoredWorkbook

end Spreadsheet
