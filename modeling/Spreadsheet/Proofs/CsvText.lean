import Spreadsheet.Csv

namespace Spreadsheet.Csv

variable {inQuotes : Bool} {field : Field} {before : List String} {cs rest : List Char} {c : Char}

theorem readFrom_twoQuotes : readFrom true field before ('"' :: '"' :: rest) =
    readFrom true (field.push '"') before rest := by
  rw [readFrom.eq_def]
  simp

theorem readFrom_close (hrest : rest.head? ≠ some '"') :
    readFrom true field before ('"' :: rest) = readFrom false field before rest := by
  rw [readFrom.eq_def]
  cases rest with
  | nil => simp
  | cons c rest =>
      have hc : c ≠ '"' := by simpa using hrest
      simp [hc]

theorem readFrom_inside (hc : c ≠ '"') : readFrom true field before (c :: rest) =
    readFrom true (field.push c) before rest := by
  rw [readFrom.eq_def]
  simp [hc]

theorem readFrom_open : readFrom false field before ('"' :: rest) =
    readFrom true { field with quoted := true } before rest := by
  rw [readFrom.eq_def]
  simp

theorem readFrom_comma : readFrom false field before (',' :: rest) =
    readFrom false .start (field.text :: before) rest := by
  rw [readFrom.eq_def]
  simp

theorem readFrom_newline : readFrom false field before ('\n' :: rest) =
    (field.text :: before).reverse :: readFrom false .start [] rest := by
  rw [readFrom.eq_def]
  simp

theorem readFrom_outside (hquote : c ≠ '"') (hcomma : c ≠ ',') (hend : Text.isLineEnd c = false) :
    readFrom false field before (c :: rest) = readFrom false (field.push c) before rest := by
  simp only [Text.isLineEnd, Bool.or_eq_false_iff, beq_eq_false_iff_ne] at hend
  rw [readFrom.eq_def]
  grind

theorem readFrom_quoted (hrest : rest.head? ≠ some '"') :
    readFrom true field before (doubleQuotes cs ++ '"' :: rest) =
      readFrom false { field with chars := cs.reverse ++ field.chars } before rest := by
  induction cs generalizing field with
  | nil => exact readFrom_close hrest
  | cons c cs ih =>
      have hpush : { field.push c with chars := cs.reverse ++ (field.push c).chars } =
          { field with chars := (c :: cs).reverse ++ field.chars } := by
        simp [Field.push]
      rw [← hpush, ← ih]
      by_cases hc : c = '"'
      · subst hc
        exact readFrom_twoQuotes
      · have hdoubled : doubleQuotes (c :: cs) = c :: doubleQuotes cs := by
          simp [doubleQuotes, hc]
        rw [hdoubled]
        exact readFrom_inside hc

theorem readFrom_bare (hplain : ∀ c ∈ cs, c ≠ '"' ∧ c ≠ ',' ∧ Text.isLineEnd c = false) :
    readFrom false field before (cs ++ rest) =
      readFrom false { field with chars := cs.reverse ++ field.chars } before rest := by
  induction cs generalizing field with
  | nil => rfl
  | cons c cs ih =>
      obtain ⟨hquote, hcomma, hend⟩ := hplain c List.mem_cons_self
      rw [List.cons_append, readFrom_outside hquote hcomma hend,
        ih fun other hother => hplain other (List.mem_cons_of_mem _ hother)]
      simp [Field.push]

theorem readFrom_escape (text : String) (hrest : rest.head? ≠ some '"') : ∃ field : Field,
    field.text = text ∧ readFrom false .start before ((escape text).toList ++ rest) =
      readFrom false field before rest := by
  unfold escape
  by_cases hquotes : needsQuotes text.toList = true
  · refine ⟨⟨text.toList.reverse ++ [], true⟩, ?_, ?_⟩
    · simp [Field.text]
    · rw [if_pos hquotes, String.toList_ofList, List.cons_append, List.append_assoc, readFrom_open]
      exact readFrom_quoted hrest
  · refine ⟨⟨text.toList.reverse ++ [], false⟩, ?_, ?_⟩
    · have htrim : Text.trimChars text.toList = text.toList := by
        simp only [needsQuotes, Bool.or_eq_true, not_or] at hquotes
        simpa using hquotes.2
      simp [Field.text, htrim]
    · rw [if_neg hquotes]
      refine readFrom_bare fun c hc => ?_
      simp only [needsQuotes, Bool.or_eq_true, not_or, List.any_eq_true, not_exists, not_and]
        at hquotes
      simpa [and_comm, and_assoc] using hquotes.1 c hc

/-- What the text of a record is followed by. -/
inductive LineEnd where
  | newLine
  | returnNewLine

def LineEnd.chars : LineEnd → List Char
  | .newLine => ['\n']
  | .returnNewLine => ['\r', '\n']

/-- Writes records with the line ends that are chosen for them. -/
def writeLines (rows : List (List String × LineEnd)) : String :=
  String.join (rows.map fun (fields, lineEnd) =>
    writeFields fields ++ String.ofList lineEnd.chars)

variable {lineEnd : LineEnd}

theorem head?_lineEnd : (lineEnd.chars ++ rest).head? ≠ some '"' := by
  cases lineEnd <;> simp [LineEnd.chars]

theorem readFrom_lineEnd : readFrom false field before (lineEnd.chars ++ rest) =
    (field.text :: before).reverse :: readFrom false .start [] rest := by
  cases lineEnd with
  | newLine => exact readFrom_newline
  | returnNewLine =>
      unfold LineEnd.chars
      rw [readFrom.eq_def]
      simp

theorem readFrom_writeFields {fields : List String} (hne : fields ≠ []) :
    readFrom false .start before ((writeFields fields).toList ++ (lineEnd.chars ++ rest)) =
      (before.reverse ++ fields) :: readFrom false .start [] rest := by
  unfold writeFields
  induction fields generalizing before with
  | nil => exact absurd rfl hne
  | cons text fields ih =>
      cases fields with
      | nil =>
          obtain ⟨field, htext, hread⟩ := @readFrom_escape before (lineEnd.chars ++ rest) text
            head?_lineEnd
          rw [List.map_singleton, String.intercalate_singleton, hread, readFrom_lineEnd, htext]
          simp
      | cons next fields =>
          obtain ⟨field, htext, hread⟩ := @readFrom_escape before
            (',' :: ((",".intercalate ((next :: fields).map escape)).toList ++
              (lineEnd.chars ++ rest))) text (by simp)
          have hsplit : (",".intercalate ((text :: next :: fields).map escape)).toList ++
                (lineEnd.chars ++ rest) =
              (escape text).toList ++
                ',' :: ((",".intercalate ((next :: fields).map escape)).toList ++
                  (lineEnd.chars ++ rest)) := by
            rw [List.map_cons, List.map_cons, String.intercalate_cons_cons]
            simp
          rw [hsplit, hread, readFrom_comma, htext, ih (by simp)]
          simp

/-- Lines that were written are read to the end, each up to its own line end. -/
theorem readFrom_writeLines {rows : List (List String × LineEnd)} (hne : ∀ row ∈ rows, row.1 ≠ []) :
    readFrom false .start [] (writeLines rows).toList = rows.map Prod.fst := by
  unfold writeLines
  induction rows with
  | nil =>
      rw [List.map_nil, String.join_nil, readFrom.eq_def]
      rfl
  | cons row rows ih =>
      rw [List.map_cons, String.join_cons, String.toList_append, String.toList_append,
        String.toList_ofList, List.append_assoc]
      refine (readFrom_writeFields (hne row List.mem_cons_self)).trans ?_
      exact congrArg (row.1 :: ·) (ih fun other hother => hne other (List.mem_cons_of_mem _ hother))

theorem write_eq_writeLines (rows : List (List String)) :
    write rows = writeLines (rows.map fun fields => (fields, .newLine)) := by
  unfold write writeLines
  rw [List.map_map]
  rfl

theorem records_write {rows : List (List String)} (hne : ∀ fields ∈ rows, fields ≠ []) :
    records (write rows) = rows := by
  have hread := @readFrom_writeLines (rows.map fun fields => (fields, .newLine))
    (by simpa using hne)
  rw [records, write_eq_writeLines, hread, List.map_map]
  exact List.map_id rows

theorem ne_nil_of_mem_readFrom {fields : List String}
    (h : fields ∈ readFrom inQuotes field before cs) : fields ≠ [] := by
  fun_induction readFrom inQuotes field before cs with
  | case1 => simp at h
  | case2 => simp_all
  | case8 | case9 =>
      -- a line end closes the record with the field in front of it
      rename_i ih
      rcases List.mem_cons.mp h with rfl | hrest
      · simp
      · exact ih hrest
  | _ => simp_all

/-- Records are read as they were written, whichever line end is behind each of them, exactly if
each of them has a field. -/
theorem records_writeLines_iff (rows : List (List String × LineEnd)) :
    records (writeLines rows) = rows.map Prod.fst ↔ ∀ row ∈ rows, row.1 ≠ [] := by
  constructor
  · intro h row hrow
    have hread : row.1 ∈ records (writeLines rows) := h ▸ List.mem_map_of_mem hrow
    exact ne_nil_of_mem_readFrom hread
  · exact readFrom_writeLines

/-- A line end in quotes belongs to its field, and one that follows no field ends an empty one. -/
example : records "\"a\r\n\",b\r\n\n,\n" = [["a\r\n", "b"], [""], ["", ""]] := by decide +kernel

end Spreadsheet.Csv
