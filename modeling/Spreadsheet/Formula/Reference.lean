import Spreadsheet.Range
import Spreadsheet.Text.WordChar

namespace Spreadsheet

/-- What a word refers to on a sheet. -/
inductive Reference where
  | cell (position : Position)
  | range (range : Range)
deriving DecidableEq, Repr

namespace Reference

/-- Reads the name of a cell on a sheet. -/
def cell? (extent : Extent) (name : String) : Option Position :=
  (Position.ofName? name).filter extent.contains

/-- Reads the name of a cell, or two names joined by a colon. All cells named have to lie on the
sheet. -/
def ofText? (extent : Extent) (text : String) : Option Reference :=
  match Text.splitAt? ':' text with
  | some (a, b) => do
    let p ← cell? extent a
    let q ← cell? extent b
    some (.range (Range.spanning p q))
  | none => (cell? extent text).map .cell

end Reference

namespace Mention

/-- Splits off letters and then digits, if there are both. -/
def splitName? (cs : List Char) : Option (List Char × List Char) :=
  let letters := cs.takeWhile Char.isAlpha
  let rest := cs.dropWhile Char.isAlpha
  let digits := rest.takeWhile Char.isDigit
  if letters.isEmpty || digits.isEmpty then none
  else some (letters ++ digits, rest.dropWhile Char.isDigit)

/-- Whether a word ends in front of these characters. -/
def endsWord : List Char → Bool
  | [] => true
  | c :: _ => !Text.isWordChar c

/-- Splits off a second name after a colon, if a word ends behind it. -/
def splitSecond? : List Char → Option (List Char × List Char)
  | ':' :: rest => (splitName? rest).filter fun second => endsWord second.2
  | _ => none

/-- Splits off a word shaped like a reference, in its longest form. -/
def split? (cs : List Char) : Option (List Char × List Char) := do
  let (first, rest) ← splitName? cs
  match splitSecond? rest with
  | some (second, rest) => some (first ++ ':' :: second, rest)
  | none => if endsWord rest then some (first, rest) else none

theorem length_of_splitName? {cs word rest : List Char} (h : splitName? cs = some (word, rest)) :
    rest.length < cs.length := by
  unfold splitName? at h
  simp only [Option.ite_none_left_eq_some, Option.some.injEq, Prod.mk.injEq] at h
  obtain ⟨hne, -, rfl⟩ := h
  have h₁ := congrArg List.length (List.takeWhile_append_dropWhile (p := Char.isAlpha) (l := cs))
  have h₂ := congrArg List.length
    (List.takeWhile_append_dropWhile (p := Char.isDigit) (l := cs.dropWhile Char.isAlpha))
  rw [List.length_append] at h₁ h₂
  have h₃ : 0 < (cs.takeWhile Char.isAlpha).length := by
    rw [List.length_pos_iff]
    intro hnil
    simp [hnil] at hne
  omega

theorem length_of_split? {cs word rest : List Char} (h : split? cs = some (word, rest)) :
    rest.length < cs.length := by
  unfold split? at h
  cases hfirst : splitName? cs with
  | none => simp [hfirst] at h
  | some first =>
    obtain ⟨name, after⟩ := first
    have hafter := length_of_splitName? hfirst
    simp only [hfirst, Option.bind_eq_bind, Option.bind_some] at h
    cases hsecond : splitSecond? after with
    | none =>
      simp only [hsecond] at h
      split at h
      · simp only [Option.some.injEq, Prod.mk.injEq] at h
        rw [← h.2]
        exact hafter
      · simp at h
    | some second =>
      obtain ⟨name', after'⟩ := second
      simp only [hsecond, Option.some.injEq, Prod.mk.injEq] at h
      rw [← h.2]
      unfold splitSecond? at hsecond
      split at hsecond
      · rename_i tail
        rw [Option.filter_eq_some_iff] at hsecond
        have := length_of_splitName? hsecond.1
        simp only [List.length_cons] at hafter
        omega
      · simp at hsecond

/-- The words of a text that are shaped like references, from left to right. A word starts where
the character before it does not continue a word. -/
def scan (insideWord : Bool) (cs : List Char) : List String :=
  match cs with
  | [] => []
  | c :: rest =>
    if insideWord then scan (Text.isWordChar c) rest
    else
      match _h : split? (c :: rest) with
      | some (word, after) => String.ofList word :: scan true after
      | none => scan (Text.isWordChar c) rest
termination_by cs.length
decreasing_by
  · simp
  · exact length_of_split? _h
  · simp

end Mention

/-- The references that a text mentions, and the words that are shaped like references without being
any on the sheet. -/
structure Mentions where
  cells : Std.ExtTreeSet Position
  ranges : Std.ExtTreeSet Range
  /-- The other words, in the order of the text. -/
  literals : List String

namespace Mentions

/-- Sorts words by what they refer to. -/
def ofWords (extent : Extent) (words : List String) : Mentions where
  cells := Std.ExtTreeSet.ofList <| words.filterMap fun word =>
    match Reference.ofText? extent word with
    | some (.cell p) => some p
    | _ => none
  ranges := Std.ExtTreeSet.ofList <| words.filterMap fun word =>
    match Reference.ofText? extent word with
    | some (.range r) => some r
    | _ => none
  literals := words.filter fun word => (Reference.ofText? extent word).isNone

def ofText (extent : Extent) (text : String) : Mentions :=
  ofWords extent (Mention.scan false text.toList)

/-- All cells mentioned, those of the ranges included. -/
def allCells (m : Mentions) : Std.ExtTreeSet Position :=
  m.ranges.foldl (fun cells r => cells.insertMany r.cells) m.cells

end Mentions

end Spreadsheet
