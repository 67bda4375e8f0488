import Mathlib.Data.List.TakeDrop
import Mathlib.Data.List.TakeWhile
import Spreadsheet.Formula.Reference
import Spreadsheet.Text.Blank

namespace Spreadsheet

namespace Text

theorem isUpper_iff {c : Char} : c.isUpper = true ↔ 65 ≤ c.toNat ∧ c.toNat ≤ 90 := by
  show decide (c.val ≥ 'A'.val ∧ c.val ≤ 'Z'.val) = true ↔ _
  simp [UInt32.le_iff_toNat_le, ← Char.toNat_val]

theorem isLower_iff {c : Char} : c.isLower = true ↔ 97 ≤ c.toNat ∧ c.toNat ≤ 122 := by
  show (decide (c.val ≥ 'a'.val) && decide (c.val ≤ 'z'.val)) = true ↔ _
  simp [UInt32.le_iff_toNat_le, ← Char.toNat_val]

theorem isAlpha_iff {c : Char} : c.isAlpha = true ↔
    65 ≤ c.toNat ∧ c.toNat ≤ 90 ∨ 97 ≤ c.toNat ∧ c.toNat ≤ 122 := by
  show (c.isUpper || c.isLower) = true ↔ _
  rw [Bool.or_eq_true, isUpper_iff, isLower_iff]

theorem isDigit_iff {c : Char} : c.isDigit = true ↔ 48 ≤ c.toNat ∧ c.toNat ≤ 57 := by
  simp [Char.isDigit, UInt32.le_iff_toNat_le, ← Char.toNat_val]

theorem isAlphanum_iff {c : Char} :
    c.isAlphanum = true ↔ c.isAlpha = true ∨ c.isDigit = true := by
  simp [Char.isAlphanum]

theorem isAlpha_of_isDigit {c : Char} (h : c.isDigit = true) : c.isAlpha = false := by
  rw [isDigit_iff] at h
  rw [← Bool.not_eq_true, isAlpha_iff]
  omega

theorem isWordChar_of_isAlphanum {c : Char} (h : c.isAlphanum = true) : isWordChar c = true := by
  have hcode : c.toNat < 0x80 := by
    rw [isAlphanum_iff, isAlpha_iff, isDigit_iff] at h
    omega
  rw [isWordChar, if_pos hcode, h, Bool.true_or]

theorem not_isAlphanum_of_not_isWordChar {c : Char} (h : isWordChar c = false) :
    c.isAlphanum = false := by
  rw [← Bool.not_eq_true] at h ⊢
  exact mt isWordChar_of_isAlphanum h

/-- The code points of white space beyond ASCII. -/
def wideBlanks : List Nat :=
  [0x85, 0xA0, 0x1680, 0x2000, 0x2001, 0x2002, 0x2003, 0x2004, 0x2005, 0x2006, 0x2007, 0x2008,
    0x2009, 0x200A, 0x2028, 0x2029, 0x202F, 0x205F, 0x3000]

theorem mem_wideBlanks_of_isBlank {c : Char} (h : isBlank c = true) (hcode : ¬ c.toNat < 0x80) :
    c.toNat ∈ wideBlanks := by
  simp only [isBlank, Bool.or_eq_true, Bool.and_eq_true, decide_eq_true_eq, beq_iff_eq] at h
  simp only [wideBlanks, List.mem_cons, List.not_mem_nil, or_false]
  omega

theorem wideBlanks_outside :
    wordRanges.toList.all (fun range =>
      wideBlanks.all fun n => Nat.blt n range.1 || Nat.blt range.2 n) = true := by
  decide +kernel

theorem any_eq_false_of_outside {ranges : Array (Nat × Nat)} {n : Nat}
    (h : ∀ range ∈ ranges.toList, n < range.1 ∨ range.2 < n) :
    ranges.any (fun range => decide (range.1 ≤ n) && decide (n ≤ range.2)) = false := by
  -- said of any ranges, because the table of word characters itself is slow to rewrite in
  rw [← Array.any_toList, List.any_eq_false]
  intro range hrange
  have houtside := h range hrange
  simp only [Bool.and_eq_true, decide_eq_true_eq, not_and]
  omega

theorem isWordChar_of_isBlank {c : Char} (h : isBlank c = true) : isWordChar c = false := by
  unfold isWordChar
  split
  · simp only [isBlank, Bool.or_eq_true, Bool.and_eq_true, decide_eq_true_eq, beq_iff_eq] at h
    have hword : c.isAlphanum = false := by
      rw [← Bool.not_eq_true, isAlphanum_iff, isAlpha_iff, isDigit_iff]
      omega
    have hscore : c ≠ '_' := by
      rintro rfl
      simp at h
    simp [hword, hscore]
  · rename_i hcode
    have hblank := mem_wideBlanks_of_isBlank h hcode
    refine any_eq_false_of_outside fun range hrange => ?_
    have hrow := List.all_eq_true.mp wideBlanks_outside range hrange
    simpa only [Bool.or_eq_true, Nat.blt_eq] using List.all_eq_true.mp hrow _ hblank

theorem takeWhile_append_of_head {p : Char → Bool} {after : List Char}
    (h : ∀ c ∈ after.head?, p c = false) (word : List Char) :
    (word ++ after).takeWhile p = word.takeWhile p := by
  induction word with
  | nil => cases after <;> simp_all
  | cons c word ih => simp only [List.cons_append, List.takeWhile_cons, ih]

theorem dropWhile_append_of_head {p : Char → Bool} {after : List Char}
    (h : ∀ c ∈ after.head?, p c = false) (word : List Char) :
    (word ++ after).dropWhile p = word.dropWhile p ++ after := by
  induction word with
  | nil => cases after <;> simp_all
  | cons c word ih =>
      simp only [List.cons_append, List.dropWhile_cons, ih]
      split <;> simp

theorem toList_of_splitAt? {separator : Char} {text a b : String}
    (h : splitAt? separator text = some (a, b)) :
    text.toList = a.toList ++ separator :: b.toList := by
  unfold splitAt? at h
  rw [List.span_eq_takeWhile_dropWhile] at h
  have hwhole := List.takeWhile_append_dropWhile (p := (· != separator)) (l := text.toList)
  split at h
  · rename_i before c after heq
    obtain ⟨rfl, hafter⟩ := Prod.mk.inj heq
    obtain ⟨rfl, rfl⟩ := Prod.mk.inj (Option.some.inj h)
    have hc : c = separator := by
      have := List.head?_dropWhile_not (· != separator) text.toList
      simpa [hafter] using this
    rw [hafter, hc] at hwhole
    rw [String.toList_ofList, String.toList_ofList]
    exact hwhole.symm
  · simp at h

theorem splitAt?_append {separator : Char} {a : String} (b : String)
    (h : separator ∉ a.toList) :
    splitAt? separator (a ++ separator.toString ++ b) = some (a, b) := by
  have hbefore : ∀ c ∈ a.toList, (c != separator) = true := by
    intro c hc
    simpa using fun heq : c = separator => h (heq ▸ hc)
  unfold splitAt?
  rw [List.span_eq_takeWhile_dropWhile, String.toList_append, String.toList_append,
    List.append_assoc, List.takeWhile_append_of_pos hbefore, List.dropWhile_append_of_pos hbefore]
  simp

end Text

namespace Mention

variable {after word rest : List Char} {c : Char}

/-- No word goes on into these characters. -/
def Quiet (after : List Char) : Prop :=
  ∀ c ∈ after.head?, Text.isWordChar c = false ∧ c ≠ ':'

theorem splitName?_append (h : ∀ c ∈ after.head?, c.isAlphanum = false) (word : List Char) :
    splitName? (word ++ after) = (splitName? word).map fun s => (s.1, s.2 ++ after) := by
  have halpha : ∀ c ∈ after.head?, c.isAlpha = false := fun c hc => by
    have := h c hc
    simp_all [Char.isAlphanum]
  have hdigit : ∀ c ∈ after.head?, c.isDigit = false := fun c hc => by
    have := h c hc
    simp_all [Char.isAlphanum]
  unfold splitName?
  simp only [Text.takeWhile_append_of_head halpha, Text.dropWhile_append_of_head halpha,
    Text.takeWhile_append_of_head hdigit, Text.dropWhile_append_of_head hdigit]
  split <;> simp

theorem Quiet.not_isAlphanum (h : Quiet after) : ∀ c ∈ after.head?, c.isAlphanum = false :=
  fun c hc => Text.not_isAlphanum_of_not_isWordChar (h c hc).1

theorem Quiet.endsWord_append (h : Quiet after) (word : List Char) :
    endsWord (word ++ after) = endsWord word := by
  cases word with
  | nil =>
      cases after with
      | nil => rfl
      | cons c after => simp [endsWord, (h c (by simp)).1]
  | cons c word => rfl

theorem Quiet.splitSecond?_append (h : Quiet after) (word : List Char) :
    splitSecond? (word ++ after) = (splitSecond? word).map fun s => (s.1, s.2 ++ after) := by
  cases word with
  | nil =>
      unfold splitSecond?
      split
      · rename_i rest heq
        rw [List.nil_append] at heq
        exact absurd rfl (h ':' (by simp [heq])).2
      · rfl
  | cons c word =>
      by_cases hc : c = ':'
      · subst hc
        rw [List.cons_append, splitSecond?, splitSecond?,
          splitName?_append h.not_isAlphanum]
        cases splitName? word with
        | none => rfl
        | some second =>
            simp only [Option.map_some, Option.filter_some, h.endsWord_append]
            split <;> rfl
      · rw [splitSecond?, splitSecond?]
        · rfl
        · intro rest heq
          exact hc (List.cons.inj heq).1
        · intro rest heq
          exact hc (List.cons.inj heq).1

theorem Quiet.split?_append (h : Quiet after) (word : List Char) :
    split? (word ++ after) = (split? word).map fun s => (s.1, s.2 ++ after) := by
  unfold split?
  rw [splitName?_append h.not_isAlphanum]
  cases splitName? word with
  | none => rfl
  | some first =>
      simp only [Option.map_some, Option.bind_eq_bind, Option.bind_some]
      rw [h.splitSecond?_append, h.endsWord_append]
      cases splitSecond? first.2 with
      | none =>
          simp only [Option.map_none]
          split <;> rfl
      | some second => rfl

theorem scan_true (c : Char) (rest : List Char) :
    scan true (c :: rest) = scan (Text.isWordChar c) rest := by
  rw [scan, if_pos rfl]

theorem scan_of_split?_eq_none (h : split? (c :: rest) = none) :
    scan false (c :: rest) = scan (Text.isWordChar c) rest := by
  rw [scan, if_neg (by simp)]
  split
  · rename_i hsplit
    simp [h] at hsplit
  · rfl

theorem scan_of_split?_eq_some {cs : List Char} (h : split? cs = some (word, after)) :
    scan false cs = String.ofList word :: scan true after := by
  cases cs with
  | nil => cases h
  | cons c rest =>
      rw [scan, if_neg (by simp)]
      split
      · rename_i hsplit
        obtain ⟨rfl, rfl⟩ := Prod.mk.inj (Option.some.inj (h.symm.trans hsplit))
        rfl
      · rename_i hsplit
        simp [h] at hsplit

theorem split?_eq_none (h : c.isAlpha = false) : split? (c :: rest) = none := by
  have hname : splitName? (c :: rest) = none := by simp [splitName?, h]
  simp [split?, hname]

theorem scan_of_not_isAlpha {insideWord : Bool} (h : c.isAlpha = false) :
    scan insideWord (c :: rest) = scan (Text.isWordChar c) rest := by
  cases insideWord with
  | true => exact scan_true c rest
  | false => exact scan_of_split?_eq_none (split?_eq_none h)

theorem scan_eq_nil {cs : List Char} {insideWord : Bool} (h : ∀ c ∈ cs, c.isAlpha = false) :
    scan insideWord cs = [] := by
  induction cs generalizing insideWord with
  | nil => rw [scan]
  | cons c cs ih =>
      rw [scan_of_not_isAlpha (h c List.mem_cons_self)]
      exact ih fun d hd => h d (List.mem_cons_of_mem c hd)

theorem scan_cons (insideWord : Bool) (h : Text.isWordChar c = false) (rest : List Char) :
    scan insideWord (c :: rest) = scan false rest := by
  have halpha : c.isAlpha = false := by
    have := Text.not_isAlphanum_of_not_isWordChar h
    simp_all [Char.isAlphanum]
  rw [scan_of_not_isAlpha halpha, h]

theorem Quiet.scan (h : Quiet after) (insideWord : Bool) :
    Mention.scan insideWord after = Mention.scan false after := by
  cases after with
  | nil => simp [Mention.scan]
  | cons c after =>
      have hc := (h c (by simp)).1
      rw [scan_cons insideWord hc, scan_cons false hc]

/-- The words of a text are those of its parts if the second part starts off every word. -/
theorem Quiet.scan_append (h : Quiet after) (insideWord : Bool) (word : List Char) :
    Mention.scan insideWord (word ++ after) =
      Mention.scan insideWord word ++ Mention.scan false after := by
  fun_induction Mention.scan insideWord word with
  | case1 insideWord => rw [List.nil_append, h.scan, List.nil_append]
  | case2 c rest ih => rw [List.cons_append, scan_true, ih]
  | case3 insideWord c rest hinside name behind hsplit ih =>
      obtain rfl : insideWord = false := by simpa using hinside
      have hwhole : split? (c :: (rest ++ after)) = some (name, behind ++ after) := by
        rw [← List.cons_append, h.split?_append, hsplit]
        rfl
      rw [List.cons_append, scan_of_split?_eq_some hwhole, ih, List.cons_append]
  | case4 insideWord c rest hinside hsplit ih =>
      obtain rfl : insideWord = false := by simpa using hinside
      have hwhole : split? (c :: (rest ++ after)) = none := by
        rw [← List.cons_append, h.split?_append, hsplit]
        rfl
      rw [List.cons_append, scan_of_split?_eq_none hwhole, ih]

variable {a b cs name : List Char} {insideWord : Bool}

/-- Letters and then digits, and nothing else. -/
def IsName (word : List Char) : Prop := splitName? word = some (word, [])

theorem append_of_splitName? (h : splitName? cs = some (word, rest)) : cs = word ++ rest := by
  unfold splitName? at h
  dsimp only at h
  split at h
  · cases h
  · obtain ⟨rfl, rfl⟩ := Prod.mk.inj (Option.some.inj h)
    rw [List.append_assoc, List.takeWhile_append_dropWhile, List.takeWhile_append_dropWhile]

theorem isName_of_ofName? {p : Position}
    (h : Position.ofName? (String.ofList word) = some p) : IsName word := by
  unfold Position.ofName? at h
  simp only [String.toList_ofList, Option.ite_none_right_eq_some, Bool.and_eq_true,
    Bool.not_eq_true', decide_eq_true_eq] at h
  obtain ⟨⟨⟨⟨⟨⟨hletters, hdigits⟩, hall⟩, -⟩, -⟩, -⟩, -⟩ := h
  have hword : word = word.takeWhile Char.isUpper ++ word.dropWhile Char.isUpper :=
    List.takeWhile_append_dropWhile.symm
  have hupper : (word.takeWhile Char.isUpper).all Char.isUpper = true := List.all_takeWhile
  generalize word.takeWhile Char.isUpper = letters at *
  generalize word.dropWhile Char.isUpper = digits at *
  subst hword
  rw [List.all_eq_true] at hall hupper
  have hhead : ∀ c ∈ digits.head?, c.isAlpha = false := fun c hc =>
    Text.isAlpha_of_isDigit (hall c (List.mem_of_head? hc))
  have halpha : ∀ c ∈ letters, c.isAlpha = true := fun c hc =>
    Text.isAlpha_iff.mpr (.inl (Text.isUpper_iff.mp (hupper c hc)))
  have hkept : letters.takeWhile Char.isAlpha = letters := List.takeWhile_eq_self_iff.mpr halpha
  have hdropped : letters.dropWhile Char.isAlpha = [] := List.dropWhile_eq_nil_iff.mpr halpha
  unfold IsName splitName?
  simp only [Text.takeWhile_append_of_head hhead, Text.dropWhile_append_of_head hhead, hkept,
    hdropped, List.nil_append, List.takeWhile_eq_self_iff.mpr hall,
    List.dropWhile_eq_nil_iff.mpr hall, hletters, hdigits, Bool.or_self, Bool.false_eq_true,
    if_false]

theorem IsName.isAlphanum (h : IsName word) : ∀ c ∈ word, c.isAlphanum = true := by
  unfold IsName splitName? at h
  dsimp only at h
  split at h
  · cases h
  · obtain ⟨hword, -⟩ := Prod.mk.inj (Option.some.inj h)
    intro c hc
    rw [← hword] at hc
    rw [Text.isAlphanum_iff]
    exact (List.mem_append.mp hc).imp List.mem_takeWhile_imp List.mem_takeWhile_imp

theorem append_of_split? (h : split? cs = some (word, rest)) : cs = word ++ rest := by
  obtain ⟨⟨first, behind⟩, hfirst, hrest⟩ := Option.bind_eq_some_iff.mp h
  obtain rfl := append_of_splitName? hfirst
  dsimp only at hrest
  split at hrest
  · rename_i second after hsecond
    obtain ⟨rfl, rfl⟩ := Prod.mk.inj (Option.some.inj hrest)
    unfold splitSecond? at hsecond
    split at hsecond
    · obtain rfl := append_of_splitName? (Option.filter_eq_some_iff.mp hsecond).1
      simp
    · cases hsecond
  · obtain ⟨-, hrest⟩ := Option.ite_none_right_eq_some.mp hrest
    obtain ⟨rfl, rfl⟩ := Prod.mk.inj (Option.some.inj hrest)
    rfl

theorem IsName.splitName?_append (h : IsName a) (hrest : ∀ c ∈ rest.head?, c.isAlphanum = false) :
    splitName? (a ++ rest) = some (a, rest) := by
  rw [Mention.splitName?_append hrest, h]
  rfl

theorem IsName.split? (h : IsName a) : Mention.split? a = some (a, []) := by
  rw [Mention.split?, h]
  rfl

theorem exists_cons_of_not_isName (hword : ∀ c ∈ word, c.isAlphanum = true) (h : ¬ IsName word)
    (hsplit : splitName? word = some (name, rest)) :
    ∃ c others, rest = c :: others ∧ c.isAlphanum = true := by
  obtain rfl := append_of_splitName? hsplit
  cases rest with
  | nil =>
      rw [List.append_nil] at h hsplit
      exact absurd hsplit h
  | cons c others => exact ⟨c, others, rfl, hword c (by simp)⟩

theorem endsWord_eq_false {c : Char} (h : c.isAlphanum = true) : endsWord (c :: rest) = false := by
  rw [endsWord, Text.isWordChar_of_isAlphanum h]
  rfl

theorem ne_colon_of_isAlphanum {c : Char} (h : c.isAlphanum = true) : c ≠ ':' := by
  rintro rfl
  revert h
  decide

theorem splitSecond?_eq_none (hb : ∀ c ∈ b, c.isAlphanum = true) (h : ¬ IsName b) :
    splitSecond? (':' :: b) = none := by
  rw [splitSecond?]
  cases hsplit : splitName? b with
  | none => rfl
  | some second =>
      obtain ⟨c, others, hrest, hc⟩ := exists_cons_of_not_isName hb h hsplit
      rw [Option.filter_some, hrest, endsWord_eq_false hc]
      rfl

theorem IsName.split?_joined (h : IsName a) (h' : IsName b) :
    Mention.split? (a ++ ':' :: b) = some (a ++ ':' :: b, []) := by
  have hsecond : splitSecond? (':' :: b) = some (b, []) := by
    rw [splitSecond?, h']
    rfl
  rw [Mention.split?, h.splitName?_append (by simp)]
  simp only [Option.bind_eq_bind, Option.bind_some, hsecond]

theorem IsName.split?_first (h : IsName a) (hb : ∀ c ∈ b, c.isAlphanum = true) (h' : ¬ IsName b) :
    Mention.split? (a ++ ':' :: b) = some (a, ':' :: b) := by
  rw [Mention.split?, h.splitName?_append (by simp)]
  simp only [Option.bind_eq_bind, Option.bind_some, splitSecond?_eq_none hb h']
  rfl

theorem split?_of_not_isName (ha : ∀ c ∈ a, c.isAlphanum = true) (h : ¬ IsName a)
    (hrest : ∀ c ∈ rest.head?, c = ':') : Mention.split? (a ++ rest) = none := by
  rw [Mention.split?, splitName?_append fun c hc => by rw [hrest c hc]; rfl]
  cases hsplit : splitName? a with
  | none => rfl
  | some first =>
      obtain ⟨c, others, hbehind, hc⟩ := exists_cons_of_not_isName ha h hsplit
      have hsecond : splitSecond? (c :: (others ++ rest)) = none := by
        rw [splitSecond?]
        rintro _ heq
        exact ne_colon_of_isAlphanum hc (List.cons.inj heq).1
      simp only [Option.map_some, Option.bind_eq_bind, Option.bind_some, hbehind, List.cons_append,
        hsecond, endsWord_eq_false hc]
      rfl

theorem scan_true_append (h : ∀ c ∈ word, Text.isWordChar c = true) (rest : List Char) :
    scan true (word ++ rest) = scan true rest := by
  induction word with
  | nil => rfl
  | cons c word ih =>
      rw [List.cons_append, scan_true, h c List.mem_cons_self]
      exact ih fun d hd => h d (List.mem_cons_of_mem c hd)

theorem IsName.scan (h : IsName a) : Mention.scan false a = [String.ofList a] := by
  rw [scan_of_split?_eq_some h.split?, Mention.scan]

theorem IsName.scan_joined (h : IsName a) (h' : IsName b) :
    Mention.scan false (a ++ ':' :: b) = [String.ofList (a ++ ':' :: b)] := by
  rw [scan_of_split?_eq_some (h.split?_joined h'), Mention.scan]

theorem exists_scan_eq (ha : ∀ c ∈ a, c.isAlphanum = true) (h : ¬ IsName a)
    (hrest : ∀ c ∈ rest.head?, c = ':') :
    ∃ insideWord, scan false (a ++ rest) = scan insideWord rest := by
  have hsplit := split?_of_not_isName ha h hrest
  cases a with
  | nil => exact ⟨false, rfl⟩
  | cons c a =>
      have hword : ∀ d ∈ c :: a, Text.isWordChar d = true := fun d hd =>
        Text.isWordChar_of_isAlphanum (ha d hd)
      refine ⟨true, ?_⟩
      rw [List.cons_append] at hsplit ⊢
      rw [scan_of_split?_eq_none hsplit, hword c List.mem_cons_self]
      exact scan_true_append (fun d hd => hword d (List.mem_cons_of_mem c hd)) rest

theorem scan_of_not_isName (ha : ∀ c ∈ a, c.isAlphanum = true) (h : ¬ IsName a) :
    scan false a = [] := by
  have hhead : ∀ c ∈ ([] : List Char).head?, c = ':' := by simp
  obtain ⟨insideWord, hscan⟩ := exists_scan_eq ha h hhead
  rw [List.append_nil] at hscan
  rw [hscan, scan]

theorem scan_second (ha : ∀ c ∈ a, c.isAlphanum = true) (h : ¬ IsName a) :
    scan false (a ++ ':' :: b) = scan false b := by
  have hhead : ∀ c ∈ (':' :: b).head?, c = ':' := by simp
  obtain ⟨insideWord, hscan⟩ := exists_scan_eq ha h hhead
  rw [hscan, scan_cons insideWord (by decide)]

theorem IsName.scan_first (h : IsName a) (hb : ∀ c ∈ b, c.isAlphanum = true) (h' : ¬ IsName b) :
    Mention.scan false (a ++ ':' :: b) = [String.ofList a] := by
  rw [scan_of_split?_eq_some (h.split?_first hb h'), scan_cons true (by decide),
    scan_of_not_isName hb h']

end Mention

namespace Reference

variable {extent : Extent} {a b word : List Char} {p : Position}

theorem ofText?_of_not_mem (h : ':' ∉ word) :
    ofText? extent (String.ofList word) = (cell? extent (String.ofList word)).map .cell := by
  have hnone : Text.splitAt? ':' (String.ofList word) = none := by
    rw [Option.eq_none_iff_forall_ne_some]
    rintro ⟨a, b⟩ hsplit
    have hword := Text.toList_of_splitAt? hsplit
    rw [String.toList_ofList] at hword
    exact h (hword ▸ by simp)
  rw [ofText?, hnone]

theorem splitAt?_joined (h : ':' ∉ a) :
    Text.splitAt? ':' (String.ofList (a ++ ':' :: b)) =
      some (String.ofList a, String.ofList b) := by
  have hwhole : String.ofList (a ++ ':' :: b) =
      String.ofList a ++ (':').toString ++ String.ofList b := by
    apply String.toList_injective
    simp
  rw [hwhole]
  exact Text.splitAt?_append _ (by simpa using h)

theorem isName_of_cell? (h : cell? extent (String.ofList word) = some p) : Mention.IsName word :=
  Mention.isName_of_ofName? (Option.filter_eq_some_iff.mp h).1

theorem colon_not_mem (h : ∀ c ∈ word, c.isAlphanum = true) : ':' ∉ word := fun hmem =>
  Mention.ne_colon_of_isAlphanum (h ':' hmem) rfl

end Reference

end Spreadsheet
