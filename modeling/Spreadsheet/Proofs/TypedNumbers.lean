import Mathlib.Data.List.DropRight
import Spreadsheet.Proofs.CanonicalCells
import Spreadsheet.Proofs.Mentions
import Spreadsheet.Proofs.SideEvaluation

namespace Spreadsheet

namespace Text

theorem isBlank_of_isLineEnd {c : Char} (h : isLineEnd c = true) : isBlank c = true := by
  simp only [isLineEnd, Bool.or_eq_true, beq_iff_eq] at h
  rcases h with rfl | rfl <;> rfl

theorem isDigit_of_isBlank {c : Char} (h : isBlank c = true) : c.isDigit = false := by
  have hword := not_isAlphanum_of_not_isWordChar (isWordChar_of_isBlank h)
  rw [← Bool.not_eq_true, isAlphanum_iff] at hword
  exact Bool.eq_false_iff.mpr fun hdigit => hword (.inr hdigit)

theorem exists_append_dropRightWhile {α : Type} (p : α → Bool) (xs : List α) :
    ∃ after, xs = dropRightWhile p xs ++ after ∧ ∀ x ∈ after, p x = true :=
  ⟨xs.rtakeWhile p, List.rdropWhile_append_rtakeWhile.symm,
    fun _ hx => List.mem_rtakeWhile_imp hx⟩

theorem exists_append_trimChars (cs : List Char) : ∃ before after,
    cs = before ++ (trimChars cs ++ after) ∧ (∀ c ∈ before, isBlank c = true) ∧
      ∀ c ∈ after, isBlank c = true := by
  obtain ⟨after, hafter, hblank⟩ := exists_append_dropRightWhile isBlank (cs.dropWhile isBlank)
  refine ⟨cs.takeWhile isBlank, after, ?_, fun c hc => List.mem_takeWhile_imp hc, hblank⟩
  rw [trimChars, ← hafter, List.takeWhile_append_dropWhile]

end Text

theorem Token.isNumeralChar_of_isBlank {c : Char} (h : Text.isBlank c = true) :
    isNumeralChar c = false := by
  rw [isNumeralChar, Text.isDigit_of_isBlank h, Bool.false_or, beq_eq_false_iff_ne]
  rintro rfl
  cases h

namespace Numeral

variable {cs body : List Char} {n : Numeral} {negative : Bool} {power : Int}

theorem splitSign_cases (cs : List Char) :
    (∃ body, cs = '-' :: body ∧ splitSign cs = (true, body)) ∨
      ∃ body, (cs = '+' :: body ∨ cs = body) ∧ splitSign cs = (false, body) := by
  unfold splitSign
  split
  · exact .inl ⟨_, rfl, rfl⟩
  · exact .inr ⟨_, .inl rfl, rfl⟩
  · exact .inr ⟨_, .inr rfl, rfl⟩

theorem ofChars?_of_splitSign (hsplit : splitSign cs = (negative, body))
    (h : ofChars? cs = some n) : n.negative = negative ∧ splitSign body = (false, body) ∧
      ofChars? body = some { n with negative := false } := by
  unfold ofChars? at h
  rw [hsplit] at h
  have hbody : splitSign body = (false, body) := by
    unfold splitSign
    split
    · cases h
    · cases h
    · rfl
  unfold ofChars?
  rw [hbody]
  dsimp only at h ⊢
  split at h
  · cases h
  · rename_i hdigits
    obtain ⟨power, hpower, rfl⟩ := Option.map_eq_some_iff.mp h
    rw [if_neg hdigits, hpower]
    exact ⟨rfl, rfl, rfl⟩

theorem splitFraction_cases (cs : List Char) :
    (∃ rest, cs = '.' :: rest ∧
      splitFraction cs = (rest.takeWhile Char.isDigit, rest.dropWhile Char.isDigit)) ∨
      splitFraction cs = ([], cs) := by
  unfold splitFraction
  split
  · exact .inl ⟨_, rfl, rfl⟩
  · exact .inr rfl

theorem isNumeralChar_of_mem_takeWhile {c : Char} (h : c ∈ cs.takeWhile Char.isDigit) :
    Token.isNumeralChar c = true := by
  rw [Token.isNumeralChar, List.mem_takeWhile_imp h, Bool.true_or]

theorem exists_append_power (hbody : splitSign body = (false, body)) (h : ofChars? body = some n) :
    ∃ front rest power, body = front ++ rest ∧ front ≠ [] ∧
      (∀ c ∈ front, Token.isNumeralChar c = true) ∧ power? rest = some power := by
  have hwhole := List.takeWhile_append_dropWhile (p := Char.isDigit) (l := body)
  unfold ofChars? at h
  rw [hbody] at h
  dsimp only at h
  rcases splitFraction_cases (body.dropWhile Char.isDigit) with ⟨tail, hpoint, hsplit⟩ | hsplit
  · rw [hsplit] at h
    rw [hpoint] at hwhole
    split at h
    · cases h
    · obtain ⟨power, hpower, -⟩ := Option.map_eq_some_iff.mp h
      refine ⟨body.takeWhile Char.isDigit ++ '.' :: tail.takeWhile Char.isDigit,
        tail.dropWhile Char.isDigit, power, ?_, by simp, ?_, hpower⟩
      · rw [List.append_assoc, List.cons_append, List.takeWhile_append_dropWhile, hwhole]
      · intro c hc
        rcases List.mem_append.mp hc with hc | hc
        · exact isNumeralChar_of_mem_takeWhile hc
        · rcases List.mem_cons.mp hc with rfl | hc
          · rfl
          · exact isNumeralChar_of_mem_takeWhile hc
  · rw [hsplit] at h
    split at h
    · cases h
    · rename_i hdigits
      obtain ⟨power, hpower, -⟩ := Option.map_eq_some_iff.mp h
      refine ⟨body.takeWhile Char.isDigit, body.dropWhile Char.isDigit, power, hwhole.symm, ?_,
        fun c hc => isNumeralChar_of_mem_takeWhile hc, hpower⟩
      intro hnil
      simp [hnil] at hdigits

theorem splitPowerSign_of_isDigit {c : Char} (h : c.isDigit = true) (rest : List Char) :
    Token.splitPowerSign (c :: rest) = ([], c :: rest) := by
  unfold Token.splitPowerSign
  split
  · simp_all
  · simp_all
  · rfl

theorem exists_of_power? {c : Char} {rest : List Char} (h : power? (c :: rest) = some power) :
    (c == 'e' || c == 'E') = true ∧ ∃ sign digits, rest = sign ++ digits ∧ digits ≠ [] ∧
      (∀ d ∈ digits, d.isDigit = true) ∧
      ∀ after, Token.splitPowerSign (rest ++ after) = (sign, digits ++ after) := by
  rw [power?] at h
  split at h
  · rename_i hletter
    refine ⟨hletter, ?_⟩
    have hdigits : ∀ digits : List Char, (!digits.isEmpty && digits.all Char.isDigit) = true →
        digits ≠ [] ∧ ∀ d ∈ digits, d.isDigit = true := by
      simp
    unfold exponent? at h
    rcases splitSign_cases rest with ⟨digits, rfl, hsplit⟩ | ⟨digits, hrest, hsplit⟩
    · rw [hsplit] at h
      obtain ⟨hcond, -⟩ := Option.ite_none_right_eq_some.mp h
      exact ⟨['-'], digits, rfl, (hdigits _ hcond).1, (hdigits _ hcond).2, fun after => rfl⟩
    · rw [hsplit] at h
      obtain ⟨hcond, -⟩ := Option.ite_none_right_eq_some.mp h
      obtain ⟨hne, hall⟩ := hdigits _ hcond
      rcases hrest with rfl | rfl
      · exact ⟨['+'], digits, rfl, hne, hall, fun after => rfl⟩
      · refine ⟨[], rest, rfl, hne, hall, fun after => ?_⟩
        obtain ⟨d, digits, rfl⟩ := List.exists_cons_of_ne_nil hne
        exact splitPowerSign_of_isDigit (hall d List.mem_cons_self) _
  · cases h

theorem splitPower_of_power? {rest after : List Char} (hpower : power? rest = some power)
    (hafter : ∀ c ∈ after.head?, Text.isBlank c = true) :
    Token.splitPower (rest ++ after) = (rest, after) := by
  cases rest with
  | nil =>
      cases after with
      | nil => rfl
      | cons c after =>
          have hletter : (c == 'e' || c == 'E') = false := by
            rw [← Bool.not_eq_true, Bool.or_eq_true, beq_iff_eq, beq_iff_eq]
            rintro (rfl | rfl) <;> cases hafter _ rfl
          rw [List.nil_append, Token.splitPower, hletter]
          rfl
  | cons c rest =>
      obtain ⟨hletter, sign, digits, rfl, hne, hall, hsplit⟩ := exists_of_power? hpower
      have hdigit : ∀ d ∈ after.head?, d.isDigit = false :=
        fun d hd => Text.isDigit_of_isBlank (hafter d hd)
      have htake : (digits ++ after).takeWhile Char.isDigit = digits := by
        rw [Text.takeWhile_append_of_head hdigit, List.takeWhile_eq_self_iff.mpr hall]
      have hdrop : (digits ++ after).dropWhile Char.isDigit = after := by
        rw [Text.dropWhile_append_of_head hdigit, List.dropWhile_eq_nil_iff.mpr hall,
          List.nil_append]
      have hdigits : digits.isEmpty = false := by simpa using hne
      rw [List.cons_append, Token.splitPower, hsplit]
      dsimp only
      rw [htake, hdrop, hletter, hdigits]
      rfl

theorem splitNumeral_of_ofChars? {after : List Char} (hbody : splitSign body = (false, body))
    (h : ofChars? body = some n) (hafter : ∀ c ∈ after.head?, Text.isBlank c = true) :
    Token.splitNumeral (body ++ after) = (body, after) := by
  obtain ⟨front, rest, power, rfl, -, hfront, hpower⟩ := exists_append_power hbody h
  have hend : ∀ c ∈ (rest ++ after).head?, Token.isNumeralChar c = false := by
    intro c hc
    cases rest with
    | nil => exact Token.isNumeralChar_of_isBlank (hafter c hc)
    | cons d rest =>
        obtain rfl : d = c := by simpa using hc
        have hletter := (exists_of_power? hpower).1
        rw [Bool.or_eq_true, beq_iff_eq, beq_iff_eq] at hletter
        rcases hletter with rfl | rfl <;> rfl
  have htake : (front ++ (rest ++ after)).takeWhile Token.isNumeralChar = front := by
    rw [Text.takeWhile_append_of_head hend, List.takeWhile_eq_self_iff.mpr hfront]
  have hdrop : (front ++ (rest ++ after)).dropWhile Token.isNumeralChar = rest ++ after := by
    rw [Text.dropWhile_append_of_head hend, List.dropWhile_eq_nil_iff.mpr hfront,
      List.nil_append]
  rw [List.append_assoc, Token.splitNumeral, htake, hdrop, splitPower_of_power? hpower hafter]

end Numeral

namespace Token

variable {extent : Extent} {body after : List Char} {n : Numeral}

theorem sign?_of_isNumeralChar {c : Char} (h : isNumeralChar c = true) : sign? c = none := by
  unfold sign?
  split <;> simp_all [isNumeralChar]

theorem isBlank_of_isNumeralChar {c : Char} (h : isNumeralChar c = true) :
    Text.isBlank c = false := by
  refine Bool.eq_false_iff.mpr fun hblank => ?_
  rw [isNumeralChar_of_isBlank hblank] at h
  cases h

theorem tokenize_append_of_isBlank (hblank : ∀ c ∈ body, Text.isBlank c = true)
    (after : List Char) : tokenize extent (body ++ after) = tokenize extent after := by
  induction body with
  | nil => rfl
  | cons c body ih =>
      rw [List.cons_append, tokenize_of_isBlank (hblank c List.mem_cons_self)]
      exact ih fun d hd => hblank d (List.mem_cons_of_mem c hd)

theorem tokenize_numeral (hbody : Numeral.splitSign body = (false, body))
    (h : Numeral.ofChars? body = some n) (hafter : ∀ c ∈ after, Text.isBlank c = true) :
    tokenize extent (body ++ after) = .ok [.number n.toFloat] := by
  have hnumeral := Numeral.splitNumeral_of_ofChars? hbody h
    fun c hc => hafter c (List.mem_of_mem_head? hc)
  obtain ⟨front, rest, power, rfl, hne, hfront, -⟩ := Numeral.exists_append_power hbody h
  obtain ⟨c, front, rfl⟩ := List.exists_cons_of_ne_nil hne
  have hc : isNumeralChar c = true := hfront c List.mem_cons_self
  have hnext : next extent c (front ++ rest ++ after) = .ok (.number n.toFloat, after) := by
    rw [next, sign?_of_isNumeralChar hc]
    dsimp only
    rw [if_pos hc]
    simp only [List.cons_append] at hnumeral h
    rw [hnumeral]
    dsimp only
    rw [h]
  have hblanks : tokenize extent after = .ok [] := by
    rw [← List.append_nil after, tokenize_append_of_isBlank hafter, tokenize]
  rw [List.cons_append, List.cons_append, tokenize_cons (isBlank_of_isNumeralChar hc) hnext,
    hblanks]
  rfl

end Token

/-- The formula that a numeral is: a minus is a sign of its own there, and a plus leaves no
trace. -/
def Numeral.expr (n : Numeral) : Expr :=
  if n.negative then .negate (.number n.magnitude) else .number n.magnitude

theorem Numeral.reads_expr (n : Numeral) : n.expr.reads = [] := by
  unfold expr
  split <;> rfl

theorem Numeral.unknownFunctions_expr (n : Numeral) : n.expr.unknownFunctions = [] := by
  unfold expr
  split <;> rfl

theorem Numeral.value_expr (look : Position → Value) (n : Numeral) :
    n.expr.value look = .ofNumber n.toFloat := by
  unfold expr toFloat
  split
  · cases hfinite : (-n.magnitude).isFinite <;>
      simp [Expr.value, Expr.eval, Value.toOperand, Value.ofNumber, hfinite]
  · rfl

theorem parseTokens_tokenize_numeral {extent : Extent} {before cs after : List Char} {n : Numeral}
    (hbefore : ∀ c ∈ before, Text.isBlank c = true) (hcs : Numeral.ofChars? cs = some n)
    (hafter : ∀ c ∈ after, Text.isBlank c = true) :
    (Token.tokenize extent (before ++ (cs ++ after)) >>= Grammar.parseTokens) = .ok n.expr := by
  rw [Token.tokenize_append_of_isBlank hbefore]
  rcases Numeral.splitSign_cases cs with ⟨body, rfl, hsplit⟩ | ⟨body, hsign, hsplit⟩
  all_goals
    obtain ⟨hnegative, hbody, hchars⟩ := Numeral.ofChars?_of_splitSign hsplit hcs
    have htokens : Token.tokenize extent (body ++ after) = .ok [.number n.magnitude] :=
      Token.tokenize_numeral hbody hchars hafter
    rw [Numeral.expr, hnegative]
  · rw [List.cons_append, Token.tokenize_cons (by decide) rfl, htokens]
    rfl
  · rcases hsign with rfl | rfl
    · rw [List.cons_append, Token.tokenize_cons (by decide) rfl, htokens]
      rfl
    · rw [htokens]
      rfl

namespace Grid

variable {extent : Extent} {body : String} {e : Expr}

theorem formulaText_append (text : String) : formulaText ("=" ++ text) = text := by
  have htext : ("=" ++ text).toList = '=' :: text.toList := String.toList_append
  rw [formulaText, htext]
  exact String.ofList_toList

theorem evaluate_of_reads_eq_nil (grid : Grid) (hparse : parseFormula extent body = .ok e)
    (hreads : e.reads = []) (hknown : e.unknownFunctions = []) :
    grid.evaluate extent body = (e.value ((Walk.start grid []).look grid), []) := by
  have hwalk : (Walk.start grid []).run grid extent = Walk.start grid [] := Walk.run_of_end rfl
  rw [evaluate, hparse]
  dsimp only
  rw [hreads, hwalk, hknown]
  rfl

end Grid

theorem Content.exists_numeral_of_ofChars {cs : List Char} {n : Float}
    (h : ofChars cs = .number n) : ∃ m, Numeral.ofChars? (Text.trimChars cs) = some m ∧
      m.toFloat = n ∧ n.isFinite = true := by
  unfold ofChars at h
  split at h
  · cases h
  · cases h
  · split at h
    · rename_i x hnumber
      obtain rfl := Content.number.inj h
      unfold number? at hnumber
      obtain ⟨-, hread⟩ := Option.ite_none_right_eq_some.mp hnumber
      obtain ⟨hread, hfinite⟩ := Option.filter_eq_some_iff.mp hread
      obtain ⟨m, hm, hvalue⟩ := Option.map_eq_some_iff.mp hread
      exact ⟨m, hm, hvalue, hfinite⟩
    · cases h

theorem Cell.exists_numeral_of_ofInput? {input : String} {style : Option Style} {cell : Cell}
    {n : Float} (hcell : ofInput? input style = some cell) (hnumber : cell.content = .number n) :
    ∃ before cs after m, input.toList = before ++ (cs ++ after) ∧
      (∀ c ∈ before, Text.isBlank c = true) ∧ (∀ c ∈ after, Text.isBlank c = true) ∧
        Numeral.ofChars? cs = some m ∧ m.toFloat = n ∧ n.isFinite = true := by
  have hcontent :
      Content.ofChars (Text.dropRightWhile Text.isLineEnd input.toList) = .number n := by
    unfold ofInput? at hcell
    split at hcell
    · cases hcell
    · obtain rfl := Option.some.inj hcell
      exact hnumber
  obtain ⟨m, hchars, hvalue, hfinite⟩ := Content.exists_numeral_of_ofChars hcontent
  obtain ⟨ends, hinput, hends⟩ := Text.exists_append_dropRightWhile Text.isLineEnd input.toList
  obtain ⟨before, after, htrim, hbefore, hafter⟩ :=
    Text.exists_append_trimChars (Text.dropRightWhile Text.isLineEnd input.toList)
  refine ⟨before, _, after ++ ends, m, ?_, hbefore, ?_, hchars, hvalue, hfinite⟩
  · rw [← List.append_assoc _ after ends, ← List.append_assoc before, ← htrim, ← hinput]
  · intro c hc
    rcases List.mem_append.mp hc with hc | hc
    · exact hafter c hc
    · exact Text.isBlank_of_isLineEnd (hends c hc)

/-- What is entered as a number is the same number in a formula, down to the sign of a zero, on
every sheet and whatever its cells hold. -/
theorem Grid.evaluateInput_typedNumber {input : String} {style : Option Style} {cell : Cell}
    {n : Float} (hcell : Cell.ofInput? input style = some cell) (hnumber : cell.content = .number n)
    (grid : Grid) (extent : Extent) :
    grid.evaluateInput extent ("=" ++ input) = (.number n, []) := by
  obtain ⟨before, cs, after, m, hinput, hbefore, hafter, hchars, rfl, hfinite⟩ :=
    Cell.exists_numeral_of_ofInput? hcell hnumber
  have hparse : parseFormula extent input = .ok m.expr := by
    rw [parseFormula, hinput]
    exact parseTokens_tokenize_numeral hbefore hchars hafter
  rw [evaluateInput_eq, formulaText_append, grid.evaluate_of_reads_eq_nil hparse m.reads_expr
    m.unknownFunctions_expr, m.value_expr, Value.ofNumber, if_pos hfinite]

theorem Grid.evaluateInput_typedNumber_loopAside :
    Cell.ofInput? "\t-.0E+1 \r\n" none =
        some ⟨"\t-.0E+1 \r\n", .number (-0.0), .number (-0.0), none⟩ ∧
      loopAside.evaluateInput ⟨3, 3⟩ ("=" ++ "\t-.0E+1 \r\n") = (.number (-0.0), []) := by
  have hcell : Cell.ofInput? "\t-.0E+1 \r\n" none =
      some ⟨"\t-.0E+1 \r\n", .number (-0.0), .number (-0.0), none⟩ := by
    decide +kernel
  exact ⟨hcell, evaluateInput_typedNumber hcell rfl loopAside ⟨3, 3⟩⟩

end Spreadsheet
