import Spreadsheet.Proofs.Grammar
import Spreadsheet.Proofs.Reads
import Spreadsheet.Proofs.Words

/-!
The references that a text mentions and the tokens of the text. Both read the same characters, the
first by the shape of words, the second by the rules for formulas. Where no two operands stand side
by side, a text is scanned token by token, and every token that is a reference is among the words
mentioned. So a text that is a formula mentions all cells that the formula reads.
-/

namespace Spreadsheet

theorem Token.isAlpha_of_isNumeralChar {c : Char} (h : isNumeralChar c = true) :
    c.isAlpha = false := by
  have hc : c.isDigit = true ∨ c = '.' := by simpa [isNumeralChar] using h
  rcases hc with hc | rfl
  · exact Text.isAlpha_of_isDigit hc
  · decide

namespace Mention

variable {cs word rest after : List Char} {w : String} {insideWord : Bool}

/-- A word with the shape of a reference stands behind a point. -/
def Pointed (cs word : List Char) : Prop :=
  ∃ before behind after, cs = before ++ '.' :: behind ∧ split? behind = some (word, after)

theorem Pointed.mem_scan (h : Pointed cs word) (insideWord : Bool) :
    String.ofList word ∈ scan insideWord cs := by
  obtain ⟨before, behind, after, rfl, hsplit⟩ := h
  have hpoint : Quiet ('.' :: behind) := by
    intro c hc
    obtain rfl : '.' = c := by simpa using hc
    decide
  rw [hpoint.scan_append, scan_cons false (by decide), scan_of_split?_eq_some hsplit]
  simp

theorem Pointed.append_left (h : Pointed cs word) (before : List Char) :
    Pointed (before ++ cs) word := by
  obtain ⟨lead, behind, after, rfl, hsplit⟩ := h
  exact ⟨before ++ lead, behind, after, by simp, hsplit⟩

theorem Pointed.append_right (h : Pointed cs word) (hquiet : Quiet after) :
    Pointed (cs ++ after) word := by
  obtain ⟨before, behind, rest, rfl, hsplit⟩ := h
  refine ⟨before, behind ++ after, rest ++ after, by simp, ?_⟩
  rw [hquiet.split?_append, hsplit]
  rfl

theorem exists_split?_of_mem_scan {tail : List Char} {c : Char}
    (htail : ∀ d ∈ tail, d.isAlpha = false) (h : w ∈ scan false (c :: tail)) :
    ∃ word after, split? (c :: tail) = some (word, after) ∧ w = String.ofList word := by
  cases hsplit : split? (c :: tail) with
  | none =>
      rw [scan_of_split?_eq_none hsplit, scan_eq_nil htail] at h
      cases h
  | some found =>
      obtain ⟨word, after⟩ := found
      have hsuffix : after <:+ tail := by
        rcases List.suffix_cons_iff.mp ⟨word, (append_of_split? hsplit).symm⟩ with heq | h
        · exact absurd (heq ▸ length_of_split? hsplit) (Nat.lt_irrefl _)
        · exact h
      have hafter : scan true after = [] := scan_eq_nil fun e he => htail e (hsuffix.mem he)
      rw [scan_of_split?_eq_some hsplit, hafter, List.mem_singleton] at h
      exact ⟨word, after, rfl, h⟩

theorem exists_pointed {digits tail : List Char} {c : Char}
    (hdigits : ∀ d ∈ digits, Token.isNumeralChar d = true) (hne : digits ≠ [])
    (htail : ∀ d ∈ tail, d.isAlpha = false) (h : w ∈ scan insideWord (digits ++ c :: tail)) :
    ∃ word, Pointed (digits ++ c :: tail) word ∧ w = String.ofList word := by
  induction digits generalizing insideWord with
  | nil => exact absurd rfl hne
  | cons d digits ih =>
      have hd : Token.isNumeralChar d = true := hdigits d List.mem_cons_self
      rw [List.cons_append, scan_of_not_isAlpha (Token.isAlpha_of_isNumeralChar hd)] at h
      cases digits with
      | cons e digits =>
          obtain ⟨word, hpointed, hw⟩ :=
            ih (fun e he => hdigits e (List.mem_cons_of_mem d he)) (List.cons_ne_nil e digits) h
          exact ⟨word, hpointed.append_left [d], hw⟩
      | nil =>
          rw [List.nil_append] at h
          have hcases : d.isDigit = true ∨ d = '.' := by simpa [Token.isNumeralChar] using hd
          rcases hcases with hd | rfl
          · have hword : Text.isWordChar d = true :=
              Text.isWordChar_of_isAlphanum (Text.isAlphanum_iff.mpr (.inr hd))
            rw [hword, scan_true, scan_eq_nil htail] at h
            cases h
          · rw [show Text.isWordChar '.' = false by decide] at h
            obtain ⟨word, after, hsplit, hw⟩ := exists_split?_of_mem_scan htail h
            exact ⟨word, ⟨[], c :: tail, after, rfl, hsplit⟩, hw⟩

end Mention

namespace Token

variable {extent : Extent} {c : Char} {a b word rest after : List Char} {token : Token}
  {tokens : List Token} {p : Position} {reference : Reference}

/-- The reference that a token is. -/
def reference? : Token → Option Reference
  | .cell p => some (.cell p)
  | .range r => some (.range r)
  | _ => none

theorem not_isWordChar_of_sign? (h : sign? c = some token) :
    (Text.isWordChar c = false ∧ c ≠ ':') ∧ token.isOperand = false := by
  unfold sign? at h
  split at h <;> first | (obtain rfl := Option.some.inj h; decide +kernel) | cases h

theorem reference?_ofWord :
    (ofWord extent word rest).reference? = Reference.ofText? extent (String.ofList word) := by
  unfold ofWord
  split
  · rename_i heq
    rw [heq]
    rfl
  · rename_i heq
    rw [heq]
    rfl
  · rename_i heq
    rw [heq]
    split <;> rfl

theorem eq_of_ofWord_eq_literal {text : String} (h : ofWord extent word rest = .literal text) :
    text = String.ofList word := by
  unfold ofWord at h
  split at h
  · cases h
  · cases h
  · split at h
    · cases h
    · exact (Token.literal.inj h).symm

/-- One half of a joined word names a cell, and the other half has not the shape of a name. -/
def IsHalf (extent : Extent) (token : Token) (p : Position) : Prop :=
  ∃ text a b, token = .literal text ∧ Text.splitAt? ':' text = some (a, b) ∧
    (Reference.cell? extent a = some p ∧ ¬ Mention.IsName b.toList ∨
      Reference.cell? extent b = some p ∧ ¬ Mention.IsName a.toList)

theorem not_isHalf_ofWord (h : ':' ∉ word) : ¬ IsHalf extent (ofWord extent word rest) p := by
  rintro ⟨text, a, b, hliteral, hsplit, -⟩
  have hword := Text.toList_of_splitAt? hsplit
  rw [eq_of_ofWord_eq_literal hliteral, String.toList_ofList] at hword
  exact h (hword ▸ by simp)

theorem ofText?_joined (ha : ':' ∉ a) (h : ¬ Mention.IsName a ∨ ¬ Mention.IsName b) :
    Reference.ofText? extent (String.ofList (a ++ ':' :: b)) = none := by
  rw [Reference.ofText?, Reference.splitAt?_joined ha, Option.eq_none_iff_forall_ne_some]
  intro reference hreference
  obtain ⟨p, hp, hreference⟩ := Option.bind_eq_some_iff.mp hreference
  obtain ⟨q, hq, -⟩ := Option.bind_eq_some_iff.mp hreference
  exact h.elim (absurd (Reference.isName_of_cell? hp)) (absurd (Reference.isName_of_cell? hq))

theorem isHalf_joined_iff (ha : ':' ∉ a) :
    IsHalf extent (ofWord extent (a ++ ':' :: b) rest) p ↔
      Reference.cell? extent (String.ofList a) = some p ∧ ¬ Mention.IsName b ∨
        Reference.cell? extent (String.ofList b) = some p ∧ ¬ Mention.IsName a := by
  constructor
  · rintro ⟨text, first, second, hliteral, hsplit, hnames⟩
    rw [eq_of_ofWord_eq_literal hliteral, Reference.splitAt?_joined ha] at hsplit
    obtain ⟨rfl, rfl⟩ := Prod.mk.inj (Option.some.inj hsplit)
    simpa only [String.toList_ofList] using hnames
  · intro hnames
    have hother : ¬ Mention.IsName a ∨ ¬ Mention.IsName b :=
      hnames.elim (fun h => .inr h.2) fun h => .inl h.2
    refine ⟨String.ofList (a ++ ':' :: b), String.ofList a, String.ofList b, ?_,
      Reference.splitAt?_joined ha, by simpa only [String.toList_ofList] using hnames⟩
    rw [ofWord, ofText?_joined ha hother]
    exact if_neg (by simp)

theorem mentions_word (ha : ∀ c ∈ a, c.isAlphanum = true) :
    (∃ w ∈ Mention.scan false a, Reference.ofText? extent w = some reference) ↔
      (ofWord extent a rest).reference? = some reference := by
  rw [reference?_ofWord]
  by_cases hname : Mention.IsName a
  · simp [hname.scan]
  · rw [Mention.scan_of_not_isName ha hname,
      Reference.ofText?_of_not_mem (Reference.colon_not_mem ha)]
    constructor
    · rintro ⟨w, hw, -⟩
      cases hw
    · intro hreference
      obtain ⟨p, hp, -⟩ := Option.map_eq_some_iff.mp hreference
      exact absurd (Reference.isName_of_cell? hp) hname

theorem mentions_joined (ha : ∀ c ∈ a, c.isAlphanum = true) (hb : ∀ c ∈ b, c.isAlphanum = true) :
    (∃ w ∈ Mention.scan false (a ++ ':' :: b), Reference.ofText? extent w = some reference) ↔
      (ofWord extent (a ++ ':' :: b) rest).reference? = some reference ∨
        ∃ p, reference = .cell p ∧ IsHalf extent (ofWord extent (a ++ ':' :: b) rest) p := by
  have hcolon := Reference.colon_not_mem ha
  have hcell : ∀ word : List Char, ':' ∉ word →
      (Reference.ofText? extent (String.ofList word) = some reference ↔
        ∃ p, reference = .cell p ∧ Reference.cell? extent (String.ofList word) = some p) := by
    intro word hword
    rw [Reference.ofText?_of_not_mem hword, Option.map_eq_some_iff]
    simp only [and_comm, eq_comm]
  rw [reference?_ofWord]
  simp only [isHalf_joined_iff hcolon]
  by_cases hname : Mention.IsName a
  · by_cases hname' : Mention.IsName b
    · simp [hname.scan_joined hname', hname, hname']
    · rw [hname.scan_first hb hname', ofText?_joined hcolon (.inr hname')]
      simp [hcell a hcolon, hname, hname']
  · rw [Mention.scan_second ha hname, ofText?_joined hcolon (.inl hname)]
    by_cases hname' : Mention.IsName b
    · simp [hname'.scan, hcell b (Reference.colon_not_mem hb), hname, hname']
    · have hnone : ∀ p, Reference.cell? extent (String.ofList b) ≠ some p := fun p hp =>
        hname' (Reference.isName_of_cell? hp)
      have hnone' : ∀ p, Reference.cell? extent (String.ofList a) ≠ some p := fun p hp =>
        hname (Reference.isName_of_cell? hp)
      simp [Mention.scan_of_not_isName hb hname', hnone, hnone']

theorem splitPower_append (cs : List Char) : (splitPower cs).1 ++ (splitPower cs).2 = cs := by
  unfold splitPower
  split
  · rename_i c rest
    have hsign : (splitPowerSign rest).1 ++ (splitPowerSign rest).2 = rest := by
      unfold splitPowerSign
      split <;> rfl
    dsimp only
    split
    · rw [List.cons_append, List.append_assoc, List.takeWhile_append_dropWhile, hsign]
    · rfl
  · rfl

theorem splitNumeral_append (cs : List Char) :
    (splitNumeral cs).1 ++ (splitNumeral cs).2 = cs := by
  unfold splitNumeral
  rw [List.append_assoc, splitPower_append, List.takeWhile_append_dropWhile]

theorem splitJoined_append (cs : List Char) : (splitJoined cs).1 ++ (splitJoined cs).2 = cs := by
  unfold splitJoined
  split
  · split
    · rw [List.cons_append, List.takeWhile_append_dropWhile]
    · rfl
  · rfl

theorem splitWord_append (cs : List Char) : (splitWord cs).1 ++ (splitWord cs).2 = cs := by
  unfold splitWord
  rw [List.append_assoc, splitJoined_append, List.takeWhile_append_dropWhile]

/-- The characters that are read as a token in front of some others. -/
inductive IsText (extent : Extent) (after : List Char) : Token → List Char → Prop
  | sign {c : Char} {token : Token} (h : sign? c = some token) : IsText extent after token [c]
  | numeral {x : Float} {digits : List Char} (hdigits : ∀ d ∈ digits, isNumeralChar d = true) :
      IsText extent after (.number x) digits
  | power {x : Float} {digits tail : List Char} {c : Char}
      (hdigits : ∀ d ∈ digits, isNumeralChar d = true) (hne : digits ≠ [])
      (htail : ∀ d ∈ tail, d.isAlpha = false) (hcolon : ':' ∉ digits ++ c :: tail) :
      IsText extent after (.number x) (digits ++ c :: tail)
  | word {a : List Char} (ha : ∀ c ∈ a, c.isAlphanum = true) :
      IsText extent after (ofWord extent a after) a
  | joined {a b : List Char} (ha : ∀ c ∈ a, c.isAlphanum = true)
      (hb : ∀ c ∈ b, c.isAlphanum = true) :
      IsText extent after (ofWord extent (a ++ ':' :: b) after) (a ++ ':' :: b)

theorem isText_numeral {x : Float} (hc : isNumeralChar c = true) :
    IsText extent after (.number x) (splitNumeral (c :: rest)).1 := by
  have hdigits : ∀ d ∈ (c :: rest).takeWhile isNumeralChar, isNumeralChar d = true := fun d hd =>
    List.mem_takeWhile_imp hd
  have hne : (c :: rest).takeWhile isNumeralChar ≠ [] := by
    rw [List.takeWhile_cons_of_pos hc]
    exact List.cons_ne_nil _ _
  unfold splitNumeral splitPower
  dsimp only
  split
  · rename_i e behind _
    split
    · rename_i hpower
      have hsign : ∀ d ∈ (splitPowerSign behind).1, d = '+' ∨ d = '-' := by
        unfold splitPowerSign
        split <;> simp
      have htail : ∀ d ∈ (splitPowerSign behind).1 ++
          (splitPowerSign behind).2.takeWhile Char.isDigit,
            (d = '+' ∨ d = '-') ∨ d.isDigit = true := by
        intro d hd
        exact (List.mem_append.mp hd).imp (hsign d) List.mem_takeWhile_imp
      refine .power hdigits hne ?_ ?_
      · intro d hd
        rcases htail d hd with (rfl | rfl) | hdigit
        · decide
        · decide
        · exact Text.isAlpha_of_isDigit hdigit
      · intro hcolon
        rcases List.mem_append.mp hcolon with hcolon | hcolon
        · exact absurd (hdigits ':' hcolon) (by decide)
        · rcases List.mem_cons.mp hcolon with rfl | hcolon
          · revert hpower
            simp
          · exact absurd (htail ':' hcolon) (by decide)
    · rw [List.append_nil]
      exact .numeral hdigits
  · rw [List.append_nil]
    exact .numeral hdigits

theorem isText_word (extent : Extent) (cs after : List Char) :
    IsText extent after (ofWord extent (splitWord cs).1 after) (splitWord cs).1 := by
  have ha : ∀ c ∈ cs.takeWhile Char.isAlphanum, c.isAlphanum = true := fun c hc =>
    List.mem_takeWhile_imp hc
  unfold splitWord splitJoined
  dsimp only
  split
  · split
    · exact .joined ha fun c hc => List.mem_takeWhile_imp hc
    · rw [List.append_nil]
      exact .word ha
  · rw [List.append_nil]
    exact .word ha

theorem exists_isText (h : next extent c rest = .ok (token, after)) :
    ∃ word, c :: rest = word ++ after ∧ IsText extent after token word := by
  unfold next at h
  split at h
  · rename_i sign hsign
    obtain ⟨rfl, rfl⟩ := Prod.mk.inj (Except.ok.inj h)
    exact ⟨[c], rfl, .sign hsign⟩
  · split at h
    · rename_i hnumeral
      dsimp only at h
      split at h
      · obtain ⟨rfl, rfl⟩ := Prod.mk.inj (Except.ok.inj h)
        exact ⟨_, (splitNumeral_append (c :: rest)).symm, isText_numeral hnumeral⟩
      · cases h
    · split at h
      · obtain ⟨rfl, rfl⟩ := Prod.mk.inj (Except.ok.inj h)
        exact ⟨_, (splitWord_append (c :: rest)).symm, isText_word extent (c :: rest) _⟩
      · cases h

theorem isOperand_ofWord : (ofWord extent word rest).isOperand = true := by
  unfold ofWord
  split
  · rfl
  · rfl
  · split <;> rfl

theorem next_cases (h : next extent c rest = .ok (token, after)) :
    (sign? c = some token ∧ after = rest) ∨ token.isOperand = true := by
  obtain ⟨word, hword, htext⟩ := exists_isText h
  cases htext with
  | sign hsign =>
      obtain ⟨rfl, rfl⟩ := List.cons.inj hword
      exact .inl ⟨hsign, rfl⟩
  | numeral | power => exact .inr rfl
  | word | joined => exact .inr isOperand_ofWord

/-- A name of a cell stands behind a point. -/
def IsPointed (extent : Extent) (cs : List Char) (p : Position) : Prop :=
  ∃ word, Mention.Pointed cs word ∧ Reference.cell? extent (String.ofList word) = some p

theorem IsPointed.mentions {cs : List Char} (h : IsPointed extent cs p) :
    ∃ w ∈ Mention.scan false cs, Reference.ofText? extent w = some (.cell p) := by
  obtain ⟨word, hpointed, hcell⟩ := h
  have hcolon : ':' ∉ word :=
    Reference.colon_not_mem (Reference.isName_of_cell? hcell).isAlphanum
  refine ⟨String.ofList word, hpointed.mem_scan false, ?_⟩
  rw [Reference.ofText?_of_not_mem hcolon, hcell]
  rfl

theorem IsPointed.append_left {cs : List Char} (h : IsPointed extent cs p) (before : List Char) :
    IsPointed extent (before ++ cs) p := by
  obtain ⟨name, hpointed, hp⟩ := h
  exact ⟨name, hpointed.append_left before, hp⟩

theorem not_isPointed {cs : List Char} (h : ∀ c ∈ cs, c.isAlphanum = true ∨ c = ':') :
    ¬ IsPointed extent cs p := by
  rintro ⟨word, ⟨before, behind, rest, rfl, -⟩, -⟩
  exact absurd (h '.' (by simp)) (by decide)

theorem mentions_isPointed (hcolon : ':' ∉ word)
    (hscan : ∀ w ∈ Mention.scan false word,
      ∃ name, Mention.Pointed word name ∧ w = String.ofList name) :
    (∃ w ∈ Mention.scan false word, Reference.ofText? extent w = some reference) ↔
      ∃ p, reference = .cell p ∧ IsPointed extent word p := by
  constructor
  · rintro ⟨w, hw, htext⟩
    obtain ⟨name, hpointed, rfl⟩ := hscan w hw
    have hname : ':' ∉ name := by
      obtain ⟨before, behind, after, rfl, hsplit⟩ := hpointed
      rw [Mention.append_of_split? hsplit] at hcolon
      exact fun hmem => hcolon (by simp [hmem])
    rw [Reference.ofText?_of_not_mem hname] at htext
    obtain ⟨p, hp, rfl⟩ := Option.map_eq_some_iff.mp htext
    exact ⟨p, rfl, name, hpointed, hp⟩
  · rintro ⟨p, rfl, hpointed⟩
    exact hpointed.mentions

/-- The text of a token mentions the reference that the token is, and the cells that a half of it
names or that are named behind a point. -/
theorem IsText.mentions_iff (h : IsText extent after token word) :
    (∃ w ∈ Mention.scan false word, Reference.ofText? extent w = some reference) ↔
      token.reference? = some reference ∨
        ∃ p, reference = .cell p ∧ (IsHalf extent token p ∨ IsPointed extent word p) := by
  have hnumber : ∀ x p, ¬ IsHalf extent (.number x) p := by
    rintro x p ⟨text, a, b, hliteral, -⟩
    cases hliteral
  cases h with
  | @sign c _ h =>
      obtain ⟨⟨hword, hcolon⟩, hoperand⟩ := not_isWordChar_of_sign? h
      have hreference : token.reference? = none := by
        cases token <;> first | rfl | cases hoperand
      have hhalf : ∀ p, ¬ IsHalf extent token p := by
        rintro p ⟨text, a, b, rfl, -⟩
        cases hoperand
      simp only [hreference, hhalf, false_or, reduceCtorEq]
      refine mentions_isPointed (by simpa using hcolon.symm) ?_
      simp [Mention.scan_cons false hword, Mention.scan]
  | numeral hdigits =>
      simp only [reference?, hnumber, false_or, reduceCtorEq]
      have halpha : ∀ d ∈ word, d.isAlpha = false := fun d hd =>
        isAlpha_of_isNumeralChar (hdigits d hd)
      refine mentions_isPointed (fun hcolon => absurd (hdigits ':' hcolon) (by decide)) ?_
      simp [Mention.scan_eq_nil halpha]
  | power hdigits hne htail hcolon =>
      simp only [reference?, hnumber, false_or, reduceCtorEq]
      exact mentions_isPointed hcolon fun w => Mention.exists_pointed hdigits hne htail
  | word ha =>
      simp only [not_isHalf_ofWord (Reference.colon_not_mem ha),
        not_isPointed fun c hc => .inl (ha c hc), or_self, and_false, exists_false, or_false]
      exact mentions_word ha
  | @joined a b ha hb =>
      have hplain : ∀ p, ¬ IsPointed extent (a ++ ':' :: b) p := by
        refine fun p => not_isPointed fun c hc => ?_
        rcases List.mem_append.mp hc with hc | hc
        · exact .inl (ha c hc)
        · rcases List.mem_cons.mp hc with rfl | hc
          · exact .inr rfl
          · exact .inl (hb c hc)
      simp only [hplain, or_false]
      exact mentions_joined ha hb

theorem tokenize_of_isBlank (h : Text.isBlank c = true) :
    tokenize extent (c :: rest) = tokenize extent rest := by
  rw [tokenize, if_pos h]

theorem tokenize_cons (hblank : Text.isBlank c = false)
    (h : next extent c rest = .ok (token, after)) :
    tokenize extent (c :: rest) = (tokenize extent after).map (token :: ·) := by
  rw [tokenize, hblank, if_neg Bool.false_ne_true]
  split
  · rename_i heq
    obtain ⟨rfl, rfl⟩ := Prod.mk.inj (Except.ok.inj (heq.symm.trans h))
    rfl
  · rename_i heq
    cases heq.symm.trans h

theorem tokenize_eq_error {reason : FormulaError} (hblank : Text.isBlank c = false)
    (h : next extent c rest = .error reason) : tokenize extent (c :: rest) = .error reason := by
  rw [tokenize, hblank, if_neg Bool.false_ne_true]
  split
  · rename_i heq
    cases heq.symm.trans h
  · rename_i heq
    rw [Except.error.inj (heq.symm.trans h)]

theorem exists_next_of_tokenize (hblank : Text.isBlank c = false)
    (h : tokenize extent (c :: rest) = .ok tokens) :
    ∃ token after others, next extent c rest = .ok (token, after) ∧
      tokenize extent after = .ok others ∧ tokens = token :: others := by
  cases hnext : next extent c rest with
  | error reason =>
      rw [tokenize_eq_error hblank hnext] at h
      cases h
  | ok first =>
      rw [tokenize_cons hblank hnext] at h
      obtain ⟨others, hothers, htokens⟩ := map_eq_ok h
      exact ⟨first.1, first.2, others, rfl, hothers, htokens.symm⟩

theorem quiet_of_tokenize (h : tokenize extent rest = .ok tokens)
    (hoperand : ∀ token ∈ tokens.head?, token.isOperand = false) : Mention.Quiet rest := by
  intro c hc
  cases rest with
  | nil => cases hc
  | cons d rest =>
      obtain rfl : d = c := by simpa using hc
      cases hblank : Text.isBlank d with
      | true =>
          refine ⟨Text.isWordChar_of_isBlank hblank, ?_⟩
          rintro rfl
          revert hblank
          decide
      | false =>
          obtain ⟨token, after, others, hnext, -, rfl⟩ := exists_next_of_tokenize hblank h
          rcases next_cases hnext with ⟨hsign, -⟩ | hoperand'
          · exact (not_isWordChar_of_sign? hsign).1
          · simp [hoperand token (by simp)] at hoperand'

/-- A text is scanned token by token, if no two operands stand side by side. -/
theorem exists_pieces (h : tokenize extent rest = .ok tokens) (hchain : tokens.IsChain Separate) :
    ∃ pieces : List (Token × List Char), pieces.map Prod.fst = tokens ∧
      Mention.scan false rest = pieces.flatMap (fun piece => Mention.scan false piece.2) ∧
      ∀ piece ∈ pieces, (∃ after, IsText extent after piece.1 piece.2) ∧
        ∀ p, IsPointed extent piece.2 p → IsPointed extent rest p := by
  induction hlength : rest.length using Nat.strongRecOn generalizing rest tokens with
  | ind length ih =>
      subst hlength
      cases rest with
      | nil =>
          rw [tokenize] at h
          obtain rfl := Except.ok.inj h
          exact ⟨[], rfl, by rw [Mention.scan]; rfl, by simp⟩
      | cons c rest =>
          cases hblank : Text.isBlank c with
          | true =>
              rw [tokenize_of_isBlank hblank] at h
              rw [Mention.scan_cons false (Text.isWordChar_of_isBlank hblank)]
              obtain ⟨pieces, htokens, hscan, hpieces⟩ := ih rest.length (by simp) h hchain rfl
              refine ⟨pieces, htokens, hscan, fun piece hpiece => ?_⟩
              obtain ⟨htext, hpointed⟩ := hpieces piece hpiece
              exact ⟨htext, fun p hp => (hpointed p hp).append_left [c]⟩
          | false =>
              obtain ⟨first, after, others, hnext, hothers, rfl⟩ :=
                exists_next_of_tokenize hblank h
              obtain ⟨pieces, htokens, hscan, hpieces⟩ :=
                ih after.length (length_of_next hnext) hothers hchain.tail rfl
              obtain ⟨word, hword, htext⟩ := exists_isText hnext
              have hscans : Mention.scan false (word ++ after) =
                  Mention.scan false word ++ Mention.scan false after ∧
                    ∀ p, IsPointed extent word p → IsPointed extent (word ++ after) p := by
                rcases next_cases hnext with ⟨hsign, rfl⟩ | hoperand
                · obtain rfl : [c] = word := List.append_cancel_right hword
                  have hc := (not_isWordChar_of_sign? hsign).1.1
                  have hnil : Mention.scan false [c] = [] := by
                    rw [Mention.scan_cons false hc, Mention.scan]
                  refine ⟨by rw [hnil, List.singleton_append, Mention.scan_cons false hc]; rfl, ?_⟩
                  intro p hp
                  obtain ⟨w, hw, -⟩ := hp.mentions
                  rw [hnil] at hw
                  cases hw
                · have hquiet : Mention.Quiet after := by
                    refine quiet_of_tokenize hothers ?_
                    intro other hother
                    rw [List.isChain_cons] at hchain
                    have hapart := hchain.1 other hother
                    simpa [Separate, hoperand] using hapart
                  refine ⟨hquiet.scan_append false word, ?_⟩
                  rintro p ⟨name, hpointed, hp⟩
                  exact ⟨name, hpointed.append_right hquiet, hp⟩
              refine ⟨(first, word) :: pieces, by rw [List.map_cons, htokens], ?_, ?_⟩
              · rw [hword, hscans.1, hscan, List.flatMap_cons]
              · intro piece hpiece
                rw [hword]
                rcases List.mem_cons.mp hpiece with rfl | hpiece
                · exact ⟨⟨after, htext⟩, hscans.2⟩
                · obtain ⟨htext, hpointed⟩ := hpieces piece hpiece
                  exact ⟨htext, fun p hp => (hpointed p hp).append_left word⟩

theorem mentions_iff (h : tokenize extent rest = .ok tokens) (hchain : tokens.IsChain Separate) :
    (∃ w ∈ Mention.scan false rest, Reference.ofText? extent w = some reference) ↔
      (∃ token ∈ tokens, token.reference? = some reference) ∨
        ∃ p, reference = .cell p ∧
          ((∃ token ∈ tokens, IsHalf extent token p) ∨ IsPointed extent rest p) := by
  obtain ⟨pieces, rfl, hscan, hpieces⟩ := exists_pieces h hchain
  constructor
  · rintro ⟨w, hw, hreference⟩
    rw [hscan, List.mem_flatMap] at hw
    obtain ⟨piece, hpiece, hw⟩ := hw
    obtain ⟨⟨after, htext⟩, hpointed⟩ := hpieces piece hpiece
    have htoken : piece.1 ∈ pieces.map Prod.fst := List.mem_map_of_mem hpiece
    rcases htext.mentions_iff.mp ⟨w, hw, hreference⟩ with hwhole | ⟨p, rfl, hhalf | hname⟩
    · exact .inl ⟨piece.1, htoken, hwhole⟩
    · exact .inr ⟨p, rfl, .inl ⟨piece.1, htoken, hhalf⟩⟩
    · exact .inr ⟨p, rfl, .inr (hpointed p hname)⟩
  · have hfound : ∀ token ∈ pieces.map Prod.fst, (token.reference? = some reference ∨
        ∃ p, reference = .cell p ∧ IsHalf extent token p) →
          ∃ w ∈ Mention.scan false rest, Reference.ofText? extent w = some reference := by
      intro token htoken hmentions
      obtain ⟨piece, hpiece, rfl⟩ := List.mem_map.mp htoken
      obtain ⟨⟨after, htext⟩, -⟩ := hpieces piece hpiece
      have hany := hmentions.imp_right fun ⟨p, hp, hhalf⟩ =>
        (⟨p, hp, .inl hhalf⟩ : ∃ p, reference = Reference.cell p ∧
          (IsHalf extent piece.1 p ∨ IsPointed extent piece.2 p))
      obtain ⟨w, hw, hreference⟩ := htext.mentions_iff.mpr hany
      rw [hscan]
      exact ⟨w, List.mem_flatMap.mpr ⟨piece, hpiece, hw⟩, hreference⟩
    rintro (⟨token, htoken, hwhole⟩ | ⟨p, rfl, ⟨token, htoken, hhalf⟩ | hname⟩)
    · exact hfound token htoken (.inl hwhole)
    · exact hfound token htoken (.inr ⟨p, rfl, hhalf⟩)
    · exact hname.mentions

end Token

namespace Mentions

variable {extent : Extent} {text : String} {p : Position} {r : Range}

theorem mem_cells_ofText : p ∈ (ofText extent text).cells ↔
    ∃ w ∈ Mention.scan false text.toList, Reference.ofText? extent w = some (.cell p) := by
  simp only [ofText, ofWords, Std.ExtTreeSet.mem_ofList, List.contains_iff_mem, List.mem_filterMap]
  refine exists_congr fun w => and_congr_right fun _ => ?_
  split <;> simp_all

theorem mem_ranges_ofText : r ∈ (ofText extent text).ranges ↔
    ∃ w ∈ Mention.scan false text.toList, Reference.ofText? extent w = some (.range r) := by
  simp only [ofText, ofWords, Std.ExtTreeSet.mem_ofList, List.contains_iff_mem, List.mem_filterMap]
  refine exists_congr fun w => and_congr_right fun _ => ?_
  split <;> simp_all

theorem mem_foldl_insertMany (ranges : List Range) (cells : Std.ExtTreeSet Position) :
    p ∈ ranges.foldl (fun cells r => cells.insertMany r.cells) cells ↔
      p ∈ cells ∨ ∃ r ∈ ranges, p ∈ r.cells := by
  induction ranges generalizing cells with
  | nil => simp
  | cons r ranges ih =>
      rw [List.foldl_cons, ih, Std.ExtTreeSet.mem_insertMany_list]
      simp [or_assoc]

theorem mem_allCells {m : Mentions} :
    p ∈ m.allCells ↔ p ∈ m.cells ∨ ∃ r ∈ m.ranges, p ∈ r.cells := by
  rw [allCells, Std.ExtTreeSet.foldl_eq_foldl_toList, mem_foldl_insertMany]
  simp only [Std.ExtTreeSet.mem_toList]

theorem mem_allCells_of_token {tokens : List Token} {token : Token}
    (h : Token.tokenize extent text.toList = .ok tokens) (hchain : tokens.IsChain Token.Separate)
    (hmem : token ∈ tokens) (hp : p ∈ token.cells) : p ∈ (ofText extent text).allCells := by
  have hwords : ∀ reference, token.reference? = some reference →
      ∃ w ∈ Mention.scan false text.toList, Reference.ofText? extent w = some reference :=
    fun _ hreference => (Token.mentions_iff h hchain).mpr (.inl ⟨token, hmem, hreference⟩)
  rw [mem_allCells]
  cases token with
  | cell q =>
      obtain rfl : p = q := by simpa [Token.cells] using hp
      exact .inl (mem_cells_ofText.mpr (hwords _ rfl))
  | range r => exact .inr ⟨r, mem_ranges_ofText.mpr (hwords _ rfl), hp⟩
  | _ => cases hp

theorem mem_allCells_of_mem_reads {e : Expr} (h : parseFormula extent text = .ok e)
    (hp : p ∈ e.reads) : p ∈ (ofText extent text).allCells := by
  obtain ⟨tokens, htokens, htree⟩ := bind_eq_ok h
  obtain ⟨hchain, hcells⟩ := Grammar.parseTokens_sound htree
  obtain ⟨token, htoken, hp⟩ := hcells p hp
  exact mem_allCells_of_token htokens hchain htoken hp

/-- A text mentions all cells that its formula reads, and the value of the formula depends on no
other cells. -/
theorem reads_mentioned {e : Expr} (h : parseFormula extent text = .ok e) :
    (∀ p ∈ e.reads, p ∈ (ofText extent text).allCells) ∧
      ∀ look look' : Position → Value,
        (∀ p ∈ (ofText extent text).allCells, look p = look' p) → e.value look = e.value look' := by
  have hreads : ∀ p ∈ e.reads, p ∈ (ofText extent text).allCells := fun p hp =>
    mem_allCells_of_mem_reads h hp
  exact ⟨hreads, fun look look' hsame => Expr.value_congr fun p hp => hsame p (hreads p hp)⟩

/-- Words that touch signs, a word that only looks like a reference, and one outside the sheet. -/
def crowdedFormula : String := "sum(A1:B2,C3)^-b1+C1*D9"

theorem reads_mentioned_crowdedFormula :
    ∃ e, parseFormula ⟨3, 3⟩ crowdedFormula = .ok e ∧
      e.reads = [⟨0, 0⟩, ⟨0, 1⟩, ⟨1, 0⟩, ⟨1, 1⟩, ⟨2, 2⟩, ⟨0, 2⟩] ∧
      ∀ p ∈ e.reads, p ∈ (ofText ⟨3, 3⟩ crowdedFormula).allCells := by
  have htokens : Token.tokenize ⟨3, 3⟩ crowdedFormula.toList = .ok
      [.name "SUM", .leftParen, .range ⟨⟨0, 0⟩, ⟨1, 1⟩⟩, .comma, .cell ⟨2, 2⟩, .rightParen, .caret,
        .minus, .literal "b1", .plus, .cell ⟨0, 2⟩, .star, .literal "D9"] := by
    decide +kernel
  have hparse := bind_of_eq_ok (f := Grammar.parseTokens) htokens
  exact ⟨_, hparse, rfl, (reads_mentioned hparse).1⟩

end Mentions

end Spreadsheet
