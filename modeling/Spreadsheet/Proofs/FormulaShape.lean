import Spreadsheet.Proofs.Mentions

namespace Spreadsheet

/-- Words that stand in a text, one behind the other. Each begins at a letter and is as long as a
word goes on from there. -/
inductive WordsIn : List String → List Char → Prop
  | nil (cs : List Char) : WordsIn [] cs
  | cons {words : List String} {before rest word after : List Char} {c : Char}
      (hletter : c.isAlpha = true) (hcut : Token.splitWord (c :: rest) = (word, after))
      (hafter : WordsIn words after) :
      WordsIn (String.ofList word :: words) (before ++ c :: rest)

theorem WordsIn.append_left {words : List String} {cs : List Char} (h : WordsIn words cs)
    (before : List Char) : WordsIn words (before ++ cs) := by
  cases h with
  | nil => exact .nil _
  | cons hletter hcut hafter =>
      rw [← List.append_assoc]
      exact .cons hletter hcut hafter

namespace Reference

variable {extent other : Extent} {word : String} {reference reference' : Reference}

theorem ofText?_unique (h : ofText? extent word = some reference)
    (h' : ofText? other word = some reference') : reference = reference' := by
  have hcell : ∀ {name p q}, cell? extent name = some p → cell? other name = some q → p = q := by
    intro name p q hp hq
    have hp := (Option.filter_eq_some_iff.mp hp).1
    have hq := (Option.filter_eq_some_iff.mp hq).1
    exact Option.some.inj (hp.symm.trans hq)
  unfold ofText? at h h'
  split at h
  · rename_i heq
    rw [heq] at h'
    obtain ⟨p, hp, h⟩ := Option.bind_eq_some_iff.mp h
    obtain ⟨q, hq, h⟩ := Option.bind_eq_some_iff.mp h
    obtain ⟨p', hp', h'⟩ := Option.bind_eq_some_iff.mp h'
    obtain ⟨q', hq', h'⟩ := Option.bind_eq_some_iff.mp h'
    obtain rfl := hcell hp hp'
    obtain rfl := hcell hq hq'
    exact Option.some.inj (h.symm.trans h')
  · rename_i heq
    rw [heq] at h'
    obtain ⟨p, hp, rfl⟩ := Option.map_eq_some_iff.mp h
    obtain ⟨p', hp', rfl⟩ := Option.map_eq_some_iff.mp h'
    rw [hcell hp hp']

theorem ofText?_of_isAlpha {letters : List Char} (h : ∀ c ∈ letters, c.isAlpha = true) :
    ofText? extent (String.ofList letters) = none := by
  have hcolon : ':' ∉ letters := colon_not_mem fun c hc => Text.isAlphanum_iff.mpr (.inl (h c hc))
  rw [ofText?_of_not_mem hcolon, Option.map_eq_none_iff, Option.eq_none_iff_forall_ne_some]
  intro p hp
  have hname := isName_of_cell? hp
  rw [Mention.IsName, Mention.splitName?, List.dropWhile_eq_nil_iff.mpr h] at hname
  simp at hname

/-- The leaf of a tree for a reference. -/
def leaf : Reference → Expr
  | .cell p => .cell p
  | .range r => .range r

end Reference

namespace Token

variable {extent other : Extent} {words : List String} {token token' : Token}
  {tokens tokens' : List Token}

/-- The token of a word that is not the name of a function. -/
def reading (extent : Extent) (word : String) : Token :=
  match Reference.ofText? extent word with
  | some (.cell p) => .cell p
  | some (.range r) => .range r
  | none => .literal word

/-- Whether a token stands for a word that is not the name of a function. -/
def isReading : Token → Bool
  | .cell _ | .range _ | .literal _ => true
  | _ => false

theorem isReading_reading (extent : Extent) (word : String) :
    (reading extent word).isReading = true := by
  unfold reading
  split <;> rfl

/-- Tokens of one place in a text on two sheets, with the word there unless they are the same
anyway. -/
inductive Alike (extent other : Extent) : List String → Token → Token → Prop
  | same {token : Token} (h : token.isReading = false) : Alike extent other [] token token
  | word (word : String) :
      Alike extent other [word] (reading extent word) (reading other word)

/-- The tokens of a text on two sheets, with the words that are not names of functions. -/
inductive AllAlike (extent other : Extent) : List String → List Token → List Token → Prop
  | nil : AllAlike extent other [] [] []
  | cons {words words' : List String} {token token' : Token} {tokens tokens' : List Token}
      (h : Alike extent other words token token')
      (htokens : AllAlike extent other words' tokens tokens') :
      AllAlike extent other (words ++ words') (token :: tokens) (token' :: tokens')

theorem AllAlike.length_eq (h : AllAlike extent other words tokens tokens') :
    tokens.length = tokens'.length := by
  induction h with
  | nil => rfl
  | cons _ _ ih => rw [List.length_cons, List.length_cons, ih]

theorem AllAlike.split (h : AllAlike extent other words tokens tokens') (sign : Token)
    (hsign : sign.isReading = false) :
    (∃ rest rest', tokens = sign :: rest ∧ tokens' = sign :: rest' ∧
      AllAlike extent other words rest rest') ∨
      tokens.head? ≠ some sign ∧ tokens'.head? ≠ some sign := by
  cases h with
  | nil => exact .inr ⟨by simp, by simp⟩
  | @cons _ _ first first' rest rest' hfirst hrest =>
      cases hfirst with
      | same =>
          by_cases heq : first = sign
          · subst heq
            exact .inl ⟨rest, rest', rfl, rfl, hrest⟩
          · exact .inr ⟨by simpa using heq, by simpa using heq⟩
      | word word =>
          -- whatever it is read as, it is not the sign
          have hne : ∀ extent, reading extent word ≠ sign := by
            rintro extent rfl
            rw [isReading_reading] at hsign
            cases hsign
          exact .inr ⟨by simpa using hne extent, by simpa using hne other⟩

end Token

/-- Failures of one kind: the same one, or at the tokens of one place. -/
inductive FormulaError.Alike (extent other : Extent) : FormulaError → FormulaError → Prop
  | same (reason : FormulaError) : Alike extent other reason reason
  | token {words : List String} {token token' : Token}
      (h : Token.Alike extent other words token token') :
      Alike extent other (.unexpectedToken token) (.unexpectedToken token')

namespace Expr

mutual

/-- Trees that differ in some leaves at most, which refer to cells of one sheet and are literals on
the other. The words are those of all leaves but numbers, from left to right. -/
inductive Alike (extent other : Extent) : List String → Expr → Expr → Prop
  | number (x : Float) : Alike extent other [] (.number x) (.number x)
  | reference {word : String} {reference : Reference}
      (h : Reference.ofText? extent word = some reference)
      (h' : Reference.ofText? other word = some reference) :
      Alike extent other [word] reference.leaf reference.leaf
  | literal {word : String} (h : Reference.ofText? extent word = none)
      (h' : Reference.ofText? other word = none) :
      Alike extent other [word] (.literal word) (.literal word)
  | lost {word : String} {reference : Reference}
      (h : Reference.ofText? extent word = some reference)
      (h' : Reference.ofText? other word = none) :
      Alike extent other [word] reference.leaf (.literal word)
  | gained {word : String} {reference : Reference}
      (h : Reference.ofText? extent word = none)
      (h' : Reference.ofText? other word = some reference) :
      Alike extent other [word] (.literal word) reference.leaf
  | negate {words : List String} {e e' : Expr} (h : Alike extent other words e e') :
      Alike extent other words (.negate e) (.negate e')
  | binary {words words' : List String} {left left' right right' : Expr} (operator : Operator)
      (hleft : Alike extent other words left left')
      (hright : Alike extent other words' right right') :
      Alike extent other (words ++ words') (.binary operator left right)
        (.binary operator left' right')
  | call {words : List String} {es es' : List Expr} (name : String)
      (h : AllAlike extent other words es es') :
      Alike extent other words (.call name es) (.call name es')

inductive AllAlike (extent other : Extent) : List String → List Expr → List Expr → Prop
  | nil : AllAlike extent other [] [] []
  | cons {words words' : List String} {e e' : Expr} {es es' : List Expr}
      (h : Alike extent other words e e') (hes : AllAlike extent other words' es es') :
      AllAlike extent other (words ++ words') (e :: es) (e' :: es')

end

/-- The leaf of a word that is not the name of a function. -/
def reading (extent : Extent) (word : String) : Expr :=
  match Reference.ofText? extent word with
  | some reference => reference.leaf
  | none => .literal word

theorem alike_reading (extent other : Extent) (word : String) :
    Alike extent other [word] (reading extent word) (reading other word) := by
  unfold reading
  cases h : Reference.ofText? extent word with
  | none =>
      cases h' : Reference.ofText? other word with
      | none => exact .literal h h'
      | some reference' => exact .gained h h'
  | some reference =>
      cases h' : Reference.ofText? other word with
      | none => exact .lost h h'
      | some reference' =>
          obtain rfl := Reference.ofText?_unique h h'
          exact .reference h h'

end Expr

namespace Grammar

open Token (AllAlike)

variable {extent other : Extent} {words before after : List String} {tokens tokens' : List Token}

/-- What a reader returns on two sheets: the tree takes the first of the words, and the tokens
behind it the others. -/
def Parts {α : Type} (alike : List String → α → α → Prop) (extent other : Extent)
    (words : List String) (s s' : α × List Token) : Prop :=
  ∃ before after, words = before ++ after ∧ alike before s.1 s'.1 ∧
    AllAlike extent other after s.2 s'.2

/-- A reader that does the same on both sheets. -/
def Agrees (extent other : Extent) (reader : Reader) : Prop :=
  ∀ words tokens tokens', AllAlike extent other words tokens tokens' →
    Related (FormulaError.Alike extent other) (Parts (Expr.Alike extent other) extent other words)
      (reader tokens) (reader tokens')

theorem alike_unexpected (h : AllAlike extent other words tokens tokens') :
    FormulaError.Alike extent other (unexpected tokens) (unexpected tokens') := by
  cases h with
  | nil => exact .same _
  | cons h _ => exact .token h

theorem alike_operator? {operator? : Token → Option Operator}
    (hoperator : ∀ token, token.isReading = true → operator? token = none) {token token' : Token}
    (h : Token.Alike extent other words token token') :
    operator? token' = operator? token ∧ (operator? token ≠ none → words = []) := by
  cases h with
  | same => exact ⟨rfl, fun _ => rfl⟩
  | word word =>
      have hnone : ∀ extent, operator? (Token.reading extent word) = none := fun extent =>
        hoperator _ (Token.isReading_reading extent word)
      exact ⟨(hnone other).trans (hnone extent).symm, fun hne => absurd (hnone extent) hne⟩

theorem sumOperator?_of_isReading (token : Token) (h : token.isReading = true) :
    sumOperator? token = none := by
  cases token <;> first | rfl | cases h

theorem productOperator?_of_isReading (token : Token) (h : token.isReading = true) :
    productOperator? token = none := by
  cases token <;> first | rfl | cases h

theorem related_chain {operator? : Token → Option Operator} {operand : Reader}
    (hoperator : ∀ token, token.isReading = true → operator? token = none)
    (hoperand : Agrees extent other operand) (rounds : Nat) {left left' : Expr}
    (hleft : Expr.Alike extent other before left left')
    (htokens : AllAlike extent other after tokens tokens') :
    Related (FormulaError.Alike extent other)
      (Parts (Expr.Alike extent other) extent other (before ++ after))
      (chain operator? operand rounds left tokens)
      (chain operator? operand rounds left' tokens') := by
  induction rounds generalizing before after left left' tokens tokens' with
  | zero =>
      rw [chain, chain]
      · exact .ok ⟨before, after, rfl, hleft, htokens⟩
      · simp
      · simp
  | succ rounds ih =>
      cases htokens with
      | nil =>
          rw [chain, chain]
          · exact .ok ⟨before, [], rfl, hleft, .nil⟩
          · simp
          · simp
      | cons htoken hrest =>
          obtain ⟨hsame, hwords⟩ := alike_operator? hoperator htoken
          rename_i first _ token token' rest rest'
          rw [chain, chain, hsame]
          cases hop : operator? token with
          | none => exact .ok ⟨before, _, rfl, hleft, .cons htoken hrest⟩
          | some operator =>
              obtain rfl : first = [] := hwords (by simp [hop])
              refine (hoperand _ _ _ hrest).bind ?_
              rintro ⟨right, behind⟩ ⟨right', behind'⟩ ⟨own, others, rfl, hright, hbehind⟩
              rw [List.nil_append, ← List.append_assoc]
              exact ih (.binary operator hleft hright) hbehind

theorem agrees_chained {operator? : Token → Option Operator} {operand : Reader}
    (hoperator : ∀ token, token.isReading = true → operator? token = none)
    (hoperand : Agrees extent other operand) :
    Agrees extent other (chained operator? operand) := by
  intro words tokens tokens' h
  refine (hoperand words tokens tokens' h).bind ?_
  rintro ⟨left, rest⟩ ⟨left', rest'⟩ ⟨before, after, rfl, hleft, hrest⟩
  dsimp only
  -- the chains may go on for as many rounds as there are tokens left
  rw [← hrest.length_eq]
  exact related_chain hoperator hoperand _ hleft hrest

theorem agrees_sum {signed : Reader} (hsigned : Agrees extent other signed) :
    Agrees extent other (sum signed) :=
  agrees_chained sumOperator?_of_isReading (agrees_chained productOperator?_of_isReading hsigned)

theorem related_arguments {argument : Reader} (hargument : Agrees extent other argument)
    (rounds : Nat) (h : AllAlike extent other words tokens tokens') :
    Related (FormulaError.Alike extent other)
      (Parts (Expr.AllAlike extent other) extent other words)
      (arguments argument rounds tokens) (arguments argument rounds tokens') := by
  induction rounds generalizing words tokens tokens' with
  | zero => exact .error (.same _)
  | succ rounds ih =>
      rw [arguments, arguments]
      refine (hargument _ _ _ h).bind ?_
      rintro ⟨first, rest⟩ ⟨first', rest'⟩ ⟨before, after, rfl, hfirst, hrest⟩
      dsimp only at hrest ⊢
      rcases hrest.split .comma rfl with
        ⟨behind, behind', rfl, rfl, hbehind⟩ | ⟨hcomma, hcomma'⟩
      · refine (ih hbehind).bind ?_
        rintro ⟨others, last⟩ ⟨others', last'⟩ ⟨own, remaining, rfl, hothers, hlast⟩
        exact .ok ⟨before ++ own, remaining, by simp, .cons hfirst hothers, hlast⟩
      · rcases hrest.split .rightParen rfl with
          ⟨behind, behind', rfl, rfl, hbehind⟩ | ⟨hparen, hparen'⟩
        · refine .ok ⟨before, after, rfl, ?_, hbehind⟩
          rw [← List.append_nil before]
          exact .cons hfirst .nil
        · split
          · exact absurd rfl hcomma
          · exact absurd rfl hparen
          · split
            · exact absurd rfl hcomma'
            · exact absurd rfl hparen'
            · exact .error (alike_unexpected hrest)

theorem primary_reading (inner : Reader) (extent : Extent) (word : String) (rest : List Token) :
    primary inner (Token.reading extent word :: rest) = .ok (Expr.reading extent word, rest) := by
  unfold Token.reading Expr.reading
  cases Reference.ofText? extent word with
  | none => rfl
  | some reference => cases reference <;> rfl

theorem related_call {inner : Reader} (hinner : Agrees extent other inner) (name : String)
    (h : AllAlike extent other words tokens tokens') :
    Related (FormulaError.Alike extent other) (Parts (Expr.Alike extent other) extent other words)
      (primary inner (.name name :: tokens)) (primary inner (.name name :: tokens')) := by
  rcases h.split .leftParen rfl with
    ⟨rest, rest', rfl, rfl, hrest⟩ | ⟨hopen, hopen'⟩
  · rcases hrest.split .rightParen rfl with
      ⟨behind, behind', rfl, rfl, hbehind⟩ | ⟨hclose, hclose'⟩
    · exact .ok ⟨[], words, rfl, .call name .nil, hbehind⟩
    · rw [primary, primary, hrest.length_eq]
      · refine (related_arguments hinner _ hrest).bind ?_
        rintro ⟨given, last⟩ ⟨given', last'⟩ ⟨before, after, rfl, hgiven, hlast⟩
        exact .ok ⟨before, after, rfl, .call name hgiven, hlast⟩
      · rintro _ rfl
        exact hclose' rfl
      · rintro _ rfl
        exact hclose rfl
  · rw [primary, primary]
    · exact .error (alike_unexpected h)
    · rintro _ rfl
      exact hopen' rfl
    · rintro _ rfl
      exact hopen' rfl
    · rintro _ rfl
      exact hopen rfl
    · rintro _ rfl
      exact hopen rfl

theorem agrees_primary {inner : Reader} (hinner : Agrees extent other inner) :
    Agrees extent other (primary inner) := by
  intro words tokens tokens' h
  cases h with
  | nil => exact .error (.same _)
  | @cons _ others first _ _ _ hfirst hrest =>
      cases hfirst with
      | word word =>
          rw [primary_reading, primary_reading]
          exact .ok ⟨[word], others, rfl, Expr.alike_reading extent other word, hrest⟩
      | same hsame =>
          cases first with
          | number x => exact .ok ⟨[], others, rfl, .number x, hrest⟩
          | name name => exact related_call hinner name hrest
          | leftParen =>
              refine (hinner _ _ _ hrest).bind ?_
              rintro ⟨group, behind⟩ ⟨group', behind'⟩ ⟨before, after, rfl, hgroup, hbehind⟩
              dsimp only at hbehind ⊢
              rcases hbehind.split .rightParen rfl with
                ⟨last, last', rfl, rfl, hlast⟩ | ⟨hclose, hclose'⟩
              · exact .ok ⟨before, after, rfl, hgroup, hlast⟩
              · split
                · exact absurd rfl hclose
                · split
                  · exact absurd rfl hclose'
                  · exact .error (alike_unexpected hbehind)
          | cell | range | literal => cases hsame
          | _ => exact .error (.same _)

theorem agrees_operand {signed : Reader} (hsigned : Agrees extent other signed) :
    Agrees extent other (operand signed) := by
  intro words tokens tokens' h
  refine (agrees_primary (agrees_sum hsigned) words tokens tokens' h).bind ?_
  rintro ⟨base, rest⟩ ⟨base', rest'⟩ ⟨before, after, rfl, hbase, hrest⟩
  dsimp only at hrest ⊢
  rcases hrest.split .caret rfl with
    ⟨behind, behind', rfl, rfl, hbehind⟩ | ⟨hcaret, hcaret'⟩
  · refine (hsigned _ _ _ hbehind).bind ?_
    rintro ⟨exponent, last⟩ ⟨exponent', last'⟩ ⟨own, others, rfl, hexponent, hlast⟩
    exact .ok ⟨before ++ own, others, by simp, .binary .power hbase hexponent, hlast⟩
  · split
    · exact absurd rfl hcaret
    · split
      · exact absurd rfl hcaret'
      · exact .ok ⟨before, after, rfl, hbase, hrest⟩

theorem agrees_signed (depth : Nat) : Agrees extent other (signed depth) := by
  induction depth with
  | zero =>
      intro words tokens tokens' h
      rw [signed, signed]
      exact .error (.same _)
  | succ depth ih =>
      intro words tokens tokens' h
      rcases h.split .minus rfl with ⟨rest, rest', rfl, rfl, hrest⟩ | ⟨hminus, hminus'⟩
      · refine (ih _ _ _ hrest).bind ?_
        rintro ⟨inner, last⟩ ⟨inner', last'⟩ ⟨before, after, rfl, hinner, hlast⟩
        exact .ok ⟨before, after, rfl, .negate hinner, hlast⟩
      rcases h.split .plus rfl with ⟨rest, rest', rfl, rfl, hrest⟩ | ⟨hplus, hplus'⟩
      · exact ih _ _ _ hrest
      rw [signed, signed]
      · exact agrees_operand ih _ _ _ h
      · rintro _ rfl
        exact hminus' rfl
      · rintro _ rfl
        exact hplus' rfl
      · rintro _ rfl
        exact hminus rfl
      · rintro _ rfl
        exact hplus rfl

theorem related_parseTokens (h : AllAlike extent other words tokens tokens') :
    Related (FormulaError.Alike extent other) (Expr.Alike extent other words)
      (parseTokens tokens) (parseTokens tokens') := by
  have hempty : tokens.isEmpty = tokens'.isEmpty := by
    cases h <;> rfl
  unfold parseTokens
  rw [hempty, h.length_eq]
  split
  · exact .error (.same _)
  split
  · exact .error (.same _)
  refine (agrees_sum (agrees_signed nestingLimit) _ _ _ h).bind ?_
  rintro ⟨e, rest⟩ ⟨e', rest'⟩ ⟨before, after, rfl, he, hrest⟩
  cases hrest with
  | nil =>
      rw [List.append_nil]
      exact .ok he
  | cons hfirst _ => exact .error (.token hfirst)

end Grammar

namespace Token

variable {extent other : Extent} {c : Char} {rest after : List Char} {token : Token}

theorem isReading_of_sign? {sign : Token} (h : sign? c = some sign) : sign.isReading = false := by
  unfold sign? at h
  split at h <;> first | (obtain rfl := Option.some.inj h; rfl) | cases h

theorem ofWord_cases (word rest : List Char) :
    (∃ name, ∀ extent, ofWord extent word rest = .name name) ∨
      ∀ extent, ofWord extent word rest = reading extent (String.ofList word) := by
  by_cases hcalled : (rest.dropWhile Text.isBlank).head? = some '(' ∧ word.all Char.isAlpha = true
  · refine .inl ⟨String.ofList (word.map Char.toUpper), fun extent => ?_⟩
    rw [ofWord, Reference.ofText?_of_isAlpha (List.all_eq_true.mp hcalled.2)]
    exact if_pos hcalled
  · refine .inr fun extent => ?_
    unfold ofWord reading
    cases Reference.ofText? extent (String.ofList word) with
    | none => exact if_neg hcalled
    | some reference => cases reference <;> rfl

/-- What is cut off the start of a text does not depend on the sheet, and neither does the token,
but for what a word refers to. -/
theorem next_uniform (c : Char) (rest : List Char) :
    (∃ reason, ∀ extent, next extent c rest = .error reason) ∨
      (∃ token after, token.isReading = false ∧
        ∀ extent, next extent c rest = .ok (token, after)) ∨
      ∃ word after, c.isAlpha = true ∧ splitWord (c :: rest) = (word, after) ∧
        ∀ extent, next extent c rest = .ok (reading extent (String.ofList word), after) := by
  unfold next
  split
  · rename_i sign hsign
    exact .inr (.inl ⟨sign, rest, isReading_of_sign? hsign, fun _ => rfl⟩)
  split
  · dsimp only
    split
    · exact .inr (.inl ⟨_, _, rfl, fun _ => rfl⟩)
    · exact .inl ⟨_, fun _ => rfl⟩
  split
  · rename_i hletter
    rcases ofWord_cases (splitWord (c :: rest)).1 (splitWord (c :: rest)).2 with
      ⟨name, hname⟩ | hreading
    · refine .inr (.inl ⟨.name name, (splitWord (c :: rest)).2, rfl, fun extent => ?_⟩)
      dsimp only
      rw [hname]
    · refine .inr (.inr ⟨(splitWord (c :: rest)).1, (splitWord (c :: rest)).2, hletter, rfl, ?_⟩)
      intro extent
      dsimp only
      rw [hreading]
  · exact .inl ⟨_, fun _ => rfl⟩

theorem related_tokenize (extent other : Extent) (cs : List Char) :
    Related (FormulaError.Alike extent other)
      (fun tokens tokens' => ∃ words, WordsIn words cs ∧
        AllAlike extent other words tokens tokens')
      (tokenize extent cs) (tokenize other cs) := by
  -- a token takes several characters, so the induction is on the length
  induction hlength : cs.length using Nat.strongRecOn generalizing cs with
  | ind length ih =>
      subst hlength
      cases cs with
      | nil =>
          rw [tokenize, tokenize]
          exact .ok ⟨[], .nil _, .nil⟩
      | cons c rest =>
          cases hblank : Text.isBlank c with
          | true =>
              rw [tokenize_of_isBlank hblank, tokenize_of_isBlank hblank]
              refine (ih rest.length (by simp) rest rfl).imp ?_
              rintro tokens tokens' ⟨words, hwords, htokens⟩
              exact ⟨words, hwords.append_left [c], htokens⟩
          | false =>
              rcases next_uniform c rest with
                ⟨reason, hnext⟩ | ⟨token, after, htoken, hnext⟩ | ⟨word, after, hletter, hcut, hnext⟩
              · rw [tokenize_eq_error hblank (hnext extent), tokenize_eq_error hblank (hnext other)]
                exact .error (.same reason)
              · rw [tokenize_cons hblank (hnext extent), tokenize_cons hblank (hnext other)]
                refine (ih after.length (length_of_next (hnext extent)) after rfl).map ?_
                rintro tokens tokens' ⟨words, hwords, htokens⟩
                obtain ⟨text, htext, -⟩ := exists_isText (hnext extent)
                refine ⟨[] ++ words, ?_, .cons (.same htoken) htokens⟩
                rw [htext]
                exact hwords.append_left text
              · rw [tokenize_cons hblank (hnext extent), tokenize_cons hblank (hnext other)]
                refine (ih after.length (length_of_next (hnext extent)) after rfl).map ?_
                rintro tokens tokens' ⟨words, hwords, htokens⟩
                have hword : WordsIn (String.ofList word :: words) ([] ++ c :: rest) :=
                  .cons hletter hcut hwords
                exact ⟨[String.ofList word] ++ words, hword, .cons (.word _) htokens⟩

end Token

/-- A text is a formula on sheets of any size or of none. The trees that it has on two sheets differ
at most in leaves of words that refer to cells of one sheet and to none of the other, where the leaf
is the word itself; the words stand in the text in the order of the leaves. If it is no formula then
it fails for the same reason on both. -/
theorem parseFormula_alike (extent other : Extent) (text : String) :
    Related (FormulaError.Alike extent other)
      (fun e e' => ∃ words, WordsIn words text.toList ∧ Expr.Alike extent other words e e')
      (parseFormula extent text) (parseFormula other text) := by
  refine (Token.related_tokenize extent other text.toList).bind ?_
  rintro tokens tokens' ⟨words, hwords, htokens⟩
  exact (Grammar.related_parseTokens htokens).imp fun e e' he => ⟨words, hwords, he⟩

/-- Only what the word of a reference stands for changes with the size. -/
example : Token.tokenize ⟨2, 2⟩ "max(A1:B2)*C3".toList =
      .ok [.name "MAX", .leftParen, .range ⟨⟨0, 0⟩, ⟨1, 1⟩⟩, .rightParen, .star, .literal "C3"] ∧
    Token.tokenize ⟨3, 1⟩ "max(A1:B2)*C3".toList =
      .ok [.name "MAX", .leftParen, .literal "A1:B2", .rightParen, .star, .literal "C3"] := by
  decide +kernel

end Spreadsheet
