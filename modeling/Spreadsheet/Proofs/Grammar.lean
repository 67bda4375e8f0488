import Spreadsheet.Proofs.Derivations
import Spreadsheet.Proofs.Outcome

namespace Spreadsheet

namespace Grammar

variable {e : Expr} {tokens rest : List Token}

/-- A reader that takes what a rule derives from the start of the tokens. -/
def IsSound (reader : Reader) (rule : List Token → Expr → Prop) : Prop :=
  ∀ tokens e rest, reader tokens = .ok (e, rest) → ∃ used, tokens = used ++ rest ∧ rule used e

theorem exists_used_chain {operator? : Token → Option Operator} {operand : Reader}
    {link whole : List Token → Expr → Prop} (hoperand : IsSound operand link)
    (hjoin : ∀ token operator before left after right, operator? token = some operator →
      whole before left → link after right →
        whole (before ++ token :: after) (.binary operator left right))
    (rounds : Nat) (left : Expr) (before behind : List Token) (hleft : whole before left)
    (h : chain operator? operand rounds left behind = .ok (e, rest)) :
    ∃ used, behind = used ++ rest ∧ whole (before ++ used) e := by
  induction rounds generalizing left before behind with
  | zero =>
      rw [chain] at h
      · obtain ⟨rfl, rfl⟩ := Prod.mk.inj (Except.ok.inj h)
        exact ⟨[], rfl, by simpa using hleft⟩
      · simp
  | succ rounds ih =>
      cases behind with
      | nil =>
          rw [chain] at h
          · obtain ⟨rfl, rfl⟩ := Prod.mk.inj (Except.ok.inj h)
            exact ⟨[], rfl, by simpa using hleft⟩
          · simp
      | cons token behind =>
          rw [chain] at h
          cases hop : operator? token with
          | none =>
              simp only [hop] at h
              obtain ⟨rfl, rfl⟩ := Prod.mk.inj (Except.ok.inj h)
              exact ⟨[], rfl, by simpa using hleft⟩
          | some operator =>
              simp only [hop] at h
              obtain ⟨⟨right, next⟩, hright, hchain⟩ := bind_eq_ok h
              obtain ⟨after, rfl, hafter⟩ := hoperand behind right next hright
              obtain ⟨used, rfl, hused⟩ := ih _ _ next
                (hjoin token operator before left after right hop hleft hafter) hchain
              exact ⟨token :: (after ++ used), by simp, by simpa using hused⟩

theorem isSound_chained {operator? : Token → Option Operator} {operand : Reader}
    {link whole : List Token → Expr → Prop} (hoperand : IsSound operand link)
    (hlink : ∀ tokens e, link tokens e → whole tokens e)
    (hjoin : ∀ token operator before left after right, operator? token = some operator →
      whole before left → link after right →
        whole (before ++ token :: after) (.binary operator left right)) :
    IsSound (chained operator? operand) whole := by
  intro tokens e rest h
  obtain ⟨⟨left, behind⟩, hleft, hchain⟩ := bind_eq_ok h
  obtain ⟨before, rfl, hbefore⟩ := hoperand tokens left behind hleft
  obtain ⟨used, rfl, hused⟩ :=
    exists_used_chain hoperand hjoin _ left before behind (hlink before left hbefore) hchain
  exact ⟨before ++ used, by simp, hused⟩

variable {nesting : Nat}

theorem isSound_product {signed : Reader} (h : IsSound signed (IsSigned nesting)) :
    IsSound (chained productOperator? signed) (IsProduct nesting) := by
  refine isSound_chained h (fun _ _ => .signed) ?_
  intro token operator before left after right hop hleft hright
  cases token with
  | star =>
      obtain rfl := Option.some.inj hop
      exact .multiply hleft hright
  | slash =>
      obtain rfl := Option.some.inj hop
      exact .divide hleft hright
  | _ => cases hop

theorem isSound_sum {signed : Reader} (h : IsSound signed (IsSigned nesting)) :
    IsSound (sum signed) (IsSum nesting) := by
  refine isSound_chained (isSound_product h) (fun _ _ => .product) ?_
  intro token operator before left after right hop hleft hright
  cases token with
  | plus =>
      obtain rfl := Option.some.inj hop
      exact .add hleft hright
  | minus =>
      obtain rfl := Option.some.inj hop
      exact .subtract hleft hright
  | _ => cases hop

theorem exists_used_arguments {argument : Reader} {es : List Expr}
    (hargument : IsSound argument (IsSum nesting)) (rounds : Nat)
    (h : arguments argument rounds tokens = .ok (es, rest)) :
    es ≠ [] ∧ ∃ used, tokens = used ++ .rightParen :: rest ∧ IsArguments nesting used es := by
  induction rounds generalizing tokens es with
  | zero => simp [arguments] at h
  | succ rounds ih =>
      rw [arguments] at h
      obtain ⟨⟨first, behind⟩, hfirst, hmore⟩ := bind_eq_ok h
      obtain ⟨before, rfl, hbefore⟩ := hargument tokens first behind hfirst
      dsimp only at hmore
      split at hmore
      · rename_i next
        obtain ⟨⟨others, last⟩, hothers, hlist⟩ := bind_eq_ok hmore
        obtain ⟨rfl, rfl⟩ := Prod.mk.inj (Except.ok.inj hlist)
        obtain ⟨hne, used, rfl, hused⟩ := ih hothers
        obtain ⟨second, others, rfl⟩ := List.exists_cons_of_ne_nil hne
        exact ⟨by simp, before ++ .comma :: used, by simp, .more hbefore hused⟩
      · rename_i next
        obtain ⟨rfl, rfl⟩ := Prod.mk.inj (Except.ok.inj hmore)
        exact ⟨by simp, before, rfl, .last hbefore⟩
      · cases hmore

theorem isSound_primary {inner : Reader} (hinner : IsSound inner (IsSum nesting)) :
    IsSound (primary inner) (IsPrimary nesting) := by
  intro tokens e rest h
  unfold primary at h
  split at h
  · obtain ⟨rfl, rfl⟩ := Prod.mk.inj (Except.ok.inj h)
    exact ⟨[_], rfl, .number _⟩
  · obtain ⟨rfl, rfl⟩ := Prod.mk.inj (Except.ok.inj h)
    exact ⟨[_], rfl, .cell _⟩
  · obtain ⟨rfl, rfl⟩ := Prod.mk.inj (Except.ok.inj h)
    exact ⟨[_], rfl, .range _⟩
  · obtain ⟨rfl, rfl⟩ := Prod.mk.inj (Except.ok.inj h)
    exact ⟨[_], rfl, .literal _⟩
  · rename_i name next
    obtain ⟨rfl, rfl⟩ := Prod.mk.inj (Except.ok.inj h)
    exact ⟨[.name name, .leftParen, .rightParen], rfl, .call name .none⟩
  · rename_i name next _
    obtain ⟨⟨given, last⟩, hgiven, h⟩ := bind_eq_ok h
    obtain ⟨rfl, rfl⟩ := Prod.mk.inj (Except.ok.inj h)
    obtain ⟨-, used, rfl, hused⟩ := exists_used_arguments hinner _ hgiven
    exact ⟨.name name :: .leftParen :: (used ++ [.rightParen]), by simp, .call name hused⟩
  · cases h
  · rename_i next
    obtain ⟨⟨group, behind⟩, hgroup, hclose⟩ := bind_eq_ok h
    obtain ⟨used, rfl, hused⟩ := hinner next group behind hgroup
    dsimp only at hclose
    split at hclose
    · obtain ⟨rfl, rfl⟩ := Prod.mk.inj (Except.ok.inj hclose)
      exact ⟨.leftParen :: (used ++ [.rightParen]), by simp, .group hused⟩
    · cases hclose
  · cases h

theorem isSound_operand {signed : Reader} (hsigned : IsSound signed (IsSigned nesting)) :
    IsSound (operand signed) (IsPower nesting) := by
  intro tokens e rest h
  obtain ⟨⟨base, behind⟩, hbase, hpower⟩ := bind_eq_ok h
  obtain ⟨before, rfl, hbefore⟩ := isSound_primary (isSound_sum hsigned) tokens base behind hbase
  dsimp only at hpower
  split at hpower
  · obtain ⟨⟨exponent, last⟩, hexponent, hraised⟩ := bind_eq_ok hpower
    obtain ⟨rfl, rfl⟩ := Prod.mk.inj (Except.ok.inj hraised)
    obtain ⟨after, rfl, hafter⟩ := hsigned _ exponent last hexponent
    exact ⟨before ++ .caret :: after, by simp, .raised hbefore hafter⟩
  · obtain ⟨rfl, rfl⟩ := Prod.mk.inj (Except.ok.inj hpower)
    exact ⟨before, rfl, .primary hbefore⟩

theorem isSound_signed (depth : Nat) : IsSound (signed depth) (IsSigned depth) := by
  induction depth with
  | zero =>
      intro tokens e rest h
      rw [signed] at h
      cases h
  | succ depth ih =>
      intro tokens e rest h
      unfold signed at h
      split at h
      · cases h
      · rename_i hdepth
        obtain rfl := Nat.succ.inj hdepth
        obtain ⟨⟨inner, behind⟩, hinner, h⟩ := bind_eq_ok h
        obtain ⟨rfl, rfl⟩ := Prod.mk.inj (Except.ok.inj h)
        obtain ⟨used, rfl, hused⟩ := ih _ inner _ hinner
        exact ⟨.minus :: used, rfl, .minus hused⟩
      · rename_i hdepth
        obtain rfl := Nat.succ.inj hdepth
        obtain ⟨used, rfl, hused⟩ := ih _ e rest h
        exact ⟨.plus :: used, rfl, .plus hused⟩
      · rename_i hdepth _ _
        obtain rfl := Nat.succ.inj hdepth
        obtain ⟨used, rfl, hused⟩ := isSound_operand ih _ e rest h
        exact ⟨used, rfl, .power hused⟩

/-- How tightly an operator binds its operands. Other tokens end all operands in front of them. -/
def precedence : Token → Nat
  | .plus | .minus => 1
  | .star | .slash => 2
  | .caret => 3
  | _ => 0

/-- The tokens do not go on with an operand of operators that bind less tightly than the level. -/
def Stops (level : Nat) (tokens : List Token) : Prop :=
  ∀ token ∈ tokens.head?, precedence token < level

theorem stops_nil {level : Nat} : Stops level [] := by simp [Stops]

theorem stops_cons {level : Nat} {token : Token} (h : precedence token < level)
    (tokens : List Token) : Stops level (token :: tokens) := by
  intro other hother
  obtain rfl : token = other := by simpa using hother
  exact h

theorem Stops.mono {level higher : Nat} (h : Stops level rest) (hlevel : level ≤ higher) :
    Stops higher rest := fun token htoken => Nat.lt_of_lt_of_le (h token htoken) hlevel

theorem chain_of_none {operator? : Token → Option Operator} {operand : Reader} {rounds : Nat}
    (h : ∀ token ∈ rest.head?, operator? token = none) :
    chain operator? operand rounds e rest = .ok (e, rest) := by
  cases rounds with
  | zero => rw [chain]; simp
  | succ rounds =>
      cases rest with
      | nil => rw [chain]; simp
      | cons token rest => rw [chain, h token (by simp)]

theorem chain_of_some {operator? : Token → Option Operator} {operand : Reader} {operator : Operator}
    {token : Token} {after : List Token} {right : Expr} {rounds : Nat} (left : Expr)
    (hop : operator? token = some operator) (hread : operand (after ++ rest) = .ok (right, rest))
    (hrounds : (token :: (after ++ rest)).length ≤ rounds) :
    ∃ fewer, rest.length ≤ fewer ∧ chain operator? operand rounds left (token :: (after ++ rest)) =
      chain operator? operand fewer (.binary operator left right) rest := by
  obtain ⟨fewer, rfl⟩ : ∃ fewer, rounds = fewer + 1 := by
    simp only [List.length_cons] at hrounds
    exact ⟨rounds - 1, by omega⟩
  refine ⟨fewer, ?_, ?_⟩
  · simp only [List.length_cons, List.length_append] at hrounds
    omega
  · rw [chain, hop]
    exact bind_of_eq_ok hread

theorem exists_chain_step {operator? : Token → Option Operator} {operand : Reader}
    {operator : Operator} {token : Token} {before after : List Token} {left right : Expr}
    (hbefore : ∃ rounds, (token :: (after ++ rest)).length ≤ rounds ∧
      chained operator? operand (before ++ token :: (after ++ rest)) =
        chain operator? operand rounds left (token :: (after ++ rest)))
    (hop : operator? token = some operator) (hread : operand (after ++ rest) = .ok (right, rest)) :
    ∃ rounds, rest.length ≤ rounds ∧
      chained operator? operand ((before ++ token :: after) ++ rest) =
        chain operator? operand rounds (.binary operator left right) rest := by
  obtain ⟨rounds, hrounds, hchain⟩ := hbefore
  obtain ⟨fewer, hfewer, hstep⟩ := chain_of_some left hop hread hrounds
  refine ⟨fewer, hfewer, ?_⟩
  rw [List.append_assoc, List.cons_append, hchain, hstep]

theorem sumOperator?_of_stops (h : Stops 1 rest) :
    ∀ token ∈ rest.head?, sumOperator? token = none := by
  intro token htoken
  have hlevel := h token htoken
  cases token <;> simp_all [precedence, sumOperator?]

theorem productOperator?_of_stops (h : Stops 2 rest) :
    ∀ token ∈ rest.head?, productOperator? token = none := by
  intro token htoken
  have hlevel := h token htoken
  cases token <;> simp_all [precedence, productOperator?]

theorem read_of_exists_chain {operator? : Token → Option Operator} {operand : Reader}
    (h : ∃ rounds, rest.length ≤ rounds ∧
      chained operator? operand (tokens ++ rest) = chain operator? operand rounds e rest)
    (hrest : ∀ token ∈ rest.head?, operator? token = none) :
    chained operator? operand (tokens ++ rest) = .ok (e, rest) := by
  obtain ⟨rounds, -, hchain⟩ := h
  rw [hchain, chain_of_none hrest]

theorem operand_of_primary {signed : Reader} {base : Expr} (hrest : Stops 3 rest)
    (hbase : primary (sum signed) tokens = .ok (base, rest)) :
    operand signed tokens = .ok (base, rest) := by
  refine (bind_of_eq_ok hbase).trans ?_
  dsimp only
  split
  · exact absurd (hrest .caret rfl) (by decide)
  · rfl

mutual

theorem IsSum.exists_chain {nesting : Nat} {tokens rest : List Token} {e : Expr}
    (hrest : Stops 2 rest) : IsSum nesting tokens e → ∃ rounds, rest.length ≤ rounds ∧
      sum (signed nesting) (tokens ++ rest) =
        chain sumOperator? (chained productOperator? (signed nesting)) rounds e rest
  | .product h =>
      have hread := read_of_exists_chain (h.exists_chain (hrest.mono (by decide)))
        (productOperator?_of_stops hrest)
      ⟨rest.length, Nat.le_refl _, bind_of_eq_ok hread⟩
  | .add hleft hright => exists_chain_step (hleft.exists_chain (stops_cons (by decide) _)) rfl
      (read_of_exists_chain (hright.exists_chain (hrest.mono (by decide)))
        (productOperator?_of_stops hrest))
  | .subtract hleft hright => exists_chain_step (hleft.exists_chain (stops_cons (by decide) _)) rfl
      (read_of_exists_chain (hright.exists_chain (hrest.mono (by decide)))
        (productOperator?_of_stops hrest))

theorem IsProduct.exists_chain {nesting : Nat} {tokens rest : List Token} {e : Expr}
    (hrest : Stops 3 rest) : IsProduct nesting tokens e → ∃ rounds, rest.length ≤ rounds ∧
      chained productOperator? (signed nesting) (tokens ++ rest) =
        chain productOperator? (signed nesting) rounds e rest
  | .signed h => ⟨rest.length, Nat.le_refl _, bind_of_eq_ok (h.read hrest)⟩
  | .multiply hleft hright => exists_chain_step
      (hleft.exists_chain (stops_cons (by decide) _)) rfl (hright.read hrest)
  | .divide hleft hright => exists_chain_step
      (hleft.exists_chain (stops_cons (by decide) _)) rfl (hright.read hrest)

theorem IsSigned.read {nesting : Nat} {tokens rest : List Token} {e : Expr}
    (hrest : Stops 3 rest) :
    IsSigned nesting tokens e → signed nesting (tokens ++ rest) = .ok (e, rest)
  | .minus h => by
      rw [List.cons_append, signed]
      exact bind_of_eq_ok (h.read hrest)
  | .plus h => by
      rw [List.cons_append, signed]
      exact h.read hrest
  | .power h => by
      obtain ⟨token, others, hcons, htoken⟩ := h.exists_cons
      have hread := h.read hrest
      rw [hcons, List.cons_append] at hread ⊢
      rw [signed]
      · exact hread
      · rintro _ heq
        obtain ⟨rfl, -⟩ := List.cons.inj heq
        cases htoken
      · rintro _ heq
        obtain ⟨rfl, -⟩ := List.cons.inj heq
        cases htoken

theorem IsPower.read {nesting : Nat} {tokens rest : List Token} {e : Expr}
    (hrest : Stops 3 rest) :
    IsPower nesting tokens e → operand (signed nesting) (tokens ++ rest) = .ok (e, rest)
  | .primary h => operand_of_primary hrest (h.read rest)
  | .raised hbase hexponent => by
      rw [List.append_assoc, List.cons_append]
      refine (bind_of_eq_ok (hbase.read _)).trans ?_
      exact bind_of_eq_ok (hexponent.read hrest)

theorem IsPrimary.read {nesting : Nat} {tokens : List Token} {e : Expr} (rest : List Token) :
    IsPrimary nesting tokens e → primary (sum (signed nesting)) (tokens ++ rest) = .ok (e, rest)
  | .number x | .cell p | .range r | .literal text => rfl
  | @IsPrimary.call _ given es name h => by
      by_cases hes : es = []
      · subst hes
        rw [h.eq_nil]
        rfl
      · obtain ⟨token, others, hcons, htoken⟩ := h.exists_cons hes
        have hlength : given.length < (given ++ .rightParen :: rest).length + 1 := by
          simp only [List.length_append]
          omega
        have hread := h.read rest hes hlength
        rw [List.cons_append, List.cons_append, List.append_assoc, List.singleton_append]
        rw [hcons, List.cons_append] at hread ⊢
        rw [primary]
        · exact bind_of_eq_ok hread
        · rintro _ heq
          exact htoken (List.cons.inj heq).1
  | .group h => by
      have hclosed : Stops 1 (.rightParen :: rest) := stops_cons (by decide) rest
      have hread := read_of_exists_chain
        (h.exists_chain (hclosed.mono (by decide))) (sumOperator?_of_stops hclosed)
      rw [List.cons_append, List.append_assoc, List.singleton_append, primary]
      exact bind_of_eq_ok hread

theorem IsArguments.read {nesting rounds : Nat} {tokens : List Token} {es : List Expr}
    (rest : List Token) (hes : es ≠ []) (hrounds : tokens.length < rounds) :
    IsArguments nesting tokens es →
      arguments (sum (signed nesting)) rounds (tokens ++ .rightParen :: rest) = .ok (es, rest)
  | .none => absurd rfl hes
  | .last h => by
      obtain ⟨rounds, rfl⟩ := Nat.exists_eq_add_of_lt hrounds
      have hclosed : Stops 1 (.rightParen :: rest) := stops_cons (by decide) rest
      have hread := read_of_exists_chain
        (h.exists_chain (hclosed.mono (by decide))) (sumOperator?_of_stops hclosed)
      rw [arguments]
      exact bind_of_eq_ok hread
  | @IsArguments.more _ _ after _ _ _ hfirst hothers => by
      obtain ⟨rounds, rfl⟩ := Nat.exists_eq_add_of_lt hrounds
      have hclosed : Stops 1 (.comma :: (after ++ .rightParen :: rest)) :=
        stops_cons (by decide) _
      have hread := read_of_exists_chain
        (hfirst.exists_chain (hclosed.mono (by decide))) (sumOperator?_of_stops hclosed)
      rw [List.append_assoc, List.cons_append, arguments]
      refine (bind_of_eq_ok hread).trans ?_
      refine bind_of_eq_ok (hothers.read rest (by simp) ?_)
      simp only [List.length_append, List.length_cons]
      omega

end

theorem IsSum.read (h : IsSum nesting tokens e) (hrest : Stops 1 rest) :
    sum (signed nesting) (tokens ++ rest) = .ok (e, rest) :=
  read_of_exists_chain (h.exists_chain (hrest.mono (by decide))) (sumOperator?_of_stops hrest)

theorem parseTokens_eq_ok_iff : parseTokens tokens = .ok e ↔
    tokens ≠ [] ∧ tokens.length ≤ tokenLimit ∧ IsSum nestingLimit tokens e := by
  unfold parseTokens
  by_cases hempty : tokens = []
  · simp [hempty]
  rw [if_neg (by simpa using hempty)]
  by_cases hlong : tokenLimit < tokens.length
  · rw [if_pos hlong]
    simp [Nat.not_le_of_lt hlong]
  rw [if_neg hlong]
  constructor
  · intro h
    obtain ⟨⟨whole, behind⟩, hwhole, hend⟩ := bind_eq_ok h
    obtain ⟨used, rfl, hused⟩ := isSound_sum (isSound_signed nestingLimit) _ whole behind hwhole
    dsimp only at hend
    split at hend
    · obtain rfl := Except.ok.inj hend
      rw [List.append_nil] at hempty hlong ⊢
      exact ⟨hempty, Nat.le_of_not_lt hlong, hused⟩
    · cases hend
  · rintro ⟨-, -, h⟩
    have hread := h.read stops_nil
    rw [List.append_nil] at hread
    exact bind_of_eq_ok hread

theorem parseTokens_sound (h : parseTokens tokens = .ok e) :
    tokens.IsChain Token.Separate ∧ ∀ p ∈ e.reads, ∃ token ∈ tokens, p ∈ token.cells := by
  have hnames := (parseTokens_eq_ok_iff.mp h).2.2.names
  exact ⟨hnames.separate, fun p hp =>
    hnames.exists_token p (Expr.mem_readsOfArguments_of_mem_reads hp)⟩

/-- The grammar is unambiguous. -/
theorem IsSum.unique {bound : Nat} {e' : Expr} (h : IsSum nesting tokens e)
    (h' : IsSum bound tokens e') : e = e' := by
  have hread := (h.mono (Nat.le_max_left nesting bound)).read stops_nil
  have hread' := (h'.mono (Nat.le_max_right nesting bound)).read stops_nil
  exact (Prod.mk.inj (Except.ok.inj (hread.symm.trans hread'))).1

end Grammar

open Grammar

/-- A text is a formula exactly if the grammar derives its tokens within both limits. No derivation,
however deep, gives these tokens another tree. -/
theorem parseFormula_eq_ok_iff {extent : Extent} {text : String} {tokens : List Token} {e : Expr}
    (htokens : Token.tokenize extent text.toList = .ok tokens) :
    (parseFormula extent text = .ok e ↔
      1 ≤ tokens.length ∧ tokens.length ≤ tokenLimit ∧ IsSum nestingLimit tokens e) ∧
    (IsSum nestingLimit tokens e → ∀ nesting other, IsSum nesting tokens other → other = e) := by
  have hparse : parseFormula extent text = parseTokens tokens := bind_of_eq_ok htokens
  refine ⟨?_, fun h nesting other hother => hother.unique h⟩
  rw [hparse, parseTokens_eq_ok_iff, Nat.one_le_iff_ne_zero, List.length_eq_zero_iff.ne]

/-- A sign in front of a power, a call with a range and a signed argument, and a group. -/
def mixedFormula : String := "-A1^B2 + sum(A1:B2, +C1) * (C2 - x)"

def mixedTokens : List Token :=
  [.minus, .cell ⟨0, 0⟩, .caret, .cell ⟨1, 1⟩, .plus, .name "SUM", .leftParen,
    .range ⟨⟨0, 0⟩, ⟨1, 1⟩⟩, .comma, .plus, .cell ⟨0, 2⟩, .rightParen, .star, .leftParen,
    .cell ⟨1, 2⟩, .minus, .literal "x", .rightParen]

theorem parseFormula_mixedFormula :
    Token.tokenize ⟨3, 3⟩ mixedFormula.toList = .ok mixedTokens ∧
      parseFormula ⟨3, 3⟩ mixedFormula = .ok (.binary .add
        (.negate (.binary .power (.cell ⟨0, 0⟩) (.cell ⟨1, 1⟩)))
        (.binary .multiply
          (.call "SUM" [.range ⟨⟨0, 0⟩, ⟨1, 1⟩⟩, .cell ⟨0, 2⟩])
          (.binary .subtract (.cell ⟨1, 2⟩) (.literal "x")))) := by
  have htokens : Token.tokenize ⟨3, 3⟩ mixedFormula.toList = .ok mixedTokens := by
    decide +kernel
  have hsingle : ∀ {tokens e}, IsPrimary 2 tokens e → IsSigned 3 tokens e := fun h =>
    .power (.primary h)
  have hpower : IsSigned 3 [.minus, .cell ⟨0, 0⟩, .caret, .cell ⟨1, 1⟩]
      (.negate (.binary .power (.cell ⟨0, 0⟩) (.cell ⟨1, 1⟩))) :=
    .minus (.power (@IsPower.raised _ [_] _ _ _ (.cell _) (.power (.primary (.cell _)))))
  have harguments : IsArguments 2 [.range ⟨⟨0, 0⟩, ⟨1, 1⟩⟩, .comma, .plus, .cell ⟨0, 2⟩]
      [.range ⟨⟨0, 0⟩, ⟨1, 1⟩⟩, .cell ⟨0, 2⟩] :=
    @IsArguments.more _ [_] _ _ _ _ (.product (.signed (.power (.primary (.range _)))))
      (.last (.product (.signed (.plus (.power (.primary (.cell _)))))))
  have hdifference : IsSum 2 [.cell ⟨1, 2⟩, .minus, .literal "x"]
      (.binary .subtract (.cell ⟨1, 2⟩) (.literal "x")) :=
    @IsSum.subtract _ [_] _ _ _ (.product (.signed (.power (.primary (.cell _)))))
      (.signed (.power (.primary (.literal _))))
  have hproduct := IsProduct.multiply (.signed (hsingle (.call "SUM" harguments)))
    (hsingle (.group hdifference))
  have hsum := IsSum.add (.product (.signed hpower)) hproduct
  refine ⟨htokens, (parseFormula_eq_ok_iff htokens).1.mpr ⟨by decide, by decide, ?_⟩⟩
  exact hsum.mono (by decide)

end Spreadsheet
