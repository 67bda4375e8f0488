import Mathlib.Data.List.Chain
import Spreadsheet.Formula.Grammar

/-!
The grammar of formulas as a relation between tokens and trees, one predicate a rule:

* `sum := product (('+' | '-') product)*`
* `product := signed (('*' | '/') signed)*`
* `signed := ('+' | '-') signed | power`
* `power := primary ('^' signed)?`
* `primary := NUMBER | CELL | RANGE | LITERAL | NAME '(' arguments ')' | '(' sum ')'`
* `arguments := (sum (',' sum)*)?`

Sums and products group to the left. All derivations count the signed operands that are open at
once, and the count in front of the tokens is a bound for it. In the tokens of a derivation no two
operands stand side by side, and every cell that the tree reads is named by one of them.
-/

namespace Spreadsheet

namespace Token

/-- Whether a token is an operand or the name of a function. -/
def isOperand : Token → Bool
  | .number _ | .cell _ | .range _ | .literal _ | .name _ => true
  | _ => false

/-- The cells that a token names. -/
def cells : Token → List Position
  | .cell p => [p]
  | .range r => r.cells
  | _ => []

/-- Two tokens that can stand side by side in a formula. -/
def Separate (a b : Token) : Prop := ¬ (a.isOperand = true ∧ b.isOperand = true)

theorem isChain_separate_append {before after : List Token} {sign : Token}
    (hsign : sign.isOperand = false) (hbefore : before.IsChain Separate)
    (hafter : after.IsChain Separate) : (before ++ sign :: after).IsChain Separate := by
  rw [List.isChain_append, List.isChain_cons]
  refine ⟨hbefore, ⟨?_, hafter⟩, ?_⟩
  · rintro b - ⟨hoperand, -⟩
    simp [hsign] at hoperand
  · rintro a - b hb ⟨-, hoperand⟩
    obtain rfl : sign = b := by simpa using hb
    simp [hsign] at hoperand

end Token

namespace Expr

theorem mem_readsOfArguments_of_mem_reads {e : Expr} {p : Position} (hp : p ∈ e.reads) :
    p ∈ readsOfArguments [e] := by
  cases e <;> simp_all [readsOfArguments, reads]

end Expr

namespace Grammar

mutual

inductive IsSum : Nat → List Token → Expr → Prop
  | product {nesting : Nat} {tokens : List Token} {e : Expr} (h : IsProduct nesting tokens e) :
      IsSum nesting tokens e
  | add {nesting : Nat} {before after : List Token} {left right : Expr}
      (hleft : IsSum nesting before left) (hright : IsProduct nesting after right) :
      IsSum nesting (before ++ .plus :: after) (.binary .add left right)
  | subtract {nesting : Nat} {before after : List Token} {left right : Expr}
      (hleft : IsSum nesting before left) (hright : IsProduct nesting after right) :
      IsSum nesting (before ++ .minus :: after) (.binary .subtract left right)

inductive IsProduct : Nat → List Token → Expr → Prop
  | signed {nesting : Nat} {tokens : List Token} {e : Expr} (h : IsSigned nesting tokens e) :
      IsProduct nesting tokens e
  | multiply {nesting : Nat} {before after : List Token} {left right : Expr}
      (hleft : IsProduct nesting before left) (hright : IsSigned nesting after right) :
      IsProduct nesting (before ++ .star :: after) (.binary .multiply left right)
  | divide {nesting : Nat} {before after : List Token} {left right : Expr}
      (hleft : IsProduct nesting before left) (hright : IsSigned nesting after right) :
      IsProduct nesting (before ++ .slash :: after) (.binary .divide left right)

/-- A signed operand is open while what it is made of is derived. -/
inductive IsSigned : Nat → List Token → Expr → Prop
  | minus {nesting : Nat} {tokens : List Token} {e : Expr} (h : IsSigned nesting tokens e) :
      IsSigned (nesting + 1) (.minus :: tokens) (.negate e)
  | plus {nesting : Nat} {tokens : List Token} {e : Expr} (h : IsSigned nesting tokens e) :
      IsSigned (nesting + 1) (.plus :: tokens) e
  | power {nesting : Nat} {tokens : List Token} {e : Expr} (h : IsPower nesting tokens e) :
      IsSigned (nesting + 1) tokens e

inductive IsPower : Nat → List Token → Expr → Prop
  | primary {nesting : Nat} {tokens : List Token} {e : Expr} (h : IsPrimary nesting tokens e) :
      IsPower nesting tokens e
  | raised {nesting : Nat} {before after : List Token} {base exponent : Expr}
      (hbase : IsPrimary nesting before base) (hexponent : IsSigned nesting after exponent) :
      IsPower nesting (before ++ .caret :: after) (.binary .power base exponent)

inductive IsPrimary : Nat → List Token → Expr → Prop
  | number {nesting : Nat} (x : Float) : IsPrimary nesting [.number x] (.number x)
  | cell {nesting : Nat} (p : Position) : IsPrimary nesting [.cell p] (.cell p)
  | range {nesting : Nat} (r : Range) : IsPrimary nesting [.range r] (.range r)
  | literal {nesting : Nat} (text : String) : IsPrimary nesting [.literal text] (.literal text)
  | call {nesting : Nat} {tokens : List Token} {es : List Expr} (name : String)
      (h : IsArguments nesting tokens es) :
      IsPrimary nesting (.name name :: .leftParen :: (tokens ++ [.rightParen])) (.call name es)
  | group {nesting : Nat} {tokens : List Token} {e : Expr} (h : IsSum nesting tokens e) :
      IsPrimary nesting (.leftParen :: (tokens ++ [.rightParen])) e

inductive IsArguments : Nat → List Token → List Expr → Prop
  | none {nesting : Nat} : IsArguments nesting [] []
  | last {nesting : Nat} {tokens : List Token} {e : Expr} (h : IsSum nesting tokens e) :
      IsArguments nesting tokens [e]
  | more {nesting : Nat} {before after : List Token} {first second : Expr} {others : List Expr}
      (hfirst : IsSum nesting before first)
      (hothers : IsArguments nesting after (second :: others)) :
      IsArguments nesting (before ++ .comma :: after) (first :: second :: others)

end

mutual

theorem IsSum.mono {nesting bound : Nat} {tokens : List Token} {e : Expr}
    (hbound : nesting ≤ bound) :
    IsSum nesting tokens e → IsSum bound tokens e
  | .product h => .product (h.mono hbound)
  | .add hleft hright => .add (hleft.mono hbound) (hright.mono hbound)
  | .subtract hleft hright => .subtract (hleft.mono hbound) (hright.mono hbound)

theorem IsProduct.mono {nesting bound : Nat} {tokens : List Token} {e : Expr}
    (hbound : nesting ≤ bound) :
    IsProduct nesting tokens e → IsProduct bound tokens e
  | .signed h => .signed (h.mono hbound)
  | .multiply hleft hright => .multiply (hleft.mono hbound) (hright.mono hbound)
  | .divide hleft hright => .divide (hleft.mono hbound) (hright.mono hbound)

theorem IsSigned.mono {nesting bound : Nat} {tokens : List Token} {e : Expr}
    (hbound : nesting ≤ bound) :
    IsSigned nesting tokens e → IsSigned bound tokens e := by
  intro h
  obtain ⟨rest, rfl⟩ : ∃ rest, bound = rest + 1 := by
    cases h <;> exact ⟨bound - 1, by omega⟩
  match h with
  | .minus h => exact .minus (h.mono (Nat.le_of_succ_le_succ hbound))
  | .plus h => exact .plus (h.mono (Nat.le_of_succ_le_succ hbound))
  | .power h => exact .power (h.mono (Nat.le_of_succ_le_succ hbound))

theorem IsPower.mono {nesting bound : Nat} {tokens : List Token} {e : Expr}
    (hbound : nesting ≤ bound) :
    IsPower nesting tokens e → IsPower bound tokens e
  | .primary h => .primary (h.mono hbound)
  | .raised hbase hexponent => .raised (hbase.mono hbound) (hexponent.mono hbound)

theorem IsPrimary.mono {nesting bound : Nat} {tokens : List Token} {e : Expr}
    (hbound : nesting ≤ bound) :
    IsPrimary nesting tokens e → IsPrimary bound tokens e
  | .number x => .number x
  | .cell p => .cell p
  | .range r => .range r
  | .literal text => .literal text
  | .call name h => .call name (h.mono hbound)
  | .group h => .group (h.mono hbound)

theorem IsArguments.mono {nesting bound : Nat} {tokens : List Token} {es : List Expr}
    (hbound : nesting ≤ bound) :
    IsArguments nesting tokens es → IsArguments bound tokens es
  | .none => .none
  | .last h => .last (h.mono hbound)
  | .more hfirst hothers => .more (hfirst.mono hbound) (hothers.mono hbound)

end

section

variable {tokens before after : List Token} {sign : Token} {es es' : List Expr}

/-- The tokens stand apart, and they name all cells that some expressions read. -/
structure Names (tokens : List Token) (es : List Expr) : Prop where
  separate : tokens.IsChain Token.Separate
  exists_token : ∀ p ∈ Expr.readsOfArguments es, ∃ token ∈ tokens, p ∈ token.cells

theorem Names.mono (h : Names tokens es)
    (hreads : ∀ p ∈ Expr.readsOfArguments es', p ∈ Expr.readsOfArguments es) : Names tokens es' :=
  ⟨h.separate, fun p hp => h.exists_token p (hreads p hp)⟩

theorem names_nil : Names [] [] := ⟨List.isChain_nil, by simp [Expr.readsOfArguments]⟩

theorem names_token {token : Token} (h : ∀ p ∈ Expr.readsOfArguments es, p ∈ token.cells) :
    Names [token] es := ⟨by simp, fun p hp => ⟨token, by simp, h p hp⟩⟩

theorem Names.join (h : Names before es) (hsign : sign.isOperand = false) (h' : Names after es') :
    Names (before ++ sign :: after) (es ++ es') := by
  refine ⟨Token.isChain_separate_append hsign h.separate h'.separate, ?_⟩
  intro p hp
  rw [Expr.readsOfArguments_append, List.mem_append] at hp
  rcases hp with hp | hp
  · obtain ⟨token, htoken, hp⟩ := h.exists_token p hp
    exact ⟨token, by simp [htoken], hp⟩
  · obtain ⟨token, htoken, hp⟩ := h'.exists_token p hp
    exact ⟨token, by simp [htoken], hp⟩

theorem Names.behind (h : Names tokens es) (hsign : sign.isOperand = false) :
    Names (sign :: tokens) es := names_nil.join hsign h

theorem Names.closed (h : Names tokens es) : Names (tokens ++ [.rightParen]) es := by
  have hjoin : Names (tokens ++ [.rightParen]) (es ++ []) := h.join rfl names_nil
  rwa [List.append_nil] at hjoin

theorem Names.binary {left right : Expr} (hleft : Names before [left])
    (hsign : sign.isOperand = false) (hright : Names after [right]) (operator : Operator) :
    Names (before ++ sign :: after) [.binary operator left right] := by
  refine (hleft.join hsign hright).mono fun p hp => ?_
  simp only [Expr.readsOfArguments, Expr.reads, List.append_nil, List.mem_append] at hp
  rw [Expr.readsOfArguments_append, List.mem_append]
  exact hp.imp Expr.mem_readsOfArguments_of_mem_reads Expr.mem_readsOfArguments_of_mem_reads

end

mutual

theorem IsSum.names {nesting : Nat} {tokens : List Token} {e : Expr} :
    IsSum nesting tokens e → Names tokens [e]
  | .product h => h.names
  | .add hleft hright => hleft.names.binary rfl hright.names .add
  | .subtract hleft hright => hleft.names.binary rfl hright.names .subtract

theorem IsProduct.names {nesting : Nat} {tokens : List Token} {e : Expr} :
    IsProduct nesting tokens e → Names tokens [e]
  | .signed h => h.names
  | .multiply hleft hright => hleft.names.binary rfl hright.names .multiply
  | .divide hleft hright => hleft.names.binary rfl hright.names .divide

theorem IsSigned.names {nesting : Nat} {tokens : List Token} {e : Expr} :
    IsSigned nesting tokens e → Names tokens [e]
  | .minus h => (h.names.behind rfl).mono fun p hp =>
      Expr.mem_readsOfArguments_of_mem_reads (by simpa [Expr.readsOfArguments, Expr.reads] using hp)
  | .plus h => h.names.behind rfl
  | .power h => h.names

theorem IsPower.names {nesting : Nat} {tokens : List Token} {e : Expr} :
    IsPower nesting tokens e → Names tokens [e]
  | .primary h => h.names
  | .raised hbase hexponent => hbase.names.binary rfl hexponent.names .power

theorem IsPrimary.names {nesting : Nat} {tokens : List Token} {e : Expr} :
    IsPrimary nesting tokens e → Names tokens [e]
  | .number x => names_token (by simp [Expr.readsOfArguments, Expr.reads])
  | .cell p => names_token (by simp [Expr.readsOfArguments, Expr.reads, Token.cells])
  | .range r => names_token (by simp [Expr.readsOfArguments, Token.cells])
  | .literal text => names_token (by simp [Expr.readsOfArguments, Expr.reads])
  | .call name h => by
      have hname : Names [.name name] [] := names_token (by simp [Expr.readsOfArguments])
      refine (hname.join rfl h.names.closed).mono ?_
      simp [Expr.readsOfArguments, Expr.reads]
  | .group h => h.names.closed.behind rfl

theorem IsArguments.names {nesting : Nat} {tokens : List Token} {es : List Expr} :
    IsArguments nesting tokens es → Names tokens es
  | .none => names_nil
  | .last h => h.names
  | .more hfirst hothers => hfirst.names.join rfl hothers.names

end

/-- Whether a primary can start with a token. -/
def opensPrimary (token : Token) : Bool := token.isOperand || token == .leftParen

theorem IsPrimary.exists_cons {nesting : Nat} {tokens : List Token} {e : Expr}
    (h : IsPrimary nesting tokens e) :
    ∃ token rest, tokens = token :: rest ∧ opensPrimary token = true := by
  cases h <;> exact ⟨_, _, rfl, rfl⟩

theorem IsPower.exists_cons {nesting : Nat} {tokens : List Token} {e : Expr}
    (h : IsPower nesting tokens e) :
    ∃ token rest, tokens = token :: rest ∧ opensPrimary token = true := by
  cases h with
  | primary h => exact h.exists_cons
  | raised hbase hexponent =>
      obtain ⟨token, rest, rfl, htoken⟩ := hbase.exists_cons
      exact ⟨token, _, rfl, htoken⟩

theorem IsSigned.exists_cons {nesting : Nat} {tokens : List Token} {e : Expr}
    (h : IsSigned nesting tokens e) :
    ∃ token rest, tokens = token :: rest ∧ token ≠ .rightParen := by
  cases h with
  | minus h => exact ⟨_, _, rfl, by simp⟩
  | plus h => exact ⟨_, _, rfl, by simp⟩
  | power h =>
      obtain ⟨token, rest, rfl, htoken⟩ := h.exists_cons
      exact ⟨token, rest, rfl, by rintro rfl; cases htoken⟩

theorem IsProduct.exists_cons {nesting : Nat} {tokens : List Token} {e : Expr} :
    IsProduct nesting tokens e → ∃ token rest, tokens = token :: rest ∧ token ≠ .rightParen
  | .signed h => h.exists_cons
  | .multiply hleft _ | .divide hleft _ => by
      obtain ⟨token, rest, rfl, htoken⟩ := hleft.exists_cons
      exact ⟨token, _, rfl, htoken⟩

theorem IsSum.exists_cons {nesting : Nat} {tokens : List Token} {e : Expr} :
    IsSum nesting tokens e → ∃ token rest, tokens = token :: rest ∧ token ≠ .rightParen
  | .product h => h.exists_cons
  | .add hleft _ | .subtract hleft _ => by
      obtain ⟨token, rest, rfl, htoken⟩ := hleft.exists_cons
      exact ⟨token, _, rfl, htoken⟩

theorem IsArguments.eq_nil {nesting : Nat} {tokens : List Token}
    (h : IsArguments nesting tokens []) : tokens = [] := by
  cases h
  rfl

theorem IsArguments.exists_cons {nesting : Nat} {tokens : List Token} {es : List Expr}
    (h : IsArguments nesting tokens es) (hes : es ≠ []) :
    ∃ token rest, tokens = token :: rest ∧ token ≠ .rightParen := by
  cases h with
  | none => exact absurd rfl hes
  | last h => exact h.exists_cons
  | more hfirst hothers =>
      obtain ⟨token, rest, rfl, htoken⟩ := hfirst.exists_cons
      exact ⟨token, _, rfl, htoken⟩

end Grammar

end Spreadsheet
