import Spreadsheet.Proofs.Mentions

namespace Spreadsheet

namespace Expr

mutual

/-- The leaves of a formula from left to right. -/
def leaves : Expr → List Expr
  | .number x => [.number x]
  | .cell p => [.cell p]
  | .range r => [.range r]
  | .literal text => [.literal text]
  | .negate operand => leaves operand
  | .binary _ left right => leaves left ++ leaves right
  | .call _ given => leavesOfArguments given

/-- The leaves of arguments from left to right. -/
def leavesOfArguments : List Expr → List Expr
  | [] => []
  | e :: rest => leaves e ++ leavesOfArguments rest

end

end Expr

/-- The leaf that a token makes. -/
def Token.leaf? : Token → Option Expr
  | .number x => some (.number x)
  | .cell p => some (.cell p)
  | .range r => some (.range r)
  | .literal text => some (.literal text)
  | _ => none

theorem Token.eq_of_reference? {token other : Token} {reference : Reference}
    (h : token.reference? = some reference) (h' : other.reference? = some reference) :
    token = other := by
  cases token <;> cases h <;> cases other <;> cases h' <;> rfl

theorem Token.eq_of_leaf? {token other : Token} {leaf : Expr} (h : token.leaf? = some leaf)
    (h' : other.leaf? = some leaf) : token = other := by
  cases token <;> cases h <;> cases other <;> cases h' <;> rfl

namespace Grammar

mutual

theorem IsSum.leaves_eq {nesting : Nat} {tokens : List Token} {e : Expr} :
    IsSum nesting tokens e → e.leaves = tokens.filterMap Token.leaf?
  | .product h => h.leaves_eq
  | .add hleft hright | .subtract hleft hright => by
      simp [Expr.leaves, Token.leaf?, List.filterMap_cons, hleft.leaves_eq, hright.leaves_eq]

theorem IsProduct.leaves_eq {nesting : Nat} {tokens : List Token} {e : Expr} :
    IsProduct nesting tokens e → e.leaves = tokens.filterMap Token.leaf?
  | .signed h => h.leaves_eq
  | .multiply hleft hright | .divide hleft hright => by
      simp [Expr.leaves, Token.leaf?, List.filterMap_cons, hleft.leaves_eq, hright.leaves_eq]

theorem IsSigned.leaves_eq {nesting : Nat} {tokens : List Token} {e : Expr} :
    IsSigned nesting tokens e → e.leaves = tokens.filterMap Token.leaf?
  | .minus h | .plus h => by simp [Expr.leaves, Token.leaf?, List.filterMap_cons, h.leaves_eq]
  | .power h => h.leaves_eq

theorem IsPower.leaves_eq {nesting : Nat} {tokens : List Token} {e : Expr} :
    IsPower nesting tokens e → e.leaves = tokens.filterMap Token.leaf?
  | .primary h => h.leaves_eq
  | .raised hbase hexponent => by
      simp [Expr.leaves, Token.leaf?, List.filterMap_cons, hbase.leaves_eq, hexponent.leaves_eq]

theorem IsPrimary.leaves_eq {nesting : Nat} {tokens : List Token} {e : Expr} :
    IsPrimary nesting tokens e → e.leaves = tokens.filterMap Token.leaf?
  | .number x => rfl
  | .cell p => rfl
  | .range r => rfl
  | .literal text => rfl
  | .call name h => by simp [Expr.leaves, Token.leaf?, List.filterMap_cons, h.leaves_eq]
  | .group h => by simp [Token.leaf?, List.filterMap_cons, h.leaves_eq]

theorem IsArguments.leaves_eq {nesting : Nat} {tokens : List Token} {es : List Expr} :
    IsArguments nesting tokens es → Expr.leavesOfArguments es = tokens.filterMap Token.leaf?
  | .none => rfl
  | .last h => by simp [Expr.leavesOfArguments, h.leaves_eq]
  | .more hfirst hothers => by
      rw [Expr.leavesOfArguments, hfirst.leaves_eq, hothers.leaves_eq]
      simp [Token.leaf?, List.filterMap_cons]

end

/-- The leaves of a formula are its tokens that are no signs and no names of functions. -/
theorem mem_leaves_iff {tokens : List Token} {token : Token} {e leaf : Expr}
    (h : parseTokens tokens = .ok e) (hleaf : token.leaf? = some leaf) :
    leaf ∈ e.leaves ↔ token ∈ tokens := by
  rw [(parseTokens_eq_ok_iff.mp h).2.2.leaves_eq, List.mem_filterMap]
  constructor
  · rintro ⟨other, hother, heq⟩
    exact Token.eq_of_leaf? heq hleaf ▸ hother
  · intro htoken
    exact ⟨token, htoken, hleaf⟩

end Grammar

namespace Mentions

variable {extent : Extent} {text : String} {e : Expr} {p : Position} {r : Range}

/-- A cell that a text mentions without a leaf that refers to it. Its name stands on one side of a
colon, with no name on the other side, or else behind the point of a number. -/
inductive Stray (extent : Extent) (text : String) (e : Expr) : Position → Prop
  | before {word a b : String} {p : Position} (hleaf : .literal word ∈ e.leaves)
      (hsplit : Text.splitAt? ':' word = some (a, b)) (hname : Reference.cell? extent a = some p)
      (hother : ¬ Mention.IsName b.toList) : Stray extent text e p
  | behind {word a b : String} {p : Position} (hleaf : .literal word ∈ e.leaves)
      (hsplit : Text.splitAt? ':' word = some (a, b)) (hname : Reference.cell? extent b = some p)
      (hother : ¬ Mention.IsName a.toList) : Stray extent text e p
  | power {before behind name after : List Char} {p : Position}
      (htext : text.toList = before ++ '.' :: behind)
      (hword : Mention.split? behind = some (name, after))
      (hname : Reference.cell? extent (String.ofList name) = some p) : Stray extent text e p

theorem stray_iff {tokens : List Token} (h : Grammar.parseTokens tokens = .ok e) :
    Stray extent text e p ↔
      (∃ token ∈ tokens, token.IsHalf extent p) ∨ Token.IsPointed extent text.toList p := by
  have hleaf : ∀ word, .literal word ∈ e.leaves ↔ .literal word ∈ tokens := fun word =>
    Grammar.mem_leaves_iff h rfl
  constructor
  · rintro (⟨hword, hsplit, hname, hother⟩ | ⟨hword, hsplit, hname, hother⟩ |
      ⟨htext, hword, hname⟩)
    · exact .inl ⟨_, (hleaf _).mp hword, _, _, _, rfl, hsplit, .inl ⟨hname, hother⟩⟩
    · exact .inl ⟨_, (hleaf _).mp hword, _, _, _, rfl, hsplit, .inr ⟨hname, hother⟩⟩
    · exact .inr ⟨_, ⟨_, _, _, htext, hword⟩, hname⟩
  · rintro (⟨token, htoken, word, a, b, rfl, hsplit, hnames⟩ |
      ⟨name, ⟨before, behind, after, htext, hword⟩, hname⟩)
    · rcases hnames with ⟨hname, hother⟩ | ⟨hname, hother⟩
      · exact .before ((hleaf word).mpr htoken) hsplit hname hother
      · exact .behind ((hleaf word).mpr htoken) hsplit hname hother
    · exact .power htext hword hname

/-- A formula mentions the cells and ranges among the leaves of its tree, and besides them only
stray names of cells. -/
theorem mem_ofText_iff (h : parseFormula extent text = .ok e) :
    (∀ p, p ∈ (ofText extent text).cells ↔ .cell p ∈ e.leaves ∨ Stray extent text e p) ∧
      ∀ r, r ∈ (ofText extent text).ranges ↔ .range r ∈ e.leaves := by
  obtain ⟨tokens, htokens, htree⟩ := bind_eq_ok h
  obtain ⟨hchain, -⟩ := Grammar.parseTokens_sound htree
  have htoken : ∀ (token : Token) (reference : Reference), token.reference? = some reference →
      ((∃ other ∈ tokens, other.reference? = some reference) ↔ token ∈ tokens) := by
    intro token reference htoken
    constructor
    · rintro ⟨other, hother, hreference⟩
      exact Token.eq_of_reference? hreference htoken ▸ hother
    · intro hmem
      exact ⟨token, hmem, htoken⟩
  constructor
  · intro p
    have hleaf : .cell p ∈ e.leaves ↔ .cell p ∈ tokens := Grammar.mem_leaves_iff htree rfl
    rw [mem_cells_ofText, Token.mentions_iff htokens hchain, htoken (.cell p) _ rfl, hleaf,
      stray_iff htree]
    simp
  · intro r
    have hleaf : .range r ∈ e.leaves ↔ .range r ∈ tokens := Grammar.mem_leaves_iff htree rfl
    rw [mem_ranges_ofText, Token.mentions_iff htokens hchain, htoken (.range r) _ rfl, hleaf]
    simp

/-- A range and a cell, a word that a colon joins to the name of another cell, and a power of ten
behind a point that could be the name of a third one. -/
def tornFormula : String := "sum(A1:B2)-C3*D4:x+2.E5"

theorem mem_ofText_tornFormula :
    ∃ e, parseFormula ⟨9, 9⟩ tornFormula = .ok e ∧
      (∀ p, p ∈ (ofText ⟨9, 9⟩ tornFormula).cells ↔
        .cell p ∈ e.leaves ∨ Stray ⟨9, 9⟩ tornFormula e p) ∧
      (∀ r, r ∈ (ofText ⟨9, 9⟩ tornFormula).ranges ↔ .range r ∈ e.leaves) ∧
      (ofText ⟨9, 9⟩ tornFormula).cells.toList = [⟨2, 2⟩, ⟨3, 3⟩, ⟨4, 4⟩] := by
  have htokens : Token.tokenize ⟨9, 9⟩ tornFormula.toList = .ok
      [.name "SUM", .leftParen, .range ⟨⟨0, 0⟩, ⟨1, 1⟩⟩, .rightParen, .minus, .cell ⟨2, 2⟩, .star,
        .literal "D4:x", .plus, .number 200000] := by
    decide +kernel
  have hparse := bind_of_eq_ok (f := Grammar.parseTokens) htokens
  obtain ⟨hcells, hranges⟩ := mem_ofText_iff hparse
  exact ⟨_, hparse, hcells, hranges, by decide +kernel⟩

theorem exists_mentioned_not_leaf :
    ¬ ∀ (extent : Extent) (text : String) (e : Expr), parseFormula extent text = .ok e →
      (∀ p ∈ (ofText extent text).cells, .cell p ∈ e.leaves) ∧
        ∀ r ∈ (ofText extent text).ranges, .range r ∈ e.leaves := by
  intro hall
  have htokens : Token.tokenize ⟨3, 3⟩ "A1:B".toList = .ok [.literal "A1:B"] := by decide +kernel
  have hparse := bind_of_eq_ok (f := Grammar.parseTokens) htokens
  have hleaf := (hall ⟨3, 3⟩ "A1:B" _ hparse).1 ⟨0, 0⟩ (by decide +kernel)
  simp [Expr.leaves] at hleaf

end Mentions

end Spreadsheet
