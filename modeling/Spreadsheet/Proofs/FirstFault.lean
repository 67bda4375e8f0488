import Spreadsheet.Proofs.LoopReports

namespace Spreadsheet

/-- The double that an operator makes of its operands, whatever it is. -/
def Operator.result (operator : Operator) (a b : Float) : Float :=
  match operator with
  | .add => a + b
  | .subtract => a - b
  | .multiply => a * b
  | .divide => a / b
  | .power => a.pow b

namespace Expr

variable {look : Position → Value} {e : Expr} {fault : Fault}

/-- Whether there is no call in an expression. -/
def isArithmetic : Expr → Bool
  | .negate operand => isArithmetic operand
  | .binary _ left right => isArithmetic left && isArithmetic right
  | .call _ _ => false
  | _ => true

/-- An expression and the operands in it, from left to right, each behind its own operands. -/
def postorder : Expr → List Expr
  | .negate operand => postorder operand ++ [.negate operand]
  | .binary operator left right =>
    postorder left ++ postorder right ++ [.binary operator left right]
  | e => [e]

/-- The double that arithmetic comes to when nothing is ever refused. -/
def unchecked (look : Position → Value) : Expr → Float
  | .number n => n
  | .cell p => (look p).number?.getD 0.0
  | .negate operand => -unchecked look operand
  | .binary operator left right => operator.result (unchecked look left) (unchecked look right)
  | _ => 0.0

/-- The fault that an expression has of its own, apart from those of its operands: that of a cell
that it refers to, that of a range, that of a division by zero, or that of a result beyond all
bounds. -/
def ownFault? (look : Position → Value) : Expr → Option Fault
  | .cell p =>
    match look p with
    | .fault fault => some fault
    | _ => none
  | .range _ => some .invalid
  | .negate operand => if (-operand.unchecked look).isFinite then none else some .invalid
  | .binary operator left right =>
    if operator = .divide ∧ (right.unchecked look == 0.0) = true then some .invalid
    else if (operator.result (left.unchecked look) (right.unchecked look)).isFinite then none
    else some .invalid
  | _ => none

/-- The fault that evaluation meets first. -/
def firstFault? (look : Position → Value) (e : Expr) : Option Fault :=
  e.postorder.findSome? (ownFault? look)

theorem firstFault?_negate (operand : Expr) : (negate operand).firstFault? look =
    (operand.firstFault? look).or ((negate operand).ownFault? look) := by
  simp [firstFault?, postorder, List.findSome?_append]

theorem firstFault?_binary (operator : Operator) (left right : Expr) :
    (binary operator left right).firstFault? look =
      ((left.firstFault? look).or (right.firstFault? look)).or
        ((binary operator left right).ownFault? look) := by
  simp only [firstFault?, postorder, List.findSome?_append, List.findSome?_singleton]

theorem toOperand_ofNumber (n : Float) : (Value.ofNumber n).toOperand =
    if n.isFinite then .ok n else .error .invalid := by
  unfold Value.ofNumber
  split <;> rfl

theorem toOperand_apply (operator : Operator) (a b : Float) : (operator.apply a b).toOperand =
    if operator = .divide ∧ (b == 0.0) = true then .error .invalid
    else if (operator.result a b).isFinite then .ok (operator.result a b)
    else .error .invalid := by
  cases operator with
  | divide =>
      unfold Operator.apply
      by_cases hzero : (b == 0.0) = true
      · rw [if_pos hzero, if_pos ⟨rfl, hzero⟩]
        rfl
      · rw [if_neg hzero, if_neg fun h => hzero h.2]
        exact toOperand_ofNumber _
  | add | subtract | multiply | power =>
      rw [if_neg (by simp)]
      exact toOperand_ofNumber _

theorem toOperand_eval {e : Expr} (he : e.isArithmetic = true) : (e.eval look).toOperand =
    match e.firstFault? look with
    | some fault => .error fault
    | none => .ok (e.unchecked look) := by
  match e with
  | .number n => rfl
  | .cell p =>
      have hfirst : (cell p).firstFault? look = (cell p).ownFault? look :=
        List.findSome?_singleton
      rw [hfirst, eval, ownFault?, unchecked]
      cases look p <;> rfl
  | .range r => rfl
  | .literal text => rfl
  | .negate operand =>
      have hoperand := toOperand_eval (e := operand) he
      rw [firstFault?_negate, eval, hoperand]
      cases operand.firstFault? look with
      | some fault => rfl
      | none =>
          change (Value.ofNumber (-operand.unchecked look)).toOperand = _
          rw [toOperand_ofNumber, Option.none_or, ownFault?, unchecked]
          split <;> rfl
  | .binary operator left right =>
      obtain ⟨hl, hr⟩ : left.isArithmetic = true ∧ right.isArithmetic = true := by
        simpa [isArithmetic] using he
      have hleft := toOperand_eval hl
      have hright := toOperand_eval hr
      rw [firstFault?_binary, eval, hleft, hright]
      cases left.firstFault? look with
      | some fault => rfl
      | none =>
          cases right.firstFault? look with
          | some fault => rfl
          | none =>
              change (operator.apply (left.unchecked look) (right.unchecked look)).toOperand = _
              rw [toOperand_apply, Option.none_or, Option.none_or, ownFault?, unchecked]
              split
              · rfl
              · split <;> rfl
  | .call name given => cases he

theorem ownFault?_ne_none (hown : (∃ p fault, e = .cell p ∧ look p = .fault fault) ∨
    ∃ r, e = .range r) : e.ownFault? look ≠ none := by
  rcases hown with ⟨p, fault, rfl, hp⟩ | ⟨r, rfl⟩
  · simp [ownFault?, hp]
  · exact Option.some_ne_none _

/-- An expression without calls has a fault as its value, within a formula and as a whole one,
exactly if evaluation meets one, and then the first that it meets. It meets one wherever a cell that
is referred to holds a fault, and at every range. -/
theorem eval_eq_fault_iff_firstFault? (look : Position → Value) (he : e.isArithmetic = true) :
    (∀ fault, e.eval look = .fault fault ↔ e.firstFault? look = some fault) ∧
    (∀ fault, e.firstFault? look = some fault → e.value look = .fault fault) ∧
    ((∃ p fault, .cell p ∈ e.postorder ∧ look p = .fault fault) ∨
        (∃ r, .range r ∈ e.postorder) →
      ∃ fault, e.eval look = .fault fault ∧ e.value look = .fault fault) := by
  have hfault : ∀ fault, e.eval look = .fault fault ↔ e.firstFault? look = some fault := by
    intro fault
    rw [← Value.toOperand_eq_error_iff, toOperand_eval he]
    cases e.firstFault? look <;> simp
  have hvalue : ∀ fault, e.eval look = .fault fault → e.value look = .fault fault := by
    intro fault heval
    rw [value, heval]
  refine ⟨hfault, fun fault hfirst => hvalue fault ((hfault fault).mpr hfirst), fun hleaf => ?_⟩
  have hsome : e.firstFault? look ≠ none := by
    rw [firstFault?, ne_eq, List.findSome?_eq_none_iff]
    intro hnone
    rcases hleaf with ⟨p, fault, hmem, hp⟩ | ⟨r, hmem⟩
    · exact ownFault?_ne_none (.inl ⟨p, fault, rfl, hp⟩) (hnone _ hmem)
    · exact ownFault?_ne_none (.inr ⟨r, rfl⟩) (hnone _ hmem)
  obtain ⟨fault, hfirst⟩ := Option.ne_none_iff_exists'.mp hsome
  have heval := (hfault fault).mpr hfirst
  exact ⟨fault, heval, hvalue fault heval⟩

theorem eval_eq_fault_iff_firstFault?_loopFirst :
    let look : Position → Value := fun p => if p.col = 1 then .fault .loop else .empty
    let e : Expr := .binary .divide
      (.binary .multiply (.binary .add (.number (1 / 0)) (.cell ⟨0, 1⟩)) (.range ⟨⟨0, 0⟩, ⟨1, 1⟩⟩))
      (.cell ⟨0, 0⟩)
    e.isArithmetic = true ∧ .cell ⟨0, 1⟩ ∈ e.postorder ∧ look ⟨0, 1⟩ = .fault .loop ∧
      e.firstFault? look = some .loop ∧ e.eval look = .fault .loop ∧
      e.value look = .fault .loop := by
  intro look e
  have he : e.isArithmetic = true := rfl
  have hmem : .cell ⟨0, 1⟩ ∈ e.postorder := by simp [e, postorder]
  have hfirst : e.firstFault? look = some .loop := rfl
  obtain ⟨hfault, -, hleaf⟩ := eval_eq_fault_iff_firstFault? look he
  obtain ⟨fault, heval, hvalue⟩ := hleaf (.inl ⟨⟨0, 1⟩, .loop, hmem, rfl⟩)
  obtain rfl : fault = .loop := Option.some.inj (((hfault fault).mp heval).symm.trans hfirst)
  exact ⟨he, hmem, rfl, hfirst, heval, hvalue⟩

end Expr

end Spreadsheet
