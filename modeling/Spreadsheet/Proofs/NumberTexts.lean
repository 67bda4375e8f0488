import Spreadsheet.Json.Record
import Spreadsheet.Proofs.JsonText
import Spreadsheet.Proofs.ShortestDecimals

namespace Spreadsheet

namespace Numeral

variable {digits : List Char}

theorem ofDigitChars_lt {start : Nat} (h : ∀ c ∈ digits, c.isDigit = true) :
    Nat.ofDigitChars 10 digits start < (start + 1) * 10 ^ digits.length := by
  induction digits generalizing start with
  | nil => simp
  | cons d digits ih =>
      obtain ⟨hd, hdigits⟩ := List.forall_mem_cons.mp h
      have hdigit : d.toNat - '0'.toNat ≤ 9 := by
        have := (Text.isDigit_iff.mp hd).2
        simp
        omega
      rw [Nat.ofDigitChars_cons, List.length_cons, Nat.pow_succ']
      refine (ih hdigits).trans_le ?_
      rw [← Nat.mul_assoc]
      exact Nat.mul_le_mul_right _ (by omega)

theorem ofDigits_lt (h : ∀ c ∈ digits, c.isDigit = true) :
    ofDigits digits < 10 ^ digits.length := by
  simpa [ofDigits] using @ofDigitChars_lt digits 0 h

theorem ofDigits_append_replicate (digits : List Char) (k : Nat) :
    ofDigits (digits ++ List.replicate k '0') = ofDigits digits * 10 ^ k := by
  rw [ofDigits, Nat.ofDigitChars_append, Nat.ofDigitChars_replicate_zero, Nat.mul_comm, ofDigits]

theorem ofDigits_replicate_append (digits : List Char) (k : Nat) :
    ofDigits (List.replicate k '0' ++ digits) = ofDigits digits := by
  rw [ofDigits, Nat.ofDigitChars_append, Nat.ofDigitChars_replicate_zero, Nat.mul_zero, ofDigits]

theorem isDigit_of_mem_replicate {k : Nat} : ∀ c ∈ List.replicate k '0', c.isDigit = true := by
  intro c hc
  rw [List.eq_of_mem_replicate hc]
  rfl

theorem exponent?_append (hne : digits ≠ []) (h : ∀ c ∈ digits, c.isDigit = true)
    {sign : List Char} {negative : Bool}
    (hsign : splitSign (sign ++ digits) = (negative, digits)) :
    exponent? (sign ++ digits) =
      some (if negative then -(ofDigits digits : Int) else ofDigits digits) := by
  unfold exponent?
  rw [hsign]
  dsimp only
  rw [if_pos]
  simpa [hne] using h

end Numeral

namespace Json.Number

variable {whole fraction rest : List Char} {power : Int}

/-- The exact value of a number, apart from its sign. -/
def value (n : Number) : ℚ :=
  Numeral.ofDigits (n.whole ++ n.fraction) * 10 ^ (n.power - n.fraction.length)

/-- A text that is read as a number with a value and without a sign, of which the significand takes
all digits in front of the point. -/
def IsReadAs (text : List Char) (value : ℚ) : Prop :=
  ∃ n, ofChars? text = some n ∧ n.negative = false ∧ Numeral.ofDigits n.whole < limit ∧
    n.value = value

/-- Digits behind a point, and no point without digits. -/
def pointed (fraction : List Char) : List Char :=
  if fraction.isEmpty then [] else '.' :: fraction

theorem stops_of_head? (hrest : ∀ c ∈ rest.head?, c = 'e') :
    rest.takeWhile Char.isDigit = [] ∧ rest.dropWhile Char.isDigit = rest := by
  cases rest with
  | nil => exact ⟨rfl, rfl⟩
  | cons c rest =>
      obtain rfl := hrest c rfl
      exact ⟨rfl, rfl⟩

theorem stops_pointed (hrest : ∀ c ∈ rest.head?, c = 'e') :
    (pointed fraction ++ rest).takeWhile Char.isDigit = [] ∧
      (pointed fraction ++ rest).dropWhile Char.isDigit = pointed fraction ++ rest := by
  cases fraction with
  | nil => exact stops_of_head? hrest
  | cons c fraction => exact ⟨rfl, rfl⟩

theorem splitFraction_pointed (hfraction : ∀ c ∈ fraction, c.isDigit = true)
    (hrest : ∀ c ∈ rest.head?, c = 'e') :
    Numeral.splitFraction (pointed fraction ++ rest) = (fraction, rest) ∧
      ((pointed fraction ++ rest).head? != some '.' || !fraction.isEmpty) = true := by
  cases fraction with
  | nil =>
      cases rest with
      | nil => exact ⟨rfl, rfl⟩
      | cons c rest =>
          obtain rfl := hrest c rfl
          exact ⟨rfl, rfl⟩
  | cons c fraction =>
      obtain ⟨htake, hdrop⟩ := stops_of_head? hrest
      refine ⟨?_, Bool.or_true _⟩
      change (((c :: fraction) ++ rest).takeWhile Char.isDigit,
        ((c :: fraction) ++ rest).dropWhile Char.isDigit) = _
      rw [List.takeWhile_append_of_pos hfraction, List.dropWhile_append_of_pos hfraction, htake,
        hdrop, List.append_nil]

theorem splitMinus_append (hwell : isWhole whole = true) (hwhole : ∀ c ∈ whole, c.isDigit = true)
    (behind : List Char) : splitMinus (whole ++ behind) = (false, whole ++ behind) := by
  cases whole with
  | nil => cases hwell
  | cons c whole =>
      unfold splitMinus
      split
      · rename_i heq
        obtain rfl := (List.cons.inj heq).1
        simp at hwhole
      · rfl

theorem ofChars?_append (hwell : isWhole whole = true) (hwhole : ∀ c ∈ whole, c.isDigit = true)
    (hfraction : ∀ c ∈ fraction, c.isDigit = true) (hrest : ∀ c ∈ rest.head?, c = 'e')
    (hpower : Numeral.power? rest = some power) :
    ofChars? (whole ++ (pointed fraction ++ rest)) =
      some ⟨false, whole, fraction, power, (pointed fraction ++ rest).isEmpty⟩ := by
  obtain ⟨htake, hdrop⟩ := @stops_pointed fraction rest hrest
  obtain ⟨hsplit, hpoint⟩ := splitFraction_pointed hfraction hrest
  unfold ofChars?
  rw [splitMinus_append hwell hwhole]
  dsimp only
  rw [List.takeWhile_append_of_pos hwhole, List.dropWhile_append_of_pos hwhole, htake, hdrop,
    List.append_nil, hsplit]
  dsimp only
  rw [hwell, hpoint, hpower]
  rfl

theorem isReadAs_append {d : Decimal} {text : List Char} (whole fraction rest : List Char)
    (htext : text = whole ++ (pointed fraction ++ rest))
    (hwell : isWhole whole = true) (hwhole : ∀ c ∈ whole, c.isDigit = true)
    (hlength : whole.length ≤ 16) (hfraction : ∀ c ∈ fraction, c.isDigit = true)
    (hrest : ∀ c ∈ rest.head?, c = 'e') (hpower : Numeral.power? rest = some power) (zeros : Nat)
    (hdigits : Numeral.ofDigits (whole ++ fraction) = d.digits * 10 ^ zeros)
    (hscale : power - fraction.length + zeros = d.scale) : IsReadAs text d.value := by
  refine ⟨_, htext ▸ ofChars?_append hwell hwhole hfraction hrest hpower, rfl, ?_, ?_⟩
  · refine (Numeral.ofDigits_lt hwhole).trans_le ?_
    calc 10 ^ whole.length ≤ 10 ^ 16 := Nat.pow_le_pow_right (by decide) hlength
      _ ≤ limit := by decide +kernel
  · rw [value, hdigits, Decimal.value, ← hscale, zpow_add₀ (by norm_num), zpow_natCast]
    push_cast
    ring

end Json.Number

namespace Decimal

open Json (layout)
open Json.Number

variable {d : Decimal}

theorem power?_renderExponent (exponent : Int) :
    Numeral.power? ('e' :: renderExponent layout exponent) = some exponent := by
  have hdigits : ∀ n : Nat, ∀ c ∈ Nat.toDigits 10 n, c.isDigit = true :=
    fun n c hc => Position.isDigit_of_mem_toDigits hc
  have hvalue : ∀ n : Nat, Numeral.ofDigits (Nat.toDigits 10 n) = n :=
    fun n => Nat.ofDigitChars_ten_toDigits
  rw [Numeral.power?, if_pos (by decide)]
  cases exponent with
  | ofNat n =>
      have htext : renderExponent layout (.ofNat n) = ['+'] ++ Nat.toDigits 10 n := by
        unfold renderExponent
        rw [if_neg (Int.not_lt.mpr (Int.natCast_nonneg n) : ¬Int.ofNat n < 0)]
        exact congrArg _ Nat.toList_repr
      rw [htext, Numeral.exponent?_append Nat.toDigits_ne_nil (hdigits n) rfl,
        if_neg Bool.false_ne_true, hvalue]
      rfl
  | negSucc n =>
      have htext : renderExponent layout (.negSucc n) = ['-'] ++ Nat.toDigits 10 (n + 1) := by
        unfold renderExponent
        rw [if_pos (by omega), List.nil_append]
        change ("-" ++ (n + 1).repr).toList = _
        rw [String.toList_append, Nat.toList_repr]
        rfl
      rw [htext, Numeral.exponent?_append Nat.toDigits_ne_nil (hdigits _) rfl, if_pos rfl, hvalue]
      rfl

/-- The digits of a decimal that is not zero, as they are needed wherever the point is put. -/
structure Leading (d : Decimal) (digits : List Char) : Prop where
  isDigit : ∀ c ∈ digits, c.isDigit = true
  ofDigits_eq : Numeral.ofDigits digits = d.digits
  length_pos : 0 < digits.length
  head?_ne : digits.head? ≠ some '0'

theorem leading_toDigits (h : 0 < d.digits) : d.Leading (Nat.toDigits 10 d.digits) where
  isDigit := fun _ hc => Position.isDigit_of_mem_toDigits hc
  ofDigits_eq := Nat.ofDigitChars_ten_toDigits
  length_pos := Nat.length_toDigits_pos
  head?_ne := head?_toDigits h

variable {digits : List Char}

theorem Leading.isWhole_append (h : d.Leading digits) (rest : List Char) :
    isWhole (digits ++ rest) = true := by
  have hne := List.ne_nil_of_length_pos h.length_pos
  refine isWhole_of_head? (List.append_ne_nil_of_left_ne_nil hne rest) ?_
  rw [List.head?_append_of_ne_nil _ hne]
  exact h.head?_ne

theorem Leading.isWhole_take (h : d.Leading digits) {k : Nat} (hk : 0 < k) :
    isWhole (digits.take k) = true := by
  refine isWhole_of_head? (List.ne_nil_of_length_pos ?_) ?_
  · rw [List.length_take]
    exact Nat.lt_min.mpr ⟨hk, h.length_pos⟩
  · rw [List.head?_take, if_neg hk.ne']
    exact h.head?_ne

theorem Leading.isReadAs_below_one (h : d.Leading digits) (hpoint : digits.length + d.scale ≤ 0) :
    IsReadAs ('0' :: '.' :: (List.replicate (-(digits.length + d.scale)).toNat '0' ++ digits))
      d.value := by
  refine isReadAs_append ['0'] (List.replicate (-(digits.length + d.scale)).toNat '0' ++ digits) []
    ?_ rfl (List.forall_mem_singleton.mpr rfl) (by decide)
    (List.forall_mem_append.mpr ⟨Numeral.isDigit_of_mem_replicate, h.isDigit⟩) (by simp) rfl 0 ?_ ?_
  · simp [pointed, List.ne_nil_of_length_pos h.length_pos]
  · rw [← List.append_assoc, ← List.replicate_one, List.replicate_append_replicate,
      Numeral.ofDigits_replicate_append, h.ofDigits_eq, pow_zero, mul_one]
  · rw [List.length_append, List.length_replicate]
    omega

theorem Leading.isReadAs_whole (h : d.Leading digits) (hscale : 0 ≤ d.scale)
    (hpoint : digits.length + d.scale ≤ 16) :
    IsReadAs (digits ++ List.replicate d.scale.toNat '0' ++ ['.', '0']) d.value := by
  refine isReadAs_append (digits ++ List.replicate d.scale.toNat '0') ['0'] [] ?_
    (h.isWhole_append _)
    (List.forall_mem_append.mpr ⟨h.isDigit, Numeral.isDigit_of_mem_replicate⟩) ?_
    (List.forall_mem_singleton.mpr rfl) (by simp) rfl (d.scale.toNat + 1) ?_ ?_
  · rfl
  · rw [List.length_append, List.length_replicate]
    omega
  · rw [List.append_assoc, ← List.replicate_one, List.replicate_append_replicate,
      Numeral.ofDigits_append_replicate, h.ofDigits_eq]
  · rw [List.length_singleton]
    omega

theorem Leading.isReadAs_split (h : d.Leading digits) (hscale : d.scale < 0)
    (hpos : 0 < digits.length + d.scale) (hpoint : digits.length + d.scale ≤ 16) :
    IsReadAs (digits.take (digits.length + d.scale).toNat ++
      '.' :: digits.drop (digits.length + d.scale).toNat) d.value := by
  refine isReadAs_append (digits.take (digits.length + d.scale).toNat)
    (digits.drop (digits.length + d.scale).toNat) [] ?_ (h.isWhole_take (by omega))
    (fun c hc => h.isDigit c (List.mem_of_mem_take hc)) ?_
    (fun c hc => h.isDigit c (List.mem_of_mem_drop hc)) (by simp) rfl 0 ?_ ?_
  · rw [pointed, if_neg, List.append_nil]
    rw [List.isEmpty_iff, List.drop_eq_nil_iff]
    omega
  · rw [List.length_take]
    omega
  · rw [List.take_append_drop, h.ofDigits_eq, pow_zero, mul_one]
  · rw [List.length_drop]
    omega

theorem Leading.isReadAs_power (h : d.Leading digits) :
    IsReadAs (digits.take 1 ++
      (if (digits.drop 1).isEmpty then [] else '.' :: digits.drop 1) ++
        'e' :: renderExponent layout (digits.length + d.scale - 1)) d.value := by
  refine isReadAs_append (digits.take 1) (digits.drop 1) _ (List.append_assoc _ _ _)
    (h.isWhole_take Nat.one_pos)
    (fun c hc => h.isDigit c (List.mem_of_mem_take hc)) ?_
    (fun c hc => h.isDigit c (List.mem_of_mem_drop hc)) (by simp) (power?_renderExponent _) 0 ?_ ?_
  · rw [List.length_take]
    omega
  · rw [List.take_append_drop, h.ofDigits_eq, pow_zero, mul_one]
  · rw [List.length_drop]
    have := h.length_pos
    omega

theorem isReadAs_render (h : 0 < d.digits) : IsReadAs (render layout d).toList d.value := by
  have hleading := leading_toDigits h
  unfold render
  rw [String.toList_ofList]
  dsimp only
  split
  · rename_i hpoint
    have hhighest : (Nat.toDigits 10 d.digits).length + d.scale ≤ 16 := hpoint.2
    split
    · exact hleading.isReadAs_below_one ‹_›
    · split
      · exact hleading.isReadAs_whole ‹_› hhighest
      · exact hleading.isReadAs_split (by omega) (by omega) hhighest
  · exact hleading.isReadAs_power

end Decimal

end Spreadsheet
