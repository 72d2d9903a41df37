import CandleHistory.Proofs.DoubleGrid
import CandleHistory.Proofs.ScientificValues
import CandleHistory.Proofs.Succeeds

/-!
Numbers with a fixed number of places. Such a number is a sign and a whole number of units of its
last place, and it shows the decimal number that it was written for: the sign is the same, and the
units are the magnitude rounded half to even. A decimal number is written exactly if there is room
for its digits, which depends on nothing but its size.
-/

namespace CandleHistory.Number

/-- A whole number is a magnitude rounded half to even. -/
structure IsHalfEven (q : ℚ) (k : Nat) : Prop where
  near : |(k : ℚ) - q| ≤ 1 / 2
  even : |(k : ℚ) - q| = 1 / 2 → Even k

/-- A magnitude that is a whole number stays what it is. -/
theorem IsHalfEven.eq_of_whole {q : ℚ} {k m : Nat} (h : IsHalfEven q k) (hq : q = m) : k = m := by
  have hnear := h.near
  rw [hq, abs_le] at hnear
  obtain ⟨hlow, hhigh⟩ := hnear
  have hle : (m : ℚ) < k + 1 := by linarith
  have hge : (k : ℚ) < m + 1 := by linarith
  norm_cast at hle hge
  omega

theorem isHalfEven_natCast (k : Nat) : IsHalfEven k k where
  near := by
    rw [sub_self, abs_zero]
    norm_num
  even := by
    intro htie
    rw [sub_self, abs_zero] at htie
    norm_num at htie

theorem isHalfEven_zero {q : ℚ} (h : 0 ≤ q) (hlt : q < 1 / 2) : IsHalfEven q 0 where
  near := by
    rw [Nat.cast_zero, zero_sub, abs_neg, abs_of_nonneg h]
    exact hlt.le
  even _ := Even.zero

/-- A quotient is rounded as its numerator and denominator say. -/
theorem IsRounded.isHalfEven {n d k : Nat} (hd : 0 < d) (h : IsRounded n d k) :
    IsHalfEven ((n : ℚ) / d) k := by
  have hpos : (0 : ℚ) < d := Nat.cast_pos.mpr hd
  have hle : (2 : ℚ) * (k * d) ≤ 2 * n + d := by exact_mod_cast h.le_add
  have hge : (2 : ℚ) * n ≤ 2 * (k * d) + d := by exact_mod_cast h.add_le
  have hdistance : (k : ℚ) - n / d = (k * d - n) / d := by
    field_simp
  constructor
  · rw [hdistance, abs_le, le_div_iff₀ hpos, div_le_iff₀ hpos]
    constructor <;> linarith
  · intro htie
    rw [hdistance, abs_div, abs_of_pos hpos, div_eq_iff hpos.ne', abs_eq (by linarith)] at htie
    have hcases : (2 : ℚ) * (k * d) = 2 * n + d ∨ (2 : ℚ) * n = 2 * (k * d) + d := by
      rcases htie with habove | hbelow
      · exact Or.inl (by linarith)
      · exact Or.inr (by linarith)
    rw [Nat.even_iff]
    exact h.even (by exact_mod_cast hcases)

/-- A number with a fixed number of places: its sign, and its magnitude in units of the last place.
-/
structure FixedNumeral where
  negative : Bool
  units : Nat
  deriving DecidableEq, Repr

namespace FixedNumeral

/-- Reads a number that has exactly so many places. -/
def read? (places : Nat) (cs : List Char) : Option FixedNumeral :=
  let (negative, cs) := takeSign cs
  let whole := cs.takeWhile Char.isDigit
  match cs.dropWhile Char.isDigit with
  | '.' :: fraction =>
    if whole ≠ [] ∧ fraction.length = places ∧ fraction.all Char.isDigit then
      some ⟨negative, Nat.ofDigitChars 10 (whole ++ fraction) 0⟩
    else none
  | _ => none

/-- The number shows a decimal number: its sign is kept, and its magnitude is rounded half to even.
A magnitude that needs no more places than there are is shown as it is. -/
def Shows (places : Nat) (d : Decimal) (numeral : FixedNumeral) : Prop :=
  ∃ coefficient exponent, d = .finite numeral.negative coefficient exponent ∧
    IsHalfEven (scientific coefficient exponent * 10 ^ places) numeral.units ∧
    ∀ units : Nat, scientific coefficient exponent * 10 ^ places = units → numeral.units = units

/-- The characters of a number with a fixed number of places. -/
def chars (places : Nat) (numeral : FixedNumeral) : List Char :=
  (if numeral.negative then ['-'] else []) ++ (Text.decimalDigits (numeral.units / tenPow places) ++
    '.' :: (Text.padded places (numeral.units % tenPow places)).toList)

variable {places : Nat} (numeral : FixedNumeral)

theorem read?_chars (hplaces : 0 < places) :
    read? places (numeral.chars places) = some numeral := by
  obtain ⟨negative, units⟩ := numeral
  have hwhole : ∀ c ∈ Text.decimalDigits (units / tenPow places), c.isDigit = true :=
    fun c => Text.isDigit_of_mem_decimalDigits
  have hfraction : (Text.padded places (units % tenPow places)).toList.all Char.isDigit = true :=
    List.all_eq_true.mpr fun c => Text.isDigit_of_mem_padded
  have hlength := Text.length_padded hplaces (Nat.mod_lt units (tenPow_pos places))
  have hpoint : ¬ Char.isDigit '.' = true := by decide
  have hvalue : Nat.ofDigitChars 10 (Text.decimalDigits (units / tenPow places) ++
      (Text.padded places (units % tenPow places)).toList) 0 = units := by
    rw [Nat.ofDigitChars_append, Text.ofDigitChars_decimalDigits,
      Nat.ofDigitChars_eq_ofDigitChars_zero, Text.ofDigitChars_padded, hlength]
    exact Nat.div_add_mod units (tenPow places)
  obtain ⟨c, rest, hcons⟩ :=
    List.exists_cons_of_ne_nil (Text.decimalDigits_ne_nil (units / tenPow places))
  have hsign : takeSign (chars places ⟨negative, units⟩) = (negative,
      Text.decimalDigits (units / tenPow places) ++
        '.' :: (Text.padded places (units % tenPow places)).toList) := by
    rw [chars, hcons, List.cons_append]
    exact takeSign_append negative _ (hwhole c (hcons ▸ List.mem_cons_self))
  unfold read?
  rw [hsign]
  dsimp only
  rw [List.takeWhile_append_of_pos hwhole, List.dropWhile_append_of_pos hwhole,
    List.takeWhile_cons_of_neg hpoint, List.dropWhile_cons_of_neg hpoint, List.append_nil]
  refine (if_pos ⟨Text.decimalDigits_ne_nil _, hlength, hfraction⟩).trans ?_
  rw [hvalue]

/-- A number with a fixed number of places has no character but a minus sign, digits and a point. -/
theorem mem_chars {c : Char} (h : c ∈ numeral.chars places) :
    c = '-' ∨ c = '.' ∨ c.isDigit = true := by
  rw [chars, List.mem_append, List.mem_append, List.mem_cons] at h
  rcases h with hsign | hwhole | hpoint | hfraction
  · split at hsign
    · exact Or.inl (List.mem_singleton.mp hsign)
    · cases hsign
  · exact Or.inr (Or.inr (Text.isDigit_of_mem_decimalDigits hwhole))
  · exact Or.inr (Or.inl hpoint)
  · exact Or.inr (Or.inr (Text.isDigit_of_mem_padded hfraction))

theorem chars_ne_nil : numeral.chars places ≠ [] := by
  refine List.append_ne_nil_of_right_ne_nil _ (List.append_ne_nil_of_right_ne_nil _ ?_)
  exact List.cons_ne_nil _ _

end FixedNumeral

namespace Decimal

/-- If the last place is no coarser than the number's own, nothing is cut off; if the number is far
smaller, nothing is left; otherwise a quotient is rounded. -/
theorem isHalfEven_roundedCoefficient (places coefficient : Nat) (exponent : Int) :
    IsHalfEven (scientific coefficient exponent * 10 ^ places)
      (roundedCoefficient places coefficient exponent) := by
  have hvalue : scientific coefficient exponent * 10 ^ places =
      scientific coefficient (exponent + places) := by
    rw [scientific, scientific, zpow_add₀ (by norm_num), zpow_natCast, mul_assoc]
  rw [hvalue]
  unfold roundedCoefficient
  dsimp only
  split
  case isTrue hshift =>
    have hwhole : scientific coefficient (exponent + places) =
        (coefficient * tenPow (exponent + places).toNat : Nat) := by
      rw [scientific_of_le hshift, Int.sub_zero, scientific, zpow_zero, mul_one]
    rw [hwhole]
    exact isHalfEven_natCast _
  case isFalse hshift =>
    split
    case isTrue hfar =>
      apply isHalfEven_zero scientific_nonneg
      calc scientific coefficient (exponent + places)
          < 10 ^ (Text.digitCount coefficient + (exponent + places) : Int) := scientific_lt _ _
        _ ≤ 10 ^ (-1 : Int) := zpow_le_zpow_right₀ (by norm_num) (by omega)
        _ < 1 / 2 := by norm_num
    case isFalse =>
      have hquotient : scientific coefficient (exponent + places) =
          (coefficient : ℚ) / tenPow (-(exponent + places)).toNat := by
        rw [scientific_eq_div, Int.toNat_of_nonpos (by omega)]
        rw [tenPow, Nat.pow_eq, Nat.pow_zero, Nat.mul_one]
      rw [hquotient]
      exact (isRounded_roundHalfEven (tenPow_pos _)).isHalfEven (tenPow_pos _)

/-- A number is written with its sign and its rounded magnitude if it is written at all. -/
theorem fixedText_finite {places : Nat} {negative : Bool} {coefficient : Nat} {exponent : Int}
    {text : String} (h : fixedText? places (.finite negative coefficient exponent) = some text) :
    ∃ numeral : FixedNumeral, text.toList = numeral.chars places ∧
      numeral.Shows places (.finite negative coefficient exponent) := by
  unfold fixedText? at h
  dsimp only at h
  split at h
  · cases h
  · cases h
    have hrounded : IsHalfEven (scientific coefficient exponent * 10 ^ places)
        (if coefficient = 0 then 0 else roundedCoefficient places coefficient exponent) := by
      split
      case isTrue hzero =>
        rw [hzero, scientific_zero_left, zero_mul]
        exact isHalfEven_natCast 0
      case isFalse => exact isHalfEven_roundedCoefficient places coefficient exponent
    refine ⟨⟨negative, if coefficient = 0 then 0
      else roundedCoefficient places coefficient exponent⟩, ?_, coefficient, exponent, rfl,
      hrounded, fun units => hrounded.eq_of_whole⟩
    have hwhole (n : Nat) : (toString n).toList = Text.decimalDigits n := Nat.toList_repr
    simp only [String.toList_append, FixedNumeral.chars, signText, hwhole]
    cases negative <;> simp

/-- There is room for a number if it is small enough. -/
def HasRoom (places : Nat) (d : Decimal) : Prop := d.IsBelow (10 ^ (mostDigits - places))

theorem fixedDigits_le_iff {places coefficient : Nat} {exponent : Int} :
    fixedDigits places coefficient exponent ≤ mostDigits ↔
      scientific coefficient exponent < 10 ^ (mostDigits - places) := by
  have hroom : 0 ≤ mostDigits := by decide
  generalize mostDigits = room at hroom
  unfold fixedDigits
  split
  case isTrue hzero =>
    rw [hzero, scientific_zero_left]
    exact iff_of_true hroom (by positivity)
  case isFalse hsome =>
    constructor
    · intro hle
      calc scientific coefficient exponent
          < 10 ^ (Text.digitCount coefficient + exponent : Int) := scientific_lt _ _
        _ ≤ 10 ^ (room - places) := zpow_le_zpow_right₀ (by norm_num) (by omega)
    · intro hlt
      have hbelow := (le_scientific hsome exponent).trans_lt hlt
      rw [zpow_lt_zpow_iff_right₀ (by norm_num)] at hbelow
      omega

theorem fixedText?_ne_none_iff {places : Nat} {d : Decimal} (h : d.isFinite = true) :
    d.fixedText? places ≠ none ↔ d.HasRoom places := by
  cases d with
  | infinite negative => cases h
  | nan negative signaling payload => cases h
  | finite negative coefficient exponent =>
      rw [HasRoom, isBelow_finite_iff, ← fixedDigits_le_iff]
      unfold fixedText?
      dsimp only
      split
      case isTrue hmany => exact iff_of_false (fun hne => hne rfl) (Int.not_le.mpr hmany)
      case isFalse hfew => exact iff_of_true nofun (Int.not_lt.mp hfew)

end Decimal

end CandleHistory.Number
