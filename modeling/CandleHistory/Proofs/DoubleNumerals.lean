import CandleHistory.Proofs.DecimalText
import CandleHistory.Proofs.NearestDecimal

/-!
The numerals of doubles. The text of a magnitude is a numeral of a fixed form: digits, a point with
digits after it, and an exponent, where either the fraction or the exponent may be left out.
Wherever the point stands and whichever zeros are added or left out, the value of the numeral is
that of the shortest digits of the magnitude. So it is read as the double again, and as a decimal
number it has the value of these digits.
-/

namespace CandleHistory.Text

theorem ofDigitChars_lt {digits : List Char} (h : ∀ c ∈ digits, c.isDigit = true) :
    Nat.ofDigitChars 10 digits 0 < Number.tenPow digits.length := by
  rw [← digitsValue_values, ← length_values]
  apply digitsValue_lt
  intro d hd
  obtain ⟨c, hc, rfl⟩ := List.mem_map.mp hd
  obtain ⟨-, hhigh⟩ := Char.isDigit_iff_toNat.mp (h c hc)
  change c.toNat ≤ 57 at hhigh
  change c.toNat - 48 < 10
  omega

/-- The digits of a positive number do not begin with a zero. -/
theorem head?_decimalDigits_ne {n : Nat} (hn : 0 < n) : (decimalDigits n).head? ≠ some '0' := by
  intro hhead
  obtain ⟨rest, hcons⟩ := List.head?_eq_some_iff.mp hhead
  have hvalue := ofDigitChars_decimalDigits n
  have hlength := @length_decimalDigits_le_iff n rest.length
  have hlt := ofDigitChars_lt fun c (hc : c ∈ rest) =>
    isDigit_of_mem_decimalDigits (n := n) (hcons ▸ List.mem_cons_of_mem '0' hc)
  rw [hcons] at hvalue hlength
  change Nat.ofDigitChars 10 rest 0 = n at hvalue
  rw [hvalue] at hlt
  rcases Nat.eq_zero_or_pos rest.length with hnil | hpos
  · rw [hnil] at hlt
    exact hn.ne' (Nat.lt_one_iff.mp hlt)
  · have hle := (hlength hpos).mpr hlt
    rw [List.length_cons] at hle
    omega

/-- The digits of a number without the zeros at the end. -/
def significantDigits (n : Nat) : List Char := trimEndWith (· == '0') (decimalDigits n)

theorem decimalDigits_eq_append (n : Nat) : decimalDigits n = significantDigits n ++
    List.replicate ((decimalDigits n).length - (significantDigits n).length) '0' := by
  have hsplit : significantDigits n ++ (decimalDigits n).rtakeWhile (· == '0') = decimalDigits n :=
    List.rdropWhile_append_rtakeWhile
  have hlength := congrArg List.length hsplit
  rw [List.length_append] at hlength
  have hzeros : (decimalDigits n).rtakeWhile (· == '0') =
      List.replicate ((decimalDigits n).length - (significantDigits n).length) '0' := by
    rw [List.eq_replicate_iff]
    refine ⟨by omega, fun c hc => ?_⟩
    have hzero := List.mem_rtakeWhile_imp hc
    exact beq_iff_eq.mp hzero
  rw [← hzeros, hsplit]

theorem isDigit_of_mem_significantDigits {n : Nat} {c : Char} (h : c ∈ significantDigits n) :
    c.isDigit = true := by
  apply isDigit_of_mem_decimalDigits (n := n)
  rw [decimalDigits_eq_append]
  exact List.mem_append_left _ h

/-- The significant digits of a positive number do not begin with a zero, and there is at least one.
-/
theorem head?_significantDigits {n : Nat} (hn : 0 < n) :
    ∃ c rest, significantDigits n = c :: rest ∧ c ≠ '0' := by
  have hhead := head?_decimalDigits_ne hn
  have hsplit := decimalDigits_eq_append n
  have hne := decimalDigits_ne_nil n
  cases hdigits : significantDigits n with
  | nil =>
      -- else all digits would be zeros
      rw [hdigits, List.nil_append] at hsplit
      generalize (decimalDigits n).length - ([] : List Char).length = k at hsplit
      rw [hsplit] at hhead hne
      cases k with
      | zero => exact absurd rfl hne
      | succ k => exact absurd rfl hhead
  | cons c rest =>
      refine ⟨c, rest, rfl, ?_⟩
      rintro rfl
      rw [hsplit, hdigits] at hhead
      exact hhead rfl

end CandleHistory.Text

namespace CandleHistory.Number

open Text (decimalDigits digitsValue significantDigits)

/-- The zeros at the end of a number's digits count in the exponent. -/
theorem scientific_significantDigits (n : Nat) (exponent : Int) :
    scientific (Nat.ofDigitChars 10 (significantDigits n) 0)
        (exponent + ((decimalDigits n).length - (significantDigits n).length : Nat)) =
      scientific n exponent := by
  have hvalue := Text.ofDigitChars_decimalDigits n
  rw [Text.decimalDigits_eq_append, Nat.ofDigitChars_append, Nat.ofDigitChars_replicate_zero,
    Nat.mul_comm] at hvalue
  rw [← scientific_mul_tenPow]
  exact congrArg (scientific · exponent) hvalue

/-- A numeral with a fraction, or an exponent, or both. It has no needless zero in front. -/
structure RealNumeral where
  whole : List Char
  fraction : List Char
  exponent? : Option Int
  isDigit_of_mem_whole : ∀ c ∈ whole, c.isDigit = true
  isDigit_of_mem_fraction : ∀ c ∈ fraction, c.isDigit = true
  whole_ne_nil : whole ≠ []
  whole_eq_of_zero : whole.head? = some '0' → whole = ['0']
  exponent?_ne_none : fraction = [] → exponent? ≠ none

namespace RealNumeral

variable (numeral : RealNumeral)

/-- The characters of the exponent. -/
def exponentChars (style : Binary64.Style) : Option Int → List Char
  | none => []
  | some exponent => (Binary64.exponentText style exponent).toList

/-- All characters of the numeral. -/
def chars (style : Binary64.Style) : List Char :=
  numeral.whole ++ ((if numeral.fraction = [] then [] else '.' :: numeral.fraction) ++
    exponentChars style numeral.exponent?)

/-- The number that all digits make together. -/
def coefficient : Nat := Nat.ofDigitChars 10 (numeral.whole ++ numeral.fraction) 0

/-- The exponent of the last digit. -/
def lastExponent : Int := numeral.exponent?.getD 0 - numeral.fraction.length

/-- The number that the numeral names. -/
def value : ℚ := scientific numeral.coefficient numeral.lastExponent

theorem toList_exponentText (style : Binary64.Style) (exponent : Int) :
    (Binary64.exponentText style exponent).toList =
      'e' :: (if exponent < 0 then '-' else '+') ::
        (Text.padded style.exponentWidth exponent.natAbs).toList := by
  rw [Binary64.exponentText, String.toList_append]
  split <;> rfl

theorem readExponent?_exponentChars (style : Binary64.Style) (exponent? : Option Int) :
    readExponent? (exponentChars style exponent?) = some (exponent?.getD 0) := by
  cases exponent? with
  | none => rfl
  | some exponent =>
      rw [exponentChars, toList_exponentText]
      exact readExponent?_marked (Or.inl rfl) (fun c => Text.isDigit_of_mem_padded)
        (Text.padded_ne_nil _ _) (Text.ofDigitChars_padded _ _)

theorem not_digit_of_head?_exponentChars (style : Binary64.Style) (exponent? : Option Int) :
    ∀ c ∈ (exponentChars style exponent?).head?, c ≠ '.' ∧ Text.digitValue? c = none := by
  cases exponent? with
  | none => exact fun c hc => nomatch hc
  | some exponent =>
      rw [exponentChars, toList_exponentText]
      simp only [List.head?_cons, Option.mem_some_iff, forall_eq']
      decide

theorem exists_digit_cons_eq_chars (style : Binary64.Style) :
    ∃ c rest, c.isDigit = true ∧ numeral.chars style = c :: rest := by
  obtain ⟨c, rest, hcons⟩ := List.exists_cons_of_ne_nil numeral.whole_ne_nil
  have hdigit := numeral.isDigit_of_mem_whole c (hcons ▸ List.mem_cons_self)
  rw [chars, hcons, List.cons_append]
  exact ⟨c, _, hdigit, rfl⟩

/-- A numeral is read as its digits together, and the exponent of the last of them. -/
theorem readScientific?_chars (style : Binary64.Style) :
    readScientific? (numeral.chars style) = some (numeral.coefficient, numeral.lastExponent) :=
  readScientific?_append numeral.whole_ne_nil numeral.isDigit_of_mem_whole
    numeral.isDigit_of_mem_fraction (not_digit_of_head?_exponentChars style numeral.exponent?)
    (readExponent?_exponentChars style numeral.exponent?)

theorem isKept_of_mem_chars {style : Binary64.Style} {c : Char} (h : c ∈ numeral.chars style) :
    Text.IsKept c := by
  have hexponent : ∀ c ∈ exponentChars style numeral.exponent?, Text.IsKept c := by
    cases numeral.exponent? with
    | none => exact List.forall_mem_nil _
    | some exponent =>
        rw [exponentChars, toList_exponentText]
        exact isKept_of_mem_marked (Or.inl rfl) fun c => Text.isDigit_of_mem_padded
  exact isKept_of_mem_append numeral.isDigit_of_mem_whole numeral.isDigit_of_mem_fraction hexponent
    c h

section Forms

variable {c : Char} {rest : List Char} (hdigit : ∀ d ∈ c :: rest, d.isDigit = true) (hc : c ≠ '0')

/-- Digits with a point after the first of them and `k` more. -/
def split (k : Nat) (exponent? : Option Int) (h : rest.drop k = [] → exponent? ≠ none) :
    RealNumeral where
  whole := c :: rest.take k
  fraction := rest.drop k
  exponent? := exponent?
  isDigit_of_mem_whole d hd := by
    apply hdigit d
    rcases List.mem_cons.mp hd with rfl | htail
    · exact List.mem_cons_self
    · exact List.mem_cons_of_mem c (List.mem_of_mem_take htail)
  isDigit_of_mem_fraction d hd := hdigit d (List.mem_cons_of_mem c (List.mem_of_mem_drop hd))
  whole_ne_nil := List.cons_ne_nil _ _
  whole_eq_of_zero hhead := absurd (Option.some.inj hhead) hc
  exponent?_ne_none := h

theorem split_coefficient {k : Nat} {exponent? : Option Int}
    {h : rest.drop k = [] → exponent? ≠ none} :
    (split hdigit hc k exponent? h).coefficient = Nat.ofDigitChars 10 (c :: rest) 0 := by
  rw [coefficient, split, List.cons_append, List.take_append_drop]

/-- A zero and a point with zeros and digits after it. -/
def afterZeros (k : Nat) : RealNumeral where
  whole := ['0']
  fraction := List.replicate k '0' ++ c :: rest
  exponent? := none
  isDigit_of_mem_whole d hd := Text.isDigit_of_mem_zeros (k := 1) hd
  isDigit_of_mem_fraction d hd := by
    rcases List.mem_append.mp hd with hleft | hright
    · exact Text.isDigit_of_mem_zeros hleft
    · exact hdigit d hright
  whole_ne_nil := List.cons_ne_nil _ _
  whole_eq_of_zero _ := rfl
  exponent?_ne_none hnil :=
    absurd hnil (List.append_ne_nil_of_right_ne_nil _ (List.cons_ne_nil _ _))

theorem afterZeros_coefficient (k : Nat) :
    (afterZeros hdigit k).coefficient = Nat.ofDigitChars 10 (c :: rest) 0 :=
  ofDigitChars_replicate_zero (k + 1) (c :: rest)

/-- Digits with zeros after them, and a zero after the point. -/
def beforeZeros (k : Nat) : RealNumeral where
  whole := c :: rest ++ List.replicate k '0'
  fraction := ['0']
  exponent? := none
  isDigit_of_mem_whole d hd := by
    rcases List.mem_append.mp hd with hleft | hright
    · exact hdigit d hleft
    · exact Text.isDigit_of_mem_zeros hright
  isDigit_of_mem_fraction d hd := Text.isDigit_of_mem_zeros (k := 1) hd
  whole_ne_nil := List.cons_ne_nil _ _
  whole_eq_of_zero hhead := absurd (Option.some.inj hhead) hc
  exponent?_ne_none hnil := absurd hnil (List.cons_ne_nil _ _)

theorem beforeZeros_coefficient (k : Nat) : (beforeZeros hdigit hc k).coefficient =
    Nat.ofDigitChars 10 (c :: rest) 0 * tenPow (k + 1) := by
  rw [coefficient, beforeZeros]
  dsimp only
  rw [List.append_assoc, ← List.replicate_succ', Nat.ofDigitChars_append,
    Nat.ofDigitChars_replicate_zero, Nat.mul_comm]
  rfl

end Forms

end RealNumeral

namespace Binary64

variable (style : Style)

/-- The text of digits with an exponent is a numeral that has their value, wherever its point
stands. -/
theorem exists_realNumeral {c : Char} {rest : List Char}
    (hdigit : ∀ d ∈ c :: rest, d.isDigit = true) (hc : c ≠ '0') (exponent : Int) :
    ∃ numeral : RealNumeral,
      (decimalText style (c :: rest) exponent).toList = numeral.chars style ∧
        numeral.value = scientific (Nat.ofDigitChars 10 (c :: rest) 0) exponent ∧
        min exponent (-1) ≤ numeral.lastExponent := by
  have hlength : (c :: rest).length = rest.length + 1 := List.length_cons
  unfold decimalText
  dsimp only
  split
  case isTrue hscientific =>
    -- the point after the first digit, and an exponent
    have hlast : (RealNumeral.split hdigit hc 0 (some ((c :: rest).length + exponent - 1))
        (by simp)).lastExponent = exponent := by
      simp only [RealNumeral.lastExponent, RealNumeral.split, Option.getD_some, List.drop_zero]
      omega
    refine ⟨.split hdigit hc 0 (some ((c :: rest).length + exponent - 1)) (by simp), ?_, ?_, ?_⟩
    · cases rest <;> simp [RealNumeral.split, RealNumeral.chars, RealNumeral.exponentChars]
    · rw [RealNumeral.value, RealNumeral.split_coefficient, hlast]
    · omega
  case isFalse =>
    split
    case isTrue hpoint =>
      have hlast : (RealNumeral.afterZeros hdigit
          (-((c :: rest).length + exponent)).toNat).lastExponent = exponent := by
        simp only [RealNumeral.lastExponent, RealNumeral.afterZeros, Option.getD_none,
          List.length_append, List.length_replicate]
        omega
      refine ⟨.afterZeros hdigit (-((c :: rest).length + exponent)).toNat, ?_, ?_, ?_⟩
      · simp [RealNumeral.afterZeros, RealNumeral.chars, RealNumeral.exponentChars]
      · rw [RealNumeral.value, RealNumeral.afterZeros_coefficient, hlast]
      · omega
    case isFalse hpoint =>
      split
      case isTrue hwhole =>
        have hlast : (RealNumeral.beforeZeros hdigit hc exponent.toNat).lastExponent = -1 := rfl
        have hexponent : (-1 : Int) + (exponent.toNat + 1 : Nat) = exponent := by omega
        refine ⟨.beforeZeros hdigit hc exponent.toNat, ?_, ?_, ?_⟩
        · simp [RealNumeral.beforeZeros, RealNumeral.chars, RealNumeral.exponentChars]
        · rw [RealNumeral.value, RealNumeral.beforeZeros_coefficient, hlast, scientific_mul_tenPow,
            hexponent]
        · omega
      case isFalse hfraction =>
        -- the point among the digits
        obtain ⟨k, hk⟩ : ∃ k, ((c :: rest).length + exponent).toNat = k + 1 :=
          ⟨((c :: rest).length + exponent).toNat - 1, by omega⟩
        have hne : rest.drop k ≠ [] := by
          rw [ne_eq, List.drop_eq_nil_iff]
          omega
        have hlast : (RealNumeral.split hdigit hc k none
            (fun hnil => absurd hnil hne)).lastExponent = exponent := by
          simp only [RealNumeral.lastExponent, RealNumeral.split, Option.getD_none,
            List.length_drop]
          omega
        refine ⟨.split hdigit hc k none (fun hnil => absurd hnil hne), ?_, ?_, ?_⟩
        · rw [hk]
          simp [RealNumeral.split, RealNumeral.chars, RealNumeral.exponentChars, hne]
        · rw [RealNumeral.value, RealNumeral.split_coefficient, hlast]
        · omega

/-- The number that the digits of a magnitude name. -/
def digitsValue (units : Nat) : ℚ :=
  if units = 0 then 0 else scientific (shortest units).1 (shortest units).2

/-- The digits of a magnitude do not go far below the least double. -/
theorem neg_le_shortest_exponent {units : Nat} (hunits : OnGrid units) (hpos : 0 < units) :
    -347 ≤ (shortest units).2 := by
  have hexponent := le_shortest_exponent hunits hpos
  have hpoint := (zpow_decimalPoint_le hpos unitsPerOne_pos).2
  have hunit : unitsPerOne ≤ tenPow 330 := by decide +kernel
  have hleast : (10 : ℚ) ^ (-330 : Int) ≤ units / unitsPerOne := by
    have hpower : (10 : ℚ) ^ (-330 : Int) = 1 / tenPow 330 := by
      rw [cast_tenPow, one_div, ← zpow_neg]
      rfl
    rw [hpower]
    exact div_le_div₀ (Nat.cast_nonneg _) (Nat.one_le_cast.mpr hpos) cast_unitsPerOne_pos
      (Nat.cast_le.mpr hunit)
  have hlt := (zpow_lt_zpow_iff_right₀ (by norm_num)).mp (hleast.trans_lt hpoint)
  omega

theorem shortest_pos {units : Nat} (hunits : OnGrid units) (hpos : 0 < units) :
    0 < (shortest units).1 := by
  apply Nat.pos_of_ne_zero
  intro hzero
  have hspans := (isShortest_shortest hunits hpos).spans
  rw [hzero, scientific_zero_left] at hspans
  have hzeroUnits : (0 : ℚ) * unitsPerOne = (0 : Nat) / (1 : Nat) := by
    rw [zero_mul, Nat.cast_zero, zero_div]
  have hread := (nearestUnits_eq_iff_spans hunits hpos Nat.one_pos hzeroUnits).mpr hspans
  rw [nearestUnits_zero Nat.one_pos] at hread
  omega

/-- The text of a magnitude is a numeral that has the value of its digits. -/
theorem exists_realNumeral_magnitudeText {units : Nat} (hunits : OnGrid units) :
    ∃ numeral : RealNumeral, (magnitudeText style units).toList = numeral.chars style ∧
      numeral.value = digitsValue units ∧ -347 ≤ numeral.lastExponent ∧
        (numeral.coefficient = 0 → numeral.lastExponent = -1) := by
  unfold magnitudeText digitsValue
  split
  case isTrue =>
    refine ⟨⟨['0'], ['0'], none, by simp, by simp, by simp, by simp, by simp⟩, rfl, ?_, ?_, ?_⟩
    · exact scientific_zero_left _
    · exact (by decide : (-347 : Int) ≤ -1)
    · exact fun _ => rfl
  case isFalse hne =>
    have hpos := Nat.pos_of_ne_zero hne
    have hexponent := neg_le_shortest_exponent hunits hpos
    obtain ⟨c, rest, hcons, hc⟩ := Text.head?_significantDigits (shortest_pos hunits hpos)
    have hvalue := scientific_significantDigits (shortest units).1 (shortest units).2
    have hdigit : ∀ d ∈ c :: rest, d.isDigit = true := by
      rw [← hcons]
      exact fun d => Text.isDigit_of_mem_significantDigits
    have hkept : Text.trimEndWith (· == '0') (decimalDigits (shortest units).1) = c :: rest := hcons
    dsimp only
    rw [hkept]
    rw [hcons] at hvalue
    obtain ⟨numeral, hchars, hnumeral, hlast⟩ := exists_realNumeral style hdigit hc
      ((shortest units).2 + ((decimalDigits (shortest units).1).length - (c :: rest).length : Nat))
    refine ⟨numeral, hchars, hnumeral.trans hvalue, by omega, fun hzero => ?_⟩
    have hsame := hnumeral.trans hvalue
    rw [RealNumeral.value, hzero, scientific_zero_left] at hsame
    exact absurd hsame (scientific_pos_iff.mpr (shortest_pos hunits hpos)).ne

/-- A numeral with the value of a double's digits is read as the double. -/
theorem ofScientific_realNumeral (negative : Bool) {units : Nat} (hunits : OnGrid units)
    (hlt : units < overflowUnits) {numeral : RealNumeral}
    (h : numeral.value = digitsValue units) :
    ofScientific negative numeral.coefficient numeral.lastExponent = .finite negative units := by
  unfold RealNumeral.value digitsValue at h
  split at h
  case isTrue hzero =>
    have hcoefficient : numeral.coefficient = 0 := by
      apply Nat.eq_zero_of_not_pos
      rw [← scientific_pos_iff (e := numeral.lastExponent), h]
      exact lt_irrefl 0
    unfold ofScientific
    rw [hcoefficient, hzero, if_pos (Or.inl rfl)]
  case isFalse hne =>
    have hpos := Nat.pos_of_ne_zero hne
    rw [ofScientific_eq_finite_iff hunits hpos hlt, h]
    exact (isShortest_shortest hunits hpos).spans

/-- The digits of a finite double name a number of no more than 310 digits. -/
theorem digitsValue_lt {units : Nat} (hunits : OnGrid units) (hlt : units < overflowUnits) :
    digitsValue units < 10 ^ (310 : Int) := by
  unfold digitsValue
  split
  case isTrue => positivity
  case isFalse hne =>
    have hpos := Nat.pos_of_ne_zero hne
    have hread := ofScientific_shortest false hunits hpos hlt
    apply lt_of_not_ge
    intro hge
    have hbound : overflowBound ≤ scientific (shortest units).1 (shortest units).2 :=
      overflowBound_le_zpow.trans hge
    have hinfinite := (isNearest_ofScientific false (shortest units).1 (shortest units).2)
    rw [hread] at hinfinite
    cases hinfinite with
    | finite hrange => exact absurd hrange (not_lt.mpr hbound)

end Binary64

namespace Decimal

open Binary64 (OnGrid overflowUnits)

/-- A number that is not too large, and whose last digit is not too small, is in range. -/
theorem ofScientific?_eq_some {negative : Bool} {coefficient : Nat} {exponent : Int}
    (hlow : -347 ≤ exponent) (hzero : coefficient = 0 → exponent ≤ 310)
    (hhigh : scientific coefficient exponent < 10 ^ (310 : Int)) :
    ofScientific? negative coefficient exponent =
      some (.finite negative coefficient exponent) := by
  have hlead : (if coefficient = 0 then exponent
      else exponent + Text.digitCount coefficient - 1) ≤ 310 := by
    split
    case isTrue h => exact hzero h
    case isFalse hne =>
      have hpower := (le_scientific hne exponent).trans_lt hhigh
      rw [zpow_lt_zpow_iff_right₀ (by norm_num)] at hpower
      omega
  unfold ofScientific?
  dsimp only
  rw [if_neg]
  unfold largestExponent leastExponent
  omega

/-- The text of a finite double, read as a decimal number, has the value of the double's digits. -/
theorem exists_read?_render {style : Binary64.Style} (negative : Bool) {units : Nat}
    (hunits : OnGrid units) (hlt : units < overflowUnits) :
    ∃ d, read? (Binary64.render style (.finite negative units)) = some d ∧
      d.value? = some (signed negative (Binary64.digitsValue units)) := by
  obtain ⟨numeral, hchars, hvalue, hexponent, hzero⟩ :=
    Binary64.exists_realNumeral_magnitudeText style hunits
  obtain ⟨c, rest, hdigit, hcons⟩ := numeral.exists_digit_cons_eq_chars style
  have htext : (Binary64.render style (.finite negative units)).toList =
      (if negative then ['-'] else []) ++ c :: rest := by
    rw [Binary64.render, String.toList_append, hchars, hcons]
    split <;> rfl
  have hread := numeral.readScientific?_chars style
  rw [hcons] at hread
  refine ⟨.finite negative numeral.coefficient numeral.lastExponent, ?_, ?_⟩
  · rw [read?_eq htext hdigit (fun d hd => numeral.isKept_of_mem_chars (hcons ▸ hd)) hread]
    refine ofScientific?_eq_some hexponent (fun h => ?_) ?_
    · rw [hzero h]
      decide
    · exact hvalue.trans_lt (Binary64.digitsValue_lt hunits hlt)
  · rw [value?, ← hvalue]
    rfl

end Decimal

end CandleHistory.Number
