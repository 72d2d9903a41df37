import CandleHistory.Proofs.DoubleNumerals
import CandleHistory.Proofs.EventDocuments
import Mathlib.Data.EReal.Operations

/-!
The order of amounts in documents. Rounding to the nearest double keeps the order of numbers, also
where it gives a zero or an infinity. The digits of a double are rounded to that double again, so
they lie in the same order as the doubles. The numerals of a document, read as extended reals, are
therefore in the order of the amounts, and amounts of one value and sign have one numeral.
-/

namespace CandleHistory

open Number (Binary64)

namespace Number.Binary64

/-- A rounded quotient stays above every magnitude that the quotient stays above. -/
theorem le_nearestUnits_of_onGrid {n d units : Nat} (hd : 0 < d) (hunits : OnGrid units)
    (h : units * d ≤ n) : units ≤ nearestUnits n d := by
  obtain ⟨m, hrounds⟩ := exists_roundsTo n hd
  have hnear := hrounds.natAbs_le hunits
  apply Nat.le_of_not_lt
  intro hlt
  have hless : nearestUnits n d * d < units * d := Nat.mul_lt_mul_of_pos_right hlt hd
  omega

section Quotients

variable {n d m e : Nat} {q r : ℚ} (hd : 0 < d) (he : 0 < e) (hq : q * unitsPerOne = n / d)
  (hr : r * unitsPerOne = m / e)

include hd he hq hr

/-- Rounding keeps the order of the quotients. -/
theorem nearestUnits_le_of_le (h : q ≤ r) : nearestUnits n d ≤ nearestUnits m e := by
  obtain ⟨k, hrounds⟩ := exists_roundsTo n hd
  have hgrid := hrounds.onGrid
  apply Nat.le_of_not_lt
  intro hlt
  have hpos : 0 < nearestUnits n d := Nat.lt_of_le_of_lt (Nat.zero_le _) hlt
  have hspans := (nearestUnits_eq_iff_spans hgrid hpos hd hq).mp rfl
  generalize nearestUnits n d = units at *
  rcases le_total r (magnitude units) with hbelow | habove
  · -- the larger quotient is in the interval of the rounded smaller one
    have hinside := hspans.between (spans_magnitude hgrid hpos) h hbelow
    have hsame := (nearestUnits_eq_iff_spans hgrid hpos he hr).mpr hinside
    omega
  · have hscaled : (units : ℚ) ≤ m / e := by
      rw [← hr, ← magnitude_mul units]
      exact mul_le_mul_of_nonneg_right habove cast_unitsPerOne_pos.le
    rw [le_div_iff₀ (Nat.cast_pos.mpr he)] at hscaled
    have hle : units ≤ nearestUnits m e :=
      le_nearestUnits_of_onGrid he hgrid (by exact_mod_cast hscaled)
    omega

end Quotients

/-- The digits of a magnitude are rounded to the magnitude. -/
theorem nearestUnits_shortest {units : Nat} (hunits : OnGrid units) (hpos : 0 < units) :
    nearestUnits ((shortest units).1 * tenPow (shortest units).2.toNat * unitsPerOne)
      (tenPow (-(shortest units).2).toNat) = units := by
  rw [nearestUnits_eq_iff_spans hunits hpos (tenPow_pos _) (scientific_mul_unitsPerOne _ _)]
  exact (isShortest_shortest hunits hpos).spans

theorem digitsValue_nonneg (units : Nat) : 0 ≤ digitsValue units := by
  unfold digitsValue
  split
  · exact le_refl 0
  · exact scientific_nonneg

/-- The digits of magnitudes lie in the order of the magnitudes. -/
theorem digitsValue_le {units others : Nat} (hunits : OnGrid units) (hothers : OnGrid others)
    (h : units ≤ others) : digitsValue units ≤ digitsValue others := by
  rcases Nat.eq_zero_or_pos units with rfl | hpos
  · exact digitsValue_nonneg others
  · have hothersPos : 0 < others := Nat.lt_of_lt_of_le hpos h
    apply le_of_not_gt
    intro hlt
    rw [digitsValue, digitsValue, if_neg hpos.ne', if_neg hothersPos.ne'] at hlt
    have hback := nearestUnits_le_of_le (tenPow_pos _) (tenPow_pos _)
      (scientific_mul_unitsPerOne _ _) (scientific_mul_unitsPerOne _ _) hlt.le
    rw [nearestUnits_shortest hunits hpos, nearestUnits_shortest hothers hothersPos] at hback
    rw [Nat.le_antisymm h hback] at hlt
    exact lt_irrefl _ hlt

/-- Where the digits of a rounded quotient lie. An infinity lies above all numbers. -/
noncomputable def reach (n d : Nat) : EReal :=
  if nearestUnits n d < overflowUnits then ((digitsValue (nearestUnits n d) : ℚ) : ℝ) else ⊤

theorem reach_nonneg (n d : Nat) : 0 ≤ reach n d := by
  unfold reach
  split
  · exact_mod_cast digitsValue_nonneg _
  · exact le_top

theorem reach_le_of_le {n d m e : Nat} {q r : ℚ} (hd : 0 < d) (he : 0 < e)
    (hq : q * unitsPerOne = n / d) (hr : r * unitsPerOne = m / e) (h : q ≤ r) :
    reach n d ≤ reach m e := by
  have hle := nearestUnits_le_of_le hd he hq hr h
  obtain ⟨j, hfirst⟩ := exists_roundsTo n hd
  obtain ⟨k, hsecond⟩ := exists_roundsTo m he
  have hdigits := digitsValue_le hfirst.onGrid hsecond.onGrid hle
  unfold reach
  split
  case isTrue =>
    split
    case isTrue => exact_mod_cast hdigits
    case isFalse => exact le_top
  case isFalse hlarge => rw [if_neg (by omega)]

theorem reach_zero {d : Nat} (hd : 0 < d) : reach 0 d = 0 := by
  have hfinite : 0 < overflowUnits := twoPow_pos _
  rw [reach, nearestUnits_zero hd, if_pos hfinite, digitsValue, if_pos rfl]
  norm_cast

end Number.Binary64

namespace Number.Decimal

open Binary64 (nearestUnits overflowUnits reach unitsPerOne)

/-- The extended real that a number is. What is no number has none. -/
noncomputable def extended? : Decimal → Option EReal
  | .finite negative coefficient exponent =>
    some ((signed negative (scientific coefficient exponent) : ℚ) : ℝ)
  | .infinite negative => some (if negative then ⊥ else ⊤)
  | .nan .. => none

/-- Both are numbers, perhaps infinite ones, and the first is not above the second. -/
def NotAbove (a b : Decimal) : Prop :=
  ∃ x y, a.extended? = some x ∧ b.extended? = some y ∧ x ≤ y

/-- Both texts are read as numbers, and the first is not above the second. -/
def ReadsNotAbove (s t : String) : Prop :=
  ∃ a b, read? s = some a ∧ read? t = some b ∧ a.NotAbove b

/-- The numeral that a document has for a number. -/
def numeral? (d : Decimal) : Option String := d.toBinary64?.map Binary64.jsonText

/-- Whether a number has a minus sign, be it a zero. -/
def isNegative : Decimal → Bool
  | .finite negative .. => negative
  | .infinite negative => negative
  | .nan negative .. => negative

/-- The numeral of a rounded quotient is read as the place of its digits, with the sign. -/
theorem exists_read?_ofUnits (negative : Bool) (n : Nat) {d : Nat} (hd : 0 < d) :
    ∃ a, read? (Binary64.ofUnits negative n d).jsonText = some a ∧
      a.extended? = some (if negative then -reach n d else reach n d) := by
  obtain ⟨m, hrounds⟩ := Binary64.exists_roundsTo n hd
  unfold Binary64.ofUnits reach
  dsimp only
  split
  case isTrue hlt =>
    obtain ⟨a, hread, hvalue⟩ := exists_read?_render negative hrounds.onGrid hlt
    refine ⟨a, hread, ?_⟩
    cases a with
    | finite sign coefficient exponent =>
        have hsame := Option.some.inj hvalue
        rw [extended?, hsame, signed]
        cases negative <;> simp
    | infinite sign => cases hvalue
    | nan sign signaling payload => cases hvalue
  case isFalse =>
    cases negative with
    | false => exact ⟨.infinite false, by decide, rfl⟩
    | true => exact ⟨.infinite true, by decide, by simp [extended?]⟩

/-- What keeps the order of magnitudes, and their zero, keeps the order of signed numbers. -/
theorem signed_le_signed {sign other : Bool} {p q : ℚ} {x y : EReal} (hp : 0 ≤ p) (hq : 0 ≤ q)
    (hx : 0 ≤ x) (hy : 0 ≤ y) (hup : p ≤ q → x ≤ y) (hdown : q ≤ p → y ≤ x)
    (hzero : p = 0 → x = 0) (h : signed sign p ≤ signed other q) :
    (if sign then -x else x) ≤ if other then -y else y := by
  cases sign with
  | false =>
      cases other with
      | false => exact hup h
      | true =>
          -- only zeros are not above a number with a minus sign
          have hle : p ≤ -q := h
          have hpZero : p = 0 := by linarith
          have hyZero : y ≤ 0 := (hdown (by linarith)).trans_eq (hzero hpZero)
          simp [hzero hpZero, le_antisymm hyZero hy]
  | true =>
      have hnegative : -x ≤ 0 := EReal.neg_le_zero.mpr hx
      cases other with
      | false => exact hnegative.trans hy
      | true =>
          have hle : -p ≤ -q := h
          exact EReal.neg_le_neg_iff.mpr (hdown (neg_le_neg_iff.mp hle))

/-- Signed numbers that are equal have one sign, unless they are zeros, and one magnitude. -/
theorem eq_of_signed_eq {sign other : Bool} {p q : ℚ} (hp : 0 ≤ p) (hq : 0 ≤ q)
    (h : signed sign p = signed other q) (hsign : p = 0 → sign = other) :
    sign = other ∧ p = q := by
  cases sign with
  | false =>
      cases other with
      | false => exact ⟨rfl, h⟩
      | true =>
          have heq : p = -q := h
          exact nomatch hsign (by linarith)
  | true =>
      cases other with
      | false =>
          have heq : -p = q := h
          exact nomatch hsign (by linarith)
      | true => exact ⟨rfl, neg_injective h⟩

variable {sign other : Bool} {c k : Nat} {e f : Int}

theorem notAbove_finite_iff : (Decimal.finite sign c e).NotAbove (.finite other k f) ↔
    signed sign (scientific c e) ≤ signed other (scientific k f) := by
  constructor
  · rintro ⟨_, _, ⟨⟩, ⟨⟩, hle⟩
    exact_mod_cast hle
  · intro hle
    exact ⟨_, _, rfl, rfl, by exact_mod_cast hle⟩

theorem numeral?_finite (negative : Bool) (coefficient : Nat) (exponent : Int) :
    (Decimal.finite negative coefficient exponent).numeral? =
      some (Binary64.ofUnits negative (coefficient * tenPow exponent.toNat * unitsPerOne)
        (tenPow (-exponent).toNat)).jsonText := by
  rw [← Binary64.ofScientific_eq]
  rfl

/-- The numerals of finite numbers are read as numbers in the same order. -/
theorem readsNotAbove_of_notAbove {s t : String}
    (hs : (Decimal.finite sign c e).numeral? = some s)
    (ht : (Decimal.finite other k f).numeral? = some t)
    (h : (Decimal.finite sign c e).NotAbove (.finite other k f)) : ReadsNotAbove s t := by
  rw [notAbove_finite_iff] at h
  have hup := Binary64.reach_le_of_le (tenPow_pos (-e).toNat) (tenPow_pos (-f).toNat)
    (Binary64.scientific_mul_unitsPerOne c e) (Binary64.scientific_mul_unitsPerOne k f)
  have hdown := Binary64.reach_le_of_le (tenPow_pos (-f).toNat) (tenPow_pos (-e).toNat)
    (Binary64.scientific_mul_unitsPerOne k f) (Binary64.scientific_mul_unitsPerOne c e)
  have hzero : scientific c e = 0 →
      reach (c * tenPow e.toNat * unitsPerOne) (tenPow (-e).toNat) = 0 := by
    intro hvalue
    have hc : c = 0 := Nat.eq_zero_of_not_pos fun hpos => (scientific_pos_iff.mpr hpos).ne' hvalue
    rw [hc, Nat.zero_mul, Nat.zero_mul]
    exact Binary64.reach_zero (tenPow_pos _)
  rw [numeral?_finite] at hs ht
  obtain rfl := Option.some.inj hs
  obtain rfl := Option.some.inj ht
  obtain ⟨a, hread, ha⟩ := exists_read?_ofUnits sign (c * tenPow e.toNat * unitsPerOne)
    (tenPow_pos (-e).toNat)
  obtain ⟨b, hother, hb⟩ := exists_read?_ofUnits other (k * tenPow f.toNat * unitsPerOne)
    (tenPow_pos (-f).toNat)
  exact ⟨a, b, hread, hother, _, _, ha, hb, signed_le_signed scientific_nonneg scientific_nonneg
    (Binary64.reach_nonneg _ _) (Binary64.reach_nonneg _ _) hup hdown hzero h⟩

/-- Finite numbers of one value and one sign have one numeral. -/
theorem numeral?_eq_of_value?_eq
    (hvalue : (Decimal.finite sign c e).value? = (Decimal.finite other k f).value?)
    (hsign : (Decimal.finite sign c e).value? = some 0 → sign = other) :
    (Decimal.finite sign c e).numeral? = (Decimal.finite other k f).numeral? := by
  have hzero : scientific c e = 0 → sign = other := by
    intro h
    apply hsign
    rw [value?, h]
    cases sign with
    | false => rfl
    | true => exact congrArg some neg_zero
  obtain ⟨rfl, hsame⟩ := eq_of_signed_eq scientific_nonneg scientific_nonneg
    (Option.some.inj hvalue) hzero
  have hup := Binary64.nearestUnits_le_of_le (tenPow_pos (-e).toNat) (tenPow_pos (-f).toNat)
    (Binary64.scientific_mul_unitsPerOne c e) (Binary64.scientific_mul_unitsPerOne k f) hsame.le
  have hdown := Binary64.nearestUnits_le_of_le (tenPow_pos (-f).toNat) (tenPow_pos (-e).toNat)
    (Binary64.scientific_mul_unitsPerOne k f) (Binary64.scientific_mul_unitsPerOne c e) hsame.ge
  rw [numeral?_finite, numeral?_finite, Binary64.ofUnits, Binary64.ofUnits,
    Nat.le_antisymm hup hdown]

/-- Finite numbers have numerals that keep their order, and one numeral if they have one value and,
should they be zeros, one sign. -/
theorem exists_numerals_in_order {a b : Decimal} (ha : a.isFinite = true)
    (hb : b.isFinite = true) : ∃ s t, a.numeral? = some s ∧ b.numeral? = some t ∧
      (a.NotAbove b → ReadsNotAbove s t) ∧
      (a.value? = b.value? → (a.value? = some 0 → a.isNegative = b.isNegative) → s = t) := by
  cases a with
  | infinite negative => cases ha
  | nan negative signaling payload => cases ha
  | finite sign c e =>
      cases b with
      | infinite negative => cases hb
      | nan negative signaling payload => cases hb
      | finite other k f =>
          refine ⟨_, _, rfl, rfl, readsNotAbove_of_notAbove rfl rfl, fun hvalue hsign => ?_⟩
          exact Option.some.inj (numeral?_eq_of_value?_eq hvalue hsign)

end Number.Decimal

namespace Report.MarketEvent

open Calendar (Instant)
open Number (Decimal)

/-- The low is not above the open and the close, and these are not above the high. The prices stand
in the order of the names of the amounts. -/
def PricesInOrder {α : Type} (notAbove : α → α → Prop) : List α → Prop
  | openPrice :: highPrice :: lowPrice :: closePrice :: _ =>
    (notAbove lowPrice openPrice ∧ notAbove openPrice highPrice) ∧
      notAbove lowPrice closePrice ∧ notAbove closePrice highPrice
  | _ => False

/-- Prices in order have numerals in order. -/
theorem PricesInOrder.numerals {amounts : List Decimal} {numerals : List String}
    (h : PricesInOrder Decimal.NotAbove amounts) (hfinite : ∀ d ∈ amounts, d.isFinite = true)
    (hnumerals : List.Forall₂ (fun d s => d.numeral? = some s) amounts numerals) :
    PricesInOrder Decimal.ReadsNotAbove numerals := by
  have hkept {a b : Decimal} {s t : String} (ha : a ∈ amounts) (hb : b ∈ amounts)
      (hs : a.numeral? = some s) (ht : b.numeral? = some t) (hle : a.NotAbove b) :
      Decimal.ReadsNotAbove s t := by
    obtain ⟨u, v, hu, hv, horder, -⟩ :=
      Decimal.exists_numerals_in_order (hfinite a ha) (hfinite b hb)
    obtain rfl := Option.some.inj (hs.symm.trans hu)
    obtain rfl := Option.some.inj (ht.symm.trans hv)
    exact horder hle
  obtain _ | ⟨ho, _ | ⟨hh, _ | ⟨hl, _ | ⟨hc, _⟩⟩⟩⟩ := hnumerals
  · exact h.elim
  · exact h.elim
  · exact h.elim
  · exact h.elim
  · obtain ⟨⟨hlo, hoh⟩, hlc, hch⟩ := h
    exact ⟨⟨hkept (by simp) (by simp) hl ho hlo, hkept (by simp) (by simp) ho hh hoh⟩,
      hkept (by simp) (by simp) hl hc hlc, hkept (by simp) (by simp) hc hh hch⟩

/-- The numerals that documents have for finite numbers are read in the order of the numbers, with
the infinities among them, and numbers of one value have one numeral, apart from the signs of zeros.
So a document whose candle has its prices in order has their numerals in order. It can be written
unless an integer of its event is too long. -/
theorem order_survives :
    (∀ a b : Decimal, a.isFinite = true → b.isFinite = true →
      ∃ s t, a.numeral? = some s ∧ b.numeral? = some t ∧
        (a.NotAbove b → Decimal.ReadsNotAbove s t) ∧
        (a.value? = b.value? → (a.value? = some 0 → a.isNegative = b.isNegative) → s = t)) ∧
    ∀ (event : MarketEvent) (received : Instant), event.receivedTime.toUtc = .ok received →
      (∀ d ∈ event.amounts, d.isFinite = true) →
      ∃ numerals, (event.Short → event.text = .ok (event.textWith received numerals)) ∧
        (¬ event.Short → event.text = .error .tooManyDigits) ∧
        List.Forall₂ (fun d s => d.numeral? = some s) event.amounts numerals ∧
        (PricesInOrder Decimal.NotAbove event.amounts →
          PricesInOrder Decimal.ReadsNotAbove numerals) := by
  refine ⟨fun a b ha hb => Decimal.exists_numerals_in_order ha hb, ?_⟩
  intro event received hreceived hfinite
  have hsome : ∀ d ∈ event.amounts, d.toBinary64? ≠ none := by
    intro d hd
    obtain ⟨s, -, hs, -⟩ := Decimal.exists_numerals_in_order (hfinite d hd) (hfinite d hd)
    intro hnone
    rw [Decimal.numeral?, hnone] at hs
    cases hs
  obtain ⟨numbers, hnumbers⟩ := exists_numbers hsome
  have hnumerals : List.Forall₂ (fun d s => d.numeral? = some s) event.amounts
      (numbers.map Binary64.jsonText) := by
    rw [List.forall₂_map_right_iff]
    refine hnumbers.imp fun d x hx => ?_
    rw [Decimal.numeral?, hx, Option.map_some]
  exact ⟨_, text_of_short hreceived hnumbers, text_of_not_short hreceived hnumbers, hnumerals,
    fun horder => horder.numerals hfinite hnumerals⟩

/-- A candle whose low is rounded to a negative zero and whose high is rounded to an infinity,
beside a volume that has the value of its open in another form. -/
theorem order_survives_unusual :
    let event : MarketEvent := {
      exchangeTime := ⟨1704067200000000⟩, receivedTime := .midnight ⟨2024, 6, 1⟩
      source := Category.spot.eventSource, instrument := 3, closeTime := ⟨1704067260000000⟩
      candle := {
        openTime := 1704067200000, closeTime := 1704067260000
        openPrice := .finite false 150 (-2), highPrice := .finite false 1 400
        lowPrice := .finite true 1 (-400), closePrice := .finite false 9007199254740993 0
        volume := .finite false 15 (-1), turnover := .infinite false } }
    event.receivedTime.toUtc = .ok ⟨1717200000000000⟩ ∧
      (∀ d ∈ event.amounts, d.isFinite = true) ∧ PricesInOrder Decimal.NotAbove event.amounts ∧
      event.candle.openPrice.numeral? = event.candle.volume.numeral? ∧
      ∃ numerals, event.text = .ok (event.textWith ⟨1717200000000000⟩ numerals) ∧
        PricesInOrder Decimal.ReadsNotAbove numerals := by
  intro event
  have hreceived : event.receivedTime.toUtc = .ok ⟨1717200000000000⟩ := by decide +kernel
  have hfinite : ∀ d ∈ event.amounts, d.isFinite = true := by decide
  have horder : PricesInOrder Decimal.NotAbove event.amounts := by
    refine ⟨⟨?_, ?_⟩, ?_, ?_⟩ <;> rw [Decimal.notAbove_finite_iff] <;> decide +kernel
  obtain ⟨hpairs, hevents⟩ := order_survives
  obtain ⟨s, t, hs, ht, -, hsame⟩ := hpairs event.candle.openPrice event.candle.volume rfl rfl
  obtain ⟨numerals, htext, -, -, hkept⟩ := hevents event _ hreceived hfinite
  have hvalue : event.candle.openPrice.value? = event.candle.volume.value? := by decide +kernel
  have hshort : event.Short := by
    constructor <;> exact Number.lt_integerBound_of_lt_twoPow (by decide)
  refine ⟨hreceived, hfinite, horder, ?_, numerals, htext hshort, hkept horder⟩
  rw [hs, ht, hsame hvalue fun _ => rfl]

end Report.MarketEvent

end CandleHistory
