import CandleHistory.Proofs.DoubleNumerals
import CandleHistory.Proofs.EventDocuments

/-!
Amounts that come out of a document as they went in. An amount goes through a double on its way into
the document of an event. If it has no more than fifteen significant digits and is neither too small
nor too large, its value is that of the shortest digits of the double, which are the ones that the
document writes.
-/

namespace CandleHistory

open Number (Binary64)

namespace Number.Decimal

open Binary64 (OnGrid overflowUnits)

/-- A number with no more than fifteen significant digits that is zero, or neither too small nor too
large. -/
def IsModerate (d : Decimal) : Prop :=
  ∃ negative coefficient exponent, d = .finite negative coefficient exponent ∧
    (Text.significantDigits coefficient).length ≤ 15 ∧
      (coefficient = 0 ∨ 10 ^ (-300 : Int) ≤ scientific coefficient exponent ∧
        scientific coefficient exponent ≤ 10 ^ (300 : Int))

/-- The number of its digits may tell that a number is moderate. -/
theorem isModerate_of_digitCount {negative : Bool} {coefficient : Nat} {exponent : Int}
    (hdigits : (Text.significantDigits coefficient).length ≤ 15)
    (hlow : -299 ≤ Text.digitCount coefficient + exponent)
    (hhigh : Text.digitCount coefficient + exponent ≤ 300) :
    (Decimal.finite negative coefficient exponent).IsModerate := by
  refine ⟨negative, coefficient, exponent, rfl, hdigits, ?_⟩
  rcases Nat.eq_zero_or_pos coefficient with hzero | hpos
  · exact Or.inl hzero
  · refine Or.inr ⟨?_, ?_⟩
    · calc (10 : ℚ) ^ (-300 : Int) ≤ 10 ^ (Text.digitCount coefficient + exponent - 1 : Int) :=
            zpow_le_zpow_right₀ (by norm_num) (by omega)
        _ ≤ scientific coefficient exponent := le_scientific hpos.ne' exponent
    · calc scientific coefficient exponent ≤ 10 ^ (Text.digitCount coefficient + exponent : Int) :=
            (scientific_lt coefficient exponent).le
        _ ≤ 10 ^ (300 : Int) := zpow_le_zpow_right₀ (by norm_num) hhigh

/-- A moderate number is written as a numeral of its own value. -/
theorem IsModerate.exists_read?_jsonText {d : Decimal} (h : d.IsModerate) {x : Binary64}
    (hx : d.toBinary64? = some x) :
    ∃ read, read? x.jsonText = some read ∧ read.value? = d.value? := by
  obtain ⟨negative, coefficient, exponent, rfl, hdigits, hrange⟩ := h
  obtain rfl := Option.some.inj hx
  rcases hrange with rfl | ⟨hlow, hhigh⟩
  · have hgrid : OnGrid 0 := ⟨0, 0, twoPow_pos 53, (Nat.zero_mul _).symm⟩
    have hzero : Binary64.ofScientific negative 0 exponent = .finite negative 0 := by
      rw [Binary64.ofScientific, if_pos (Or.inl rfl)]
    obtain ⟨read, hread, hvalue⟩ := exists_read?_render negative hgrid (twoPow_pos _)
    refine ⟨read, hzero ▸ hread, ?_⟩
    rw [hvalue, value?, scientific_zero_left]
    rfl
  · have hlt : Nat.ofDigitChars 10 (Text.significantDigits coefficient) 0 < tenPow 15 :=
      Nat.lt_of_lt_of_le (Text.ofDigitChars_lt fun c => Text.isDigit_of_mem_significantDigits)
        (tenPow_le hdigits)
    obtain ⟨units, hdouble, hgrid, hpos, hoverflow, hshortest⟩ :=
      Binary64.exists_shortest_of_lt_tenPow negative hlt
        (scientific_significantDigits coefficient exponent).symm hlow hhigh
    obtain ⟨read, hread, hvalue⟩ := exists_read?_render negative hgrid hoverflow
    refine ⟨read, hdouble ▸ hread, ?_⟩
    rw [hvalue, value?, Binary64.digitsValue, if_neg hpos.ne', hshortest]

end Number.Decimal

namespace Report.MarketEvent

open Calendar (Instant)
open Number (Decimal)

/-- The text of an event has a numeral for each amount at its place, unless an integer of the event
is too long to be written. The numeral of a moderate amount has the value of the amount. -/
theorem amounts_survive {event : MarketEvent} {received : Instant}
    (hreceived : event.receivedTime.toUtc = .ok received)
    (hamounts : ∀ d ∈ event.amounts, d.toBinary64? ≠ none) :
    ∃ numerals, (event.Short → event.text = .ok (event.textWith received numerals)) ∧
      (¬ event.Short → event.text = .error .tooManyDigits) ∧
      List.Forall₂ (fun d numeral => d.IsModerate →
        ∃ read, Decimal.read? numeral = some read ∧ read.value? = d.value?)
        event.amounts numerals := by
  obtain ⟨numbers, hnumbers⟩ := exists_numbers hamounts
  refine ⟨numbers.map Binary64.jsonText, text_of_short hreceived hnumbers,
    text_of_not_short hreceived hnumbers, ?_⟩
  rw [List.forall₂_map_right_iff]
  exact hnumbers.imp fun d x hx hd => hd.exists_read?_jsonText hx

/-- Amounts with exponents of both signs, with fifteen digits, and with zeros at both ends. -/
theorem amounts_survive_unusual :
    let event : MarketEvent := {
      exchangeTime := ⟨1704067200000000⟩, receivedTime := .midnight ⟨2024, 6, 1⟩
      source := Category.spot.eventSource, instrument := 3, closeTime := ⟨1704067260000000⟩
      candle := {
        openTime := 1704067200000, closeTime := 1704067260000
        openPrice := .finite false 123456789012345 (-6), highPrice := .finite false 1 23
        lowPrice := .finite false 150 (-9), closePrice := .finite true 10000 (-1)
        volume := .finite true 0 (-2), turnover := .infinite false } }
    event.receivedTime.toUtc = .ok ⟨1717200000000000⟩ ∧
      (∀ d ∈ event.amounts, d.toBinary64? ≠ none) ∧ (∀ d ∈ event.amounts, d.IsModerate) ∧
      ∃ numerals, event.text = .ok (event.textWith ⟨1717200000000000⟩ numerals) ∧
        List.Forall₂ (fun d numeral => d.IsModerate →
          ∃ read, Decimal.read? numeral = some read ∧ read.value? = d.value?)
          event.amounts numerals := by
  intro event
  have hreceived : event.receivedTime.toUtc = .ok ⟨1717200000000000⟩ := by decide +kernel
  have hamounts : ∀ d ∈ event.amounts, d.toBinary64? ≠ none := by
    intro d hd
    simp only [amounts, event, List.mem_cons, List.not_mem_nil, or_false] at hd
    rcases hd with rfl | rfl | rfl | rfl | rfl <;> exact Option.some_ne_none _
  have hmoderate : ∀ d ∈ event.amounts, d.IsModerate := by
    intro d hd
    simp only [amounts, event, List.mem_cons, List.not_mem_nil, or_false] at hd
    rcases hd with rfl | rfl | rfl | rfl | rfl <;>
      exact Decimal.isModerate_of_digitCount (by decide +kernel) (by decide +kernel)
        (by decide +kernel)
  have hshort : event.Short := by
    constructor <;> exact Number.lt_integerBound_of_lt_twoPow (by decide)
  obtain ⟨numerals, htext, -, hnumerals⟩ := amounts_survive hreceived hamounts
  exact ⟨hreceived, hamounts, hmoderate, numerals, htext hshort, hnumerals⟩

end Report.MarketEvent

end CandleHistory
