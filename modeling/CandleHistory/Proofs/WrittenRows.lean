import CandleHistory.Proofs.DecimalText
import CandleHistory.Proofs.NearestDouble
import CandleHistory.Proofs.RowOutcomes

/-!
Candles that are written as rows of texts. A candle that is read from a row is read from the row it
is written as, too, and it is the same candle: no digit, no sign and no exponent gets lost.
-/

namespace CandleHistory

open Number (Binary64 Decimal)

/-- The row that a candle is written as: the numeral of its open time and the texts of its amounts,
unless the numeral would be too long. -/
def Candle.row? (candle : Candle) : Option Value :=
  (Number.integerText? candle.openTime).map fun start =>
    .list (.text start :: candle.amounts.map fun d => .text d.text)

/-- An integer is short enough to be written, and a finite double is no larger than doubles are. -/
def Value.InRange : Value → Prop
  | .integer n => n.natAbs < Number.integerBound
  | .real (.finite _ units) => units < Binary64.overflowUnits
  | _ => True

namespace Row

variable {interval : Interval}

/-- A row is read as a candle exactly if it begins with an open time that is read and six amounts
that are. -/
theorem read_eq_ok_iff {row : Value} {result : Candle} : read interval row = .ok result ↔
    ∃ start opening high low closing volume turnover rest,
      items? row = some (start :: opening :: high :: low :: closing :: volume :: turnover :: rest) ∧
      openTime start = .ok result.openTime ∧
      candle interval result.openTime opening high low closing volume turnover = .ok result := by
  constructor
  · intro h
    unfold read at h
    split at h
    case h_1 start opening high low closing volume turnover rest hitems =>
      split at h
      case h_1 time htime =>
        split at h
        case h_1 candle hcandle =>
          cases h
          obtain ⟨-, -, -, -, -, -, rfl, -, -⟩ := candle_eq_ok_iff.mp hcandle
          exact ⟨start, opening, high, low, closing, volume, turnover, rest, hitems, htime, hcandle⟩
        case h_2 => cases h
      case h_2 => cases h
      case h_3 => cases h
    case h_2 => cases h
  · rintro ⟨start, opening, high, low, closing, volume, turnover, rest, hitems, hstart, hcandle⟩
    unfold read
    rw [hitems]
    dsimp only
    rw [hstart]
    dsimp only
    rw [hcandle]

theorem openTime_text {s : String} {n : Int} (h : Number.readInteger? s = some n) :
    openTime (.text s) = .ok n := by
  simp only [openTime, h]

theorem natAbs_signedUnits (negative : Bool) (units : Nat) :
    (Binary64.signedUnits negative units).natAbs = units := by
  unfold Binary64.signedUnits
  split <;> omega

/-- An open time that is read from a datum in range can be written. -/
theorem natAbs_lt_of_openTime {given : Value} {start : Int} (hrange : given.InRange)
    (h : openTime given = .ok start) : start.natAbs < Number.integerBound := by
  cases given with
  | integer n =>
      cases h
      exact hrange
  | boolean b =>
      have htwo : start.natAbs < Number.twoPow 1 := by
        cases h
        split <;> decide
      exact Nat.lt_of_lt_of_le htwo (Number.twoPow_le_integerBound (by decide))
  | real x =>
      cases x with
      | finite negative units =>
          have hwhole : start.natAbs = units / Binary64.unitsPerOne := by
            cases h
            exact natAbs_signedUnits negative _
          have hunits : units < Binary64.unitsPerOne * Number.twoPow 1024 := by
            rw [Nat.mul_comm, ← Binary64.overflowUnits_eq]
            exact hrange
          rw [hwhole]
          exact Nat.lt_of_lt_of_le (Nat.div_lt_of_lt_mul hunits)
            (Number.twoPow_le_integerBound (by decide))
      | infinite negative => cases h
      | nan => cases h
  | text s =>
      cases hread : Number.readInteger? s with
      | some n =>
          simp only [openTime, hread] at h
          cases h
          exact Number.natAbs_lt_of_readInteger? hread
      | none =>
          simp only [openTime, hread] at h
          cases h
  | null => cases h
  | list items => cases h
  | tuple items => cases h
  | object fields => cases h

/-- What is read as an amount is read from its text, too. -/
theorem amount_text {name : String} {given : Value} {d : Decimal}
    (h : amount name given = .ok d) : amount name (.text d.text) = .ok d := by
  obtain ⟨hread, hfinite⟩ := amount_eq_ok_iff.mp h
  have htext : Decimal.read? d.text = some d :=
    Decimal.read?_text (Decimal.inRange_of_read? hread hfinite)
  exact amount_eq_ok_iff.mpr ⟨htext, hfinite⟩

/-- Rows are read without loss. If a row of items in range is read as a candle, then the candle can
be written as a row of texts, and this row is read as the same candle. -/
theorem read_back_of_read {row : Value} {result : Candle}
    (hrange : ∀ items, items? row = some items → ∀ item ∈ items, item.InRange)
    (h : read interval row = .ok result) :
    ∃ written, result.row? = some written ∧ read interval written = .ok result := by
  obtain ⟨start, opening, high, low, closing, volume, turnover, rest, hitems, hstart, hcandle⟩ :=
    read_eq_ok_iff.mp h
  have hbound := natAbs_lt_of_openTime (hrange _ hitems start List.mem_cons_self) hstart
  obtain ⟨hopen, hhigh, hlow, hclose, hvolume, hturnover, hsame⟩ := candle_eq_ok_iff.mp hcandle
  have hnumeral : Number.integerText? result.openTime = some (toString result.openTime) :=
    if_pos hbound
  have htime := openTime_text (Number.readInteger?_toString hbound)
  have htexts := candle_eq_ok_iff.mpr ⟨amount_text hopen, amount_text hhigh, amount_text hlow,
    amount_text hclose, amount_text hvolume, amount_text hturnover, hsame⟩
  refine ⟨_, by rw [Candle.row?, hnumeral]; rfl, ?_⟩
  exact read_eq_ok_iff.mpr ⟨_, _, _, _, _, _, _, [], rfl, htime, htexts⟩

/-- A row with a negative zero, zeros at the end, a blank, an underscore, and exponents of both
signs. -/
theorem read_back_of_read_unusual :
    let row : Value := .list [.text " 1_704067200000", .text "-0.00", .text "1E+5",
      .integer (-1000), .text "100e-8", .text "+0.00012", .text "012.340", .null]
    let candle : Candle := {
      openTime := 1704067200000, closeTime := 1704067260000
      openPrice := .finite true 0 (-2), highPrice := .finite false 1 5
      lowPrice := .finite true 1000 0, closePrice := .finite false 100 (-8)
      volume := .finite false 12 (-5), turnover := .finite false 12340 (-3) }
    let written : Value := .list [.text "1704067200000", .text "-0.00", .text "1E+5",
      .text "-1000", .text "0.00000100", .text "0.00012", .text "12.340"]
    read .minutes1 row = .ok candle ∧ candle.row? = some written ∧
      read .minutes1 written = .ok candle := by
  intro row candle written
  have hread : read .minutes1 row = .ok candle := rfl
  have hshort {n : Nat} (h : n < Number.twoPow 41) : n < Number.integerBound :=
    Nat.lt_of_lt_of_le h (Number.twoPow_le_integerBound (by decide))
  have hrange : ∀ items, items? row = some items → ∀ item ∈ items, item.InRange := by
    intro items hitems
    rw [← Option.some.inj hitems]
    simpa [Value.InRange] using hshort (by decide : 1000 < Number.twoPow 41)
  obtain ⟨given, hrow, hagain⟩ := read_back_of_read hrange hread
  have hwritten : candle.row? = some written := by
    have hstart : candle.openTime.natAbs < Number.integerBound := hshort (by decide)
    rw [Candle.row?, Number.integerText?, if_pos hstart]
    rfl
  obtain rfl := Option.some.inj (hwritten.symm.trans hrow)
  exact ⟨hread, hwritten, hagain⟩

end Row

end CandleHistory
