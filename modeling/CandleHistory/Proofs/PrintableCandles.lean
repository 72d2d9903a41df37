import CandleHistory.Proofs.AllOrNothing
import CandleHistory.Proofs.Served

/-!
Writing the candles of a range in the calendar. Their open times can be written, so what stands in
the way is a number too wide for the table, or a close time after the end of the calendar. A writer
fails in no other way.
-/

namespace CandleHistory

open Calendar (Instant UtcTime)
open CommandLine (Options)
open Number (Decimal)

theorem Candle.Sound.openTime_isOk {range : DateRange} {candle : Candle} (h : candle.Sound range)
    (hrange : range.InCalendar) : Succeeds (Instant.ofMillis candle.openTime) :=
  Instant.ofMillis_isOk (Int.le_trans hrange.1 h.start_le) (Int.lt_trans h.lt_stop hrange.2)

theorem Number.Decimal.toBinary64?_ne_none {d : Decimal} (h : d.isFinite = true) :
    d.toBinary64? ≠ none := by
  cases d with
  | finite negative coefficient exponent => exact nofun
  | infinite negative => cases h
  | nan negative signaling payload => cases h

namespace Report

/-- A failure of a writer is one of its own, and no interruption. -/
abbrev FailsOnItsOwn {α : Type} (computation : Except Fault α) : Prop :=
  FailsWith (· ≠ Fault.interrupted) computation

theorem unlessTooLong_failsOnItsOwn (text? : Option String) :
    FailsOnItsOwn (Fault.unlessTooLong text?) := by
  cases text? with
  | none => exact .error nofun
  | some text => exact .ok text

theorem Table.row_failsOnItsOwn (candle : Candle) : FailsOnItsOwn (Table.row candle) := by
  have hnumber (d : Decimal) : FailsOnItsOwn (Table.number d) := unlessTooLong_failsOnItsOwn _
  unfold Table.row
  refine (FailsWith.mapError fun _ => nofun).bind fun start => ?_
  exact (FailsWith.mapM fun d _ => hnumber d).bind fun numbers => .ok _

theorem MarketEvent.lineAt_failsOnItsOwn (category : Category) (instrument : Int)
    (received : UtcTime) (candle : Candle) :
    FailsOnItsOwn (MarketEvent.lineAt category instrument received candle) := by
  have hnumber (d : Decimal) : FailsOnItsOwn (MarketEvent.number d) := by
    unfold MarketEvent.number
    split
    · exact .ok _
    · exact .error nofun
  have htime {α : Type} (time : Except Calendar.TimeError α) :
      FailsOnItsOwn (time.mapError Fault.time) := FailsWith.mapError fun _ => nofun
  have hcandle (event : MarketEvent) : FailsOnItsOwn event.candleDocument := by
    unfold MarketEvent.candleDocument
    refine (hnumber _).bind fun _ => (hnumber _).bind fun _ => (hnumber _).bind fun _ => ?_
    exact (hnumber _).bind fun _ => (hnumber _).bind fun _ => .ok _
  have htext (event : MarketEvent) : FailsOnItsOwn event.text := by
    refine .bind ?_ fun document => unlessTooLong_failsOnItsOwn _
    exact (htime _).bind fun _ => (hcandle event).bind fun _ => .ok _
  rw [MarketEvent.lineAt_eq]
  exact (htime _).bind fun _ => (htime _).bind fun _ => htext _

end Report

namespace Program

variable {options : Options}

theorem candleLine_failsOnItsOwn (hoptions : options.Accepted) (received : UtcTime)
    (candle : Candle) : Report.FailsOnItsOwn (candleLine options received candle) := by
  cases hform : writesEvents options with
  | false =>
      rw [candleLine_of_table hform]
      exact Report.Table.row_failsOnItsOwn candle
  | true =>
      obtain ⟨instrument, hindex, -⟩ := hoptions.instrument (of_decide_eq_true hform)
      rw [candleLine_of_events hform hindex]
      exact Report.MarketEvent.lineAt_failsOnItsOwn _ _ _ candle

/-- What the form that the options ask for demands of a candle: a close time in the calendar for
events, and numbers that are not too long for a table. -/
def Printable (options : Options) (candle : Candle) : Prop :=
  if writesEvents options then Succeeds (Instant.ofMillis candle.closeTime)
  else ∀ d ∈ candle.amounts, d.fixedText? Report.Table.places ≠ none

/-- A sound candle can be written if and only if it is printable. -/
theorem writable_iff_printable {candle : Candle} (hoptions : options.Accepted)
    (hrange : options.range.InCalendar) (hsound : candle.Sound options.range) :
    Writable options candle ↔ Printable options candle := by
  have hopen := hsound.openTime_isOk hrange
  unfold Printable
  cases hform : writesEvents options with
  | false => simp [writable_iff_of_table hform, hopen, Candle.amounts]
  | true =>
      have hamounts : ∀ d ∈ [candle.openPrice, candle.highPrice, candle.lowPrice, candle.closePrice,
          candle.volume], d.toBinary64? ≠ none := by
        intro d hmem
        apply Number.Decimal.toBinary64?_ne_none
        apply hsound.fromRow.isFinite
        exact List.mem_append_left [candle.turnover] hmem
      have hcount : candle.tradeCount.natAbs < Number.integerBound := by
        rw [hsound.fromRow.tradeCount]
        exact Number.lt_integerBound_of_lt_twoPow (by decide)
      rw [writable_iff_of_events hoptions hform, if_pos rfl]
      exact ⟨fun h => h.2.1, fun h => ⟨hopen, h, hamounts, hcount⟩⟩

/-- Writing a series ends well if every candle can be written. Otherwise it fails, and is not
interrupted. -/
theorem Rendered.ending_cases (hoptions : options.Accepted) {candles : List Candle}
    {result : Except Fault Unit} {output : Report.Output}
    (h : Rendered options candles result output) :
    (∀ candle ∈ candles, Writable options candle) ∧ endingAfter result = .exited statusOk ∨
      (∃ candle ∈ candles, ¬ Writable options candle) ∧
        ∃ fault, endingAfter result = .crashed fault ∧ fault ≠ .interrupted := by
  cases h with
  | complete _ hall => exact Or.inl ⟨hall, rfl⟩
  | @brokenOff done rest candle received fault _ hsplit hdone hcandle hempty =>
      refine Or.inr ⟨⟨candle, ?_, not_writable_of_error hcandle⟩, fault, rfl, ?_⟩
      · rw [hsplit]
        exact List.mem_append_right done List.mem_cons_self
      · exact candleLine_failsOnItsOwn hoptions received candle fault hcandle

end Program

end CandleHistory
