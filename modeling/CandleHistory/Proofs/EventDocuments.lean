import CandleHistory.Proofs.Succeeds
import CandleHistory.Report.MarketEvent

/-!
The documents of events. The document of an event is an object of a fixed shape, and so is its text:
all that differs from event to event are the times, the names, and the numerals of the amounts,
which stand in fixed places. An event has a document if its times exist and none of its amounts is a
signaling datum, and the document can be written unless an integer in it has too many digits.
-/

namespace CandleHistory

open Number (Binary64)

namespace Json

/-- Fields with commas between them, from the texts of their data. -/
def fieldsText : List (String × String) → String
  | [] => ""
  | [(name, text)] => textLiteral name ++ ":" ++ text
  | (name, text) :: fields => textLiteral name ++ ":" ++ text ++ "," ++ fieldsText fields

/-- An object from the texts of its data. -/
def objectText (fields : List (String × String)) : String := "\x7b" ++ fieldsText fields ++ "\x7d"

/-- A field with the text of its datum, if the datum can be written. -/
def writeField? (field : String × Value) : Option (String × String) :=
  (write? field.2).map fun text => (field.1, text)

theorem writeFields?_eq (fields : List (String × Value)) :
    writeFields? fields = (fields.mapM writeField?).map fieldsText := by
  induction fields with
  | nil =>
      rw [writeFields?, List.mapM_nil]
      rfl
  | cons field rest ih =>
      obtain ⟨name, value⟩ := field
      rw [List.mapM_cons, writeField?]
      cases rest with
      | nil =>
          rw [writeFields?, List.mapM_nil]
          cases write? value <;> rfl
      | cons next rest =>
          rw [List.mapM_cons] at ih ⊢
          rw [writeFields?.eq_3 _ _ _ (List.cons_ne_nil next rest), ih]
          cases write? value with
          | none => rfl
          | some text =>
              cases writeField? next with
              | none => rfl
              | some second => cases rest.mapM writeField? <;> rfl

theorem write?_object (fields : List (String × Value)) :
    write? (.object fields) = (fields.mapM writeField?).map objectText := by
  rw [write?, writeFields?_eq, Option.map_map]
  rfl

theorem writeField?_object (name : String) (fields : List (String × Value)) :
    writeField? (name, .object fields) =
      (fields.mapM writeField?).map fun texts => (name, objectText texts) := by
  rw [writeField?, write?_object, Option.map_map]
  rfl

theorem writeField?_real (name : String) (x : Binary64) :
    writeField? (name, .real x) = some (name, x.jsonText) := by
  rw [writeField?, write?]
  rfl

theorem writeField?_text (name s : String) :
    writeField? (name, .text s) = some (name, textLiteral s) := by
  rw [writeField?, write?]
  rfl

theorem writeField?_integer_of_lt (name : String) {n : Int}
    (h : n.natAbs < Number.integerBound) :
    writeField? (name, .integer n) = some (name, toString n) := by
  rw [writeField?, write?, Number.integerText?, if_pos h]
  rfl

theorem writeField?_integer_of_not_lt (name : String) {n : Int}
    (h : ¬ n.natAbs < Number.integerBound) : writeField? (name, .integer n) = none := by
  rw [writeField?, write?, Number.integerText?, if_neg h]
  rfl

end Json

namespace Report.MarketEvent

open Calendar (Instant)
open Number (Decimal)

/-- The names of the amounts that an event tells. -/
def amountNames : List String := ["open", "high", "low", "close", "volume"]

/-- The amounts that an event tells. -/
def amounts (event : MarketEvent) : List Decimal :=
  [event.candle.openPrice, event.candle.highPrice, event.candle.lowPrice, event.candle.closePrice,
    event.candle.volume]

/-- The document of an event with given doubles for its amounts. -/
def envelope (event : MarketEvent) (received : Instant) (numbers : List Binary64) : Value :=
  .object [("Item", .object [("Ok", .object [
    ("time_exchange", .text event.exchangeTime.rfc3339), ("time_received", .text received.rfc3339),
    ("exchange", .text event.source), ("instrument", .integer event.instrument),
    ("kind", .object [("Candle", .object (("close_time", .text event.closeTime.rfc3339) ::
      amountNames.zip (numbers.map .real) ++
        [("trade_count", .integer event.candle.tradeCount)]))])])])]

/-- The text of an event with given numerals for its amounts. -/
def textWith (event : MarketEvent) (received : Instant) (numerals : List String) : String :=
  Json.objectText [("Item", Json.objectText [("Ok", Json.objectText [
    ("time_exchange", Json.textLiteral event.exchangeTime.rfc3339),
    ("time_received", Json.textLiteral received.rfc3339),
    ("exchange", Json.textLiteral event.source), ("instrument", toString event.instrument),
    ("kind", Json.objectText [("Candle", Json.objectText (
      ("close_time", Json.textLiteral event.closeTime.rfc3339) :: amountNames.zip numerals ++
        [("trade_count", toString event.candle.tradeCount)]))])])])]

/-- If none of its amounts is a signaling datum, an event has a double for each. -/
theorem exists_numbers {amounts : List Decimal} (h : ∀ d ∈ amounts, d.toBinary64? ≠ none) :
    ∃ numbers : List Binary64,
      List.Forall₂ (fun d x => d.toBinary64? = some x) amounts numbers :=
  exists_forall₂_iff.mpr fun d hd => Option.ne_none_iff_exists'.mp (h d hd)

theorem document_eq {event : MarketEvent} {received : Instant} {numbers : List Binary64}
    (hreceived : event.receivedTime.toUtc = .ok received)
    (hnumbers : List.Forall₂ (fun d x => d.toBinary64? = some x) event.amounts numbers) :
    event.document = .ok (event.envelope received numbers) := by
  obtain _ | ⟨ho, _ | ⟨hh, _ | ⟨hl, _ | ⟨hc, _ | ⟨hv, _ | _⟩⟩⟩⟩⟩ := hnumbers
  simp only [document, candleDocument, number, hreceived, ho, hh, hl, hc, hv]
  rfl

/-- The integers of an event do not have too many digits to be written. -/
structure Short (event : MarketEvent) : Prop where
  instrument : event.instrument.natAbs < Number.integerBound
  tradeCount : event.candle.tradeCount.natAbs < Number.integerBound

theorem mapM_writeField?_amounts (numbers : List Binary64) :
    (amountNames.zip (numbers.map Value.real)).mapM Json.writeField? =
      some (amountNames.zip (numbers.map Binary64.jsonText)) := by
  apply mapM_eq_some
  rw [List.zip_map_right, List.zip_map_right, List.forall₂_map_left_iff,
    List.forall₂_map_right_iff, List.forall₂_same]
  exact fun field _ => Json.writeField?_real field.1 field.2

/-- The envelope of an event with short integers is written with a numeral for each amount at its
place. -/
theorem write?_envelope_of_short {event : MarketEvent} (h : event.Short) (received : Instant)
    (numbers : List Binary64) :
    Json.write? (event.envelope received numbers) =
      some (event.textWith received (numbers.map Binary64.jsonText)) := by
  simp only [envelope, Json.write?_object, Json.writeField?_object, Json.writeField?_text,
    Json.writeField?_integer_of_lt _ h.instrument, Json.writeField?_integer_of_lt _ h.tradeCount,
    mapM_writeField?_amounts, List.mapM_cons, List.mapM_nil, List.mapM_append, List.cons_append]
  rfl

theorem write?_envelope_of_not_short {event : MarketEvent} (h : ¬ event.Short)
    (received : Instant) (numbers : List Binary64) :
    Json.write? (event.envelope received numbers) = none := by
  by_cases hinstrument : event.instrument.natAbs < Number.integerBound
  · have hcount : ¬ event.candle.tradeCount.natAbs < Number.integerBound :=
      fun hcount => h ⟨hinstrument, hcount⟩
    simp only [envelope, Json.write?_object, Json.writeField?_object, Json.writeField?_text,
      Json.writeField?_integer_of_lt _ hinstrument, Json.writeField?_integer_of_not_lt _ hcount,
      mapM_writeField?_amounts, List.mapM_cons, List.mapM_nil, List.mapM_append, List.cons_append]
    rfl
  · simp only [envelope, Json.write?_object, Json.writeField?_object, Json.writeField?_text,
      Json.writeField?_integer_of_not_lt _ hinstrument, List.mapM_cons, List.cons_append]
    rfl

section

variable {event : MarketEvent} {received : Instant} {numbers : List Binary64}
  (hreceived : event.receivedTime.toUtc = .ok received)
  (hnumbers : List.Forall₂ (fun d x => d.toBinary64? = some x) event.amounts numbers)

include hreceived hnumbers

/-- The text of an event has a numeral for each amount at its place. -/
theorem text_of_short (h : event.Short) :
    event.text = .ok (event.textWith received (numbers.map Binary64.jsonText)) := by
  rw [text, document_eq hreceived hnumbers]
  dsimp only [Bind.bind, Except.bind]
  rw [write?_envelope_of_short h]
  rfl

theorem text_of_not_short (h : ¬ event.Short) : event.text = .error .tooManyDigits := by
  rw [text, document_eq hreceived hnumbers]
  dsimp only [Bind.bind, Except.bind]
  rw [write?_envelope_of_not_short h]
  rfl

end

end Report.MarketEvent

end CandleHistory
