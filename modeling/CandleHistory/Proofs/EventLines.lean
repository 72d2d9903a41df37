import CandleHistory.Proofs.JsonDocuments
import CandleHistory.Proofs.JsonScanning
import CandleHistory.Proofs.LinesAndWords
import CandleHistory.Proofs.PrintedTimes
import CandleHistory.Proofs.Rendering
import CandleHistory.Proofs.Served

/-!
Series of events, line by line. An event is laid out in the same way as a value, as a text, and as a
claim about its amounts. The writer gives every candle a line of its own. The line is a valid
document exactly if all amounts that it tells fit a double, and then it is read as the envelope of
the candle, with the nearest double for each amount.
-/

namespace CandleHistory

open Calendar (Instant UtcTime)
open Json (ClosesIf FieldsRelated IsPlainText Making ReadsAs)
open Number (Binary64 Decimal)

namespace Calendar.Instant

/-- The longer form of an instant is written as it is. -/
theorem isPlainText_rfc3339 (t : Instant) : IsPlainText t.rfc3339 := by
  have hpadded (width n : Nat) : ∀ c ∈ (Text.padded width n).toList, Json.IsPlain c :=
    fun c hc => Json.isPlain_of_isDigit (Text.isDigit_of_mem_padded hc)
  have hnone : IsPlainText "" := by decide
  have hpoint : IsPlainText "." := by decide
  have hzone : IsPlainText "Z" := by decide
  unfold IsPlainText
  rw [toList_rfc3339, CivilTime.layout, CivilTime.dateChars, CivilTime.clockChars]
  simp only [String.toList_append, List.forall_mem_append, List.forall_mem_cons]
  refine ⟨⟨⟨hpadded _ _, by decide, hpadded _ _, by decide, hpadded _ _⟩, by decide, hpadded _ _,
    by decide, hpadded _ _, by decide, hpadded _ _⟩, ?_, hzone⟩
  split
  case isTrue => exact hnone
  case isFalse =>
    rw [String.toList_append, List.forall_mem_append]
    exact ⟨hpoint, hpadded _ _⟩

/-- A text tells an instant: it is read as a date and a time of day that name the second of the
instant, and then come its microseconds, if there are any, and the mark of UTC. -/
def IsToldBy (t : Instant) (s : String) : Prop :=
  ∃ time : CivilTime, time.Names t.seconds ∧ CivilTime.read? 'T' s =
    some (time, (if t.microsecond = 0 then "" else "." ++ Text.padded 6 t.microsecond) ++ "Z")

theorem isToldBy_rfc3339 {ms : Int} (hfirst : 1000 * firstSecond ≤ ms)
    (hend : ms < 1000 * endSecond) {t : Instant} (h : ofMillis ms = .ok t) :
    t.IsToldBy t.rfc3339 := by
  obtain ⟨told, htold, hseconds, -⟩ := ofMillis_spec hfirst hend
  obtain rfl := Except.ok.inj (h.symm.trans htold)
  have hnames : t.civil.Names t.seconds := by
    apply names_civil
    omega
  have hread := CivilTime.read?_layout hnames 4 'T' t.toList_rfc3339
  rw [String.ofList_toList] at hread
  exact ⟨t.civil, hnames, hread⟩

end Calendar.Instant

namespace Number.Decimal

/-- A decimal number is small enough for a finite double. -/
def FitsDouble (d : Decimal) : Prop := d.IsBelow Binary64.overflowBound

instance : DecidablePred FitsDouble
  | .finite negative _ _ => decidable_of_iff _ (isBelow_finite_iff negative).symm
  | .infinite _ => isTrue nofun
  | .nan _ _ _ => isTrue nofun

/-- The double nearest to a decimal number. -/
inductive Nearest : Decimal → Binary64 → Prop
  | finite {negative : Bool} {coefficient : Nat} {exponent : Int} {x : Binary64}
      (h : Binary64.IsNearest negative (scientific coefficient exponent) x) :
      Nearest (.finite negative coefficient exponent) x

theorem exists_nearest {d : Decimal} (h : d.isFinite = true) :
    ∃ x, d.toBinary64? = some x ∧ d.Nearest x := by
  cases d with
  | finite negative coefficient exponent =>
      exact ⟨_, rfl, .finite (Binary64.isNearest_ofScientific negative coefficient exponent)⟩
  | infinite negative => cases h
  | nan negative signaling payload => cases h

/-- The text of the nearest double is a numeral that is read as this double if the number fits, and
else it is a word that no valid document holds. -/
theorem Nearest.jsonText {d : Decimal} {x : Binary64} (h : d.Nearest x) :
    d.FitsDouble ∧ Json.IsNumeral x.jsonText.toList ∧ ReadsAs x.jsonText (.real x) ∨
      ¬ d.FitsDouble ∧ x.jsonText ∈ ["Infinity", "-Infinity"] := by
  obtain ⟨hnearest⟩ := h
  rw [FitsDouble, isBelow_finite_iff]
  cases hnearest with
  | finite hrange hunits hlt =>
      exact Or.inl ⟨hrange, Json.isNumeral_jsonText _ hunits, Json.readsAs_real _ hunits hlt⟩
  | infinite hrange =>
      refine Or.inr ⟨not_lt.mpr hrange, ?_⟩
      cases ‹Bool› <;> decide

theorem Nearest.closesIf {d : Decimal} {x : Binary64} (h : d.Nearest x) :
    ClosesIf d.FitsDouble x.jsonText.toList := by
  obtain ⟨hfits, hnumeral, -⟩ | ⟨hlarge, hword⟩ := h.jsonText
  · exact Or.inl ⟨hfits, Json.scan?_phrase (.numeral hnumeral)⟩
  · have hwords : ∀ word ∈ ["Infinity", "-Infinity"], Json.scan? .outside word.toList = none := by
      decide
    exact Or.inr ⟨hlarge, hwords _ hword⟩

theorem Nearest.break_not_mem {d : Decimal} {x : Binary64} (h : d.Nearest x) :
    '\n' ∉ x.jsonText.toList := by
  obtain ⟨-, hnumeral, -⟩ | ⟨-, hword⟩ := h.jsonText
  · exact Json.break_not_mem_numeral hnumeral
  · have hwords : ∀ word ∈ ["Infinity", "-Infinity"], '\n' ∉ word.toList := by decide
    exact hwords _ hword

end Number.Decimal

namespace Report.MarketEvent

variable (event : MarketEvent) (received : Instant)

theorem isPlainText_eventSource (category : Category) : IsPlainText category.eventSource := by
  cases category <;> decide

/-- An event with given amounts, made in any way. -/
def layout {δ : Type} (make : Making δ) (amounts : List δ) : δ :=
  make.object [("Item", make.object [("Ok", make.object [
    ("time_exchange", make.text event.exchangeTime.rfc3339),
    ("time_received", make.text received.rfc3339),
    ("exchange", make.text event.source), ("instrument", make.integer event.instrument),
    ("kind", make.object [("Candle", make.object (
      ("close_time", make.text event.closeTime.rfc3339) :: amountNames.zip amounts ++
        [("trade_count", make.integer event.candle.tradeCount)]))])])])]

theorem layout_values (numbers : List Binary64) :
    event.layout received Making.values (numbers.map .real) = event.envelope received numbers := rfl

theorem layout_texts (numerals : List String) :
    event.layout received Making.texts numerals = event.textWith received numerals := rfl

theorem fieldsRelated_zip {α β : Type} {related : α → β → Prop} {names : List String}
    (hnames : ∀ name ∈ names, IsPlainText name) {amounts : List α} {others : List β}
    (h : List.Forall₂ related amounts others) :
    FieldsRelated related (names.zip amounts) (names.zip others) := by
  induction h generalizing names with
  | nil =>
      rw [List.zip_nil_right, List.zip_nil_right]
      exact .nil
  | cons hamount _ ih =>
      cases names with
      | nil => exact .nil
      | cons name names =>
          obtain ⟨hname, hothers⟩ := List.forall_mem_cons.mp hnames
          exact .cons hname hamount (ih hothers)

/-- Events that are made in two ways are related if their amounts are. -/
theorem layout_related {α β : Type} {first : Making α} {second : Making β}
    {related : α → β → Prop} (hmade : first.Respects second related)
    (hsource : IsPlainText event.source) {amounts : List α} {others : List β}
    (hlength : others.length = amountNames.length) (h : List.Forall₂ related amounts others) :
    related (event.layout received first amounts) (event.layout received second others) := by
  have htime (t : Instant) : related (first.text t.rfc3339) (second.text t.rfc3339) :=
    hmade.text t.isPlainText_rfc3339
  have hone {name : String} (hname : IsPlainText name) {datum : α} {other : β}
      (hdatum : related datum other) :
      related (first.object [(name, datum)]) (second.object [(name, other)]) :=
    hmade.object (.cons hname hdatum .nil) (List.cons_ne_nil _ _) (List.nodup_singleton name)
  have hcandle : FieldsRelated related
      (("close_time", first.text event.closeTime.rfc3339) :: amountNames.zip amounts ++
        [("trade_count", first.integer event.candle.tradeCount)])
      (("close_time", second.text event.closeTime.rfc3339) :: amountNames.zip others ++
        [("trade_count", second.integer event.candle.tradeCount)]) := by
    have hamounts := fieldsRelated_zip (by decide : ∀ name ∈ amountNames, IsPlainText name) h
    have hcount : FieldsRelated related [("trade_count", first.integer event.candle.tradeCount)]
        [("trade_count", second.integer event.candle.tradeCount)] :=
      .cons (by decide) (hmade.integer _) .nil
    exact .cons (by decide) (htime event.closeTime) (List.rel_append hamounts hcount)
  have hnames : ((("close_time", second.text event.closeTime.rfc3339) ::
      amountNames.zip others ++
        [("trade_count", second.integer event.candle.tradeCount)]).map Prod.fst).Nodup := by
    rw [List.map_append, List.map_cons, List.map_fst_zip hlength.ge]
    change ("close_time" :: amountNames ++ ["trade_count"]).Nodup
    decide
  have hkind := hone (by decide : IsPlainText "Candle")
    (hmade.object hcandle (List.cons_ne_nil _ _) hnames)
  refine hone (by decide) (hone (by decide) (hmade.object
    (.cons (by decide) (htime event.exchangeTime) (.cons (by decide) (htime received)
      (.cons (by decide) (hmade.text hsource) (.cons (by decide) (hmade.integer event.instrument)
        (.cons (by decide) hkind .nil)))))
    (List.cons_ne_nil _ _) ?_))
  simp only [List.map_cons, List.map_nil]
  decide

/-- An event is that of a candle on a market. -/
structure Describes (category : Category) (instrument : Int) (candle : Candle)
    (event : MarketEvent) : Prop where
  candle_eq : event.candle = candle
  source_eq : event.source = category.eventSource
  instrument_eq : event.instrument = instrument
  exchangeTime_eq : Instant.ofMillis candle.openTime = .ok event.exchangeTime
  closeTime_eq : Instant.ofMillis candle.closeTime = .ok event.closeTime

/-- A line tells a candle as an event of a market that was received at a time. It is a valid
document exactly if all amounts of the event fit a double, and then it is read as the envelope of
the event, in which the times are told by their texts and each number is the nearest double. -/
structure Tells (category : Category) (instrument : Int) (received : UtcTime) (candle : Candle)
    (event : MarketEvent) (line : String) : Prop extends
    Describes category instrument candle event where
  isToldBy : event.exchangeTime.IsToldBy event.exchangeTime.rfc3339 ∧
    event.closeTime.IsToldBy event.closeTime.rfc3339
  isDocument_iff : Json.IsDocument line ↔ ∀ d ∈ event.amounts, d.FitsDouble
  decodes : Json.IsDocument line → ∃ numbers,
    List.Forall₂ Decimal.Nearest event.amounts numbers ∧
      Json.read? line = some (event.envelope received.instant numbers)

/-- The claims about the amounts are all that an event claims. -/
theorem layout_claims_iff {claims : List Prop} (hlength : claims.length = amountNames.length) :
    event.layout received Making.claims claims ↔ ∀ claim ∈ claims, claim := by
  have hzip : (∀ field ∈ amountNames.zip claims, field.2) ↔ ∀ claim ∈ claims, claim := by
    conv_rhs => rw [← List.map_snd_zip hlength.le, List.forall_mem_map]
  rw [← hzip]
  simp only [layout, Making.claims, List.cons_append, List.forall_mem_cons, List.forall_mem_append,
    List.not_mem_nil, false_implies, implies_true, true_and, and_true]

/-- The text of an event with the nearest doubles for its amounts is one line. It is a valid
document exactly if the amounts fit, and then it is read as the envelope. -/
theorem textWith_of_nearest {numbers : List Binary64} (hsource : IsPlainText event.source)
    (h : List.Forall₂ Decimal.Nearest event.amounts numbers) {line : String}
    (hline : line = event.textWith received (numbers.map Binary64.jsonText)) :
    '\n' ∉ line.toList ∧ (Json.IsDocument line ↔ ∀ d ∈ event.amounts, d.FitsDouble) ∧
      (Json.IsDocument line → Json.read? line = some (event.envelope received numbers)) := by
  have hlength : numbers.length = amountNames.length := h.length_eq.symm
  have hmade {related : String → Value → Prop} (hrespects : Making.texts.Respects .values related)
      (hnumbers : ∀ x ∈ numbers, related x.jsonText (.real x)) :
      related line (event.envelope received numbers) := by
    rw [hline, ← layout_values, ← layout_texts]
    refine layout_related event received hrespects hsource (by rw [List.length_map, hlength]) ?_
    rw [List.forall₂_map_left_iff, List.forall₂_map_right_iff]
    exact List.forall₂_same.mpr hnumbers
  have hbreak := hmade (Making.respects_break_not_mem .values)
    (forall_mem_of_forall₂ h fun d x hx => hx.break_not_mem)
  have hcloses : ClosesIf (∀ d ∈ event.amounts, d.FitsDouble) line.toList := by
    have hclaims : (event.amounts.map Decimal.FitsDouble).length = amountNames.length := rfl
    have hrelated := layout_related event received Making.respects_closesIf hsource hclaims
      (List.forall₂_map_left_iff.mpr (List.forall₂_map_right_iff.mpr
        (h.flip.imp fun x d hx => hx.closesIf)))
    rwa [layout_claims_iff event received hclaims, List.forall_mem_map, layout_texts,
      ← hline] at hrelated
  have hfit (hall : ∀ d ∈ event.amounts, d.FitsDouble) :
      Json.IsDocument line ∧ ReadsAs line (event.envelope received numbers) := by
    have hnumerals : ∀ x ∈ numbers,
        Json.IsNumeral x.jsonText.toList ∧ ReadsAs x.jsonText (.real x) := by
      refine forall_mem_of_forall₂ ((List.forall₂_and_left _ _).mpr ⟨hall, h⟩) fun d x hx => ?_
      exact (hx.2.jsonText.resolve_right fun hlarge => hlarge.1 hx.1).2
    have hphrase := hmade (Making.respects_isPhrase .values)
      fun x hx => .numeral (hnumerals x hx).1
    have hreads := hmade Making.respects_readsAs fun x hx => (hnumerals x hx).2
    exact ⟨Json.isPhrase_spaced hphrase, hreads⟩
  refine ⟨hbreak, ⟨hcloses.holds, fun hall => (hfit hall).1⟩, fun hdocument => ?_⟩
  exact (hfit (hcloses.holds hdocument)).2.read?_eq

theorem Describes.exists_nearest {category : Category} {instrument : Int} {candle : Candle}
    {event : MarketEvent} (h : Describes category instrument candle event)
    (hrow : candle.FromRow) : ∃ numbers,
      List.Forall₂ (fun d x => d.toBinary64? = some x ∧ d.Nearest x) event.amounts numbers := by
  apply exists_forall₂_iff.mpr
  intro d hd
  have htake : event.amounts = candle.amounts.take amountNames.length := by
    rw [← h.candle_eq]
    rfl
  exact Decimal.exists_nearest (hrow.isFinite d (List.mem_of_mem_take (htake ▸ hd)))

section Lines

variable (category : Category) (instrument : Int) (received : UtcTime) {candle : Candle}
  (hrow : candle.FromRow)
  (hopen : 1000 * Instant.firstSecond ≤ candle.openTime ∧
    candle.openTime < 1000 * Instant.endSecond)
  (hclose : 1000 * Instant.firstSecond ≤ candle.closeTime ∧
    candle.closeTime < 1000 * Instant.endSecond)

include hopen hclose

/-- The line of a candle whose times lie in the calendar is the text of its event. -/
theorem exists_describes : ∃ event, Describes category instrument candle event ∧
    event.receivedTime = received.wall ∧
    lineAt category instrument received candle = event.text := by
  obtain ⟨opens, hopens⟩ := Instant.ofMillis_isOk hopen.1 hopen.2
  obtain ⟨closes, hcloses⟩ := Instant.ofMillis_isOk hclose.1 hclose.2
  refine ⟨⟨opens, received.wall, category.eventSource, instrument, closes, candle⟩,
    ⟨rfl, rfl, rfl, hopens, hcloses⟩, rfl, ?_⟩
  rw [lineAt_eq, hopens, hcloses]
  rfl

include hrow

/-- If it is read from a row, and the instrument is short, the line of the candle tells it. -/
theorem exists_tells (hshort : instrument.natAbs < Number.integerBound) :
    ∃ text, lineAt category instrument received candle = .ok text ∧ '\n' ∉ text.toList ∧
      ∃ event, Tells category instrument received candle event text := by
  obtain ⟨event, hevent, hreceived, hline⟩ :=
    exists_describes category instrument received hopen hclose
  obtain ⟨numbers, hnumbers⟩ := hevent.exists_nearest hrow
  have hnearest := hnumbers.imp fun d x hx => hx.2
  have hsource : IsPlainText event.source := by
    rw [hevent.source_eq]
    exact isPlainText_eventSource category
  obtain ⟨hbreak, hdocument, hdecodes⟩ :=
    textWith_of_nearest event received.instant hsource hnearest rfl
  have hintegers : event.Short := by
    rw [← hevent.instrument_eq] at hshort
    refine ⟨hshort, ?_⟩
    rw [hevent.candle_eq, hrow.tradeCount]
    exact Number.lt_integerBound_of_lt_twoPow (by decide)
  have htoUtc : event.receivedTime.toUtc = .ok received.instant := by
    rw [hreceived, received.toUtc_eq]
  have htext := text_of_short htoUtc (hnumbers.imp fun d x hx => hx.1) hintegers
  exact ⟨_, hline.trans htext, hbreak, event, hevent,
    ⟨Instant.isToldBy_rfc3339 hopen.1 hopen.2 hevent.exchangeTime_eq,
      Instant.isToldBy_rfc3339 hclose.1 hclose.2 hevent.closeTime_eq⟩, hdocument,
    fun hvalid => ⟨numbers, hnearest, hdecodes hvalid⟩⟩

/-- If the instrument has too many digits, there is no line. -/
theorem lineAt_of_long (hlong : ¬ instrument.natAbs < Number.integerBound) :
    lineAt category instrument received candle = .error .tooManyDigits := by
  obtain ⟨event, hevent, hreceived, hline⟩ :=
    exists_describes category instrument received hopen hclose
  obtain ⟨numbers, hnumbers⟩ := hevent.exists_nearest hrow
  have htoUtc : event.receivedTime.toUtc = .ok received.instant := by
    rw [hreceived, received.toUtc_eq]
  rw [hline]
  apply text_of_not_short htoUtc (hnumbers.imp fun d x hx => hx.1)
  intro hintegers
  rw [← hevent.instrument_eq] at hlong
  exact hlong hintegers.instrument

end Lines

section Series

variable {category : Category} {instrument : Int} {candles : List Candle}
  {result : Except Fault Unit} {output : Output}
  (h : PutOut category instrument candles result output)

include h

/-- If each of its candles has a line that tells it, a series is put out line by line. -/
theorem PutOut.tells (htells : ∀ (time : UtcTime), ∀ candle ∈ candles,
      ∃ text, lineAt category instrument time candle = .ok text ∧ '\n' ∉ text.toList ∧
        ∃ event, Tells category instrument time candle event text) :
    result = .ok () ∧ output.received.length = candles.length ∧
      ∃ lines, output.text = column lines ∧
        Text.lines (column lines).toList = lines.map String.toList ++ [[]] ∧
        List.Forall₂
          (fun told line => ∃ event, Tells category instrument told.1 told.2 event line)
          (output.received.zip candles) lines := by
  cases h with
  | @whole received lines hlength hlines =>
      have htold : List.Forall₂ (fun told line => '\n' ∉ line.toList ∧
          ∃ event, Tells category instrument told.1 told.2 event line)
          (received.zip candles) lines := by
        have hmem : ∀ told ∈ received.zip candles, told.2 ∈ candles :=
          fun told htold => (List.of_mem_zip htold).2
        refine ((List.forall₂_and_left _ _).mpr ⟨hmem, hlines⟩).imp fun told line htold => ?_
        obtain ⟨hcandle, hline⟩ := htold
        obtain ⟨text, htext, hboth⟩ := htells told.1 told.2 hcandle
        obtain rfl := Except.ok.inj (hline.symm.trans htext)
        exact hboth
      refine ⟨rfl, hlength, lines, rfl, Text.lines_column ?_, htold.imp fun _ _ h => h.2⟩
      exact forall_mem_of_forall₂ htold fun _ _ h => h.1
  | @brokenOff done rest candle time _ _ hsplit _ hcandle _ =>
      obtain ⟨text, htext, -⟩ :=
        htells time candle (hsplit ▸ List.mem_append_right done List.mem_cons_self)
      rw [hcandle] at htext
      cases htext

/-- If none of its candles has a line, a series with candles comes to nothing. -/
theorem PutOut.fails (hsome : candles ≠ []) {fault : Fault} (hfails : ∀ (time : UtcTime),
      ∀ candle ∈ candles, lineAt category instrument time candle = .error fault) :
    result = .error fault ∧ output.text = "" := by
  cases h with
  | @whole received lines hlength hlines =>
      obtain ⟨candle, hcandle⟩ := List.exists_mem_of_ne_nil candles hsome
      rw [← List.map_snd_zip (Nat.le_of_eq hlength.symm)] at hcandle
      obtain ⟨told, htold, rfl⟩ := List.mem_map.mp hcandle
      have hline := exists_lines_iff.mp ⟨lines, hlines⟩ told htold
      exact absurd hline (Succeeds.not_of_error (hfails _ _ (List.of_mem_zip htold).2))
  | @brokenOff done rest candle time other _ hsplit hdone hcandle hempty =>
      have hfirst : done = [] := by
        cases done with
        | nil => rfl
        | cons earlier later =>
            obtain ⟨time, hline⟩ := hdone earlier List.mem_cons_self
            have hfirst := hfails time earlier (hsplit ▸ List.mem_cons_self)
            exact absurd hline (Succeeds.not_of_error hfirst)
      rw [hfails time candle (hsplit ▸ List.mem_append_right done List.mem_cons_self)] at hcandle
      cases hcandle
      exact ⟨rfl, hempty.mpr hfirst⟩

end Series

/-- A series that is read from rows and lies in the calendar can be written as events on any market,
unless the instrument of an event has too many digits; then nothing is written. There is a line for
each candle, in their order, which tells the candle with the time that the clock showed for it. -/
theorem write_tells {σ : Type} (clock : StateM σ UtcTime) (print : String → StateM σ Unit)
    (state : σ) (category : Category) (instrument : Int) {candles : List Candle}
    (hread : ∀ candle ∈ candles, ∃ interval given, Row.read interval given = .ok candle)
    (hcalendar : ∀ candle ∈ candles, ∀ ms ∈ [candle.openTime, candle.closeTime],
      1000 * Instant.firstSecond ≤ ms ∧ ms < 1000 * Instant.endSecond) :
    let written := (write (notingTime clock) (noting print) category instrument candles).run
      (state, { })
    (candles = [] ∨ instrument.natAbs < Number.integerBound →
      written.1 = .ok () ∧ written.2.2.received.length = candles.length ∧
      ∃ lines, written.2.2.text = column lines ∧
        Text.lines (column lines).toList = lines.map String.toList ++ [[]] ∧
        List.Forall₂
          (fun told line => ∃ event, Tells category instrument told.1 told.2 event line)
          (written.2.2.received.zip candles) lines) ∧
    (¬ (candles = [] ∨ instrument.natAbs < Number.integerBound) →
      written.1 = .error .tooManyDigits ∧ written.2.2.text = "") := by
  intro written
  have hrow : ∀ candle ∈ candles, candle.FromRow := by
    intro candle hmem
    obtain ⟨interval, given, hgiven⟩ := hread candle hmem
    exact Row.fromRow_of_read hgiven
  have hopen : ∀ candle ∈ candles, 1000 * Instant.firstSecond ≤ candle.openTime ∧
      candle.openTime < 1000 * Instant.endSecond :=
    fun candle hmem => hcalendar candle hmem _ (by simp)
  have hclose : ∀ candle ∈ candles, 1000 * Instant.firstSecond ≤ candle.closeTime ∧
      candle.closeTime < 1000 * Instant.endSecond :=
    fun candle hmem => hcalendar candle hmem _ (by simp)
  obtain ⟨result, after, output, hrun, hput⟩ :=
    write_puts category instrument clock print candles state { }
  have hwritten : written = (result, after, output) := by
    rw [← output.nothing_append]
    exact hrun
  rw [hwritten]
  constructor
  · intro hpossible
    refine hput.tells fun time candle hmem => ?_
    exact exists_tells category instrument time (hrow candle hmem) (hopen candle hmem)
      (hclose candle hmem) (hpossible.resolve_left (List.ne_nil_of_mem hmem))
  · intro himpossible
    obtain ⟨hsome, hlong⟩ := not_or.mp himpossible
    refine hput.fails hsome fun time candle hmem => ?_
    exact lineAt_of_long category instrument time (hrow candle hmem) (hopen candle hmem)
      (hclose candle hmem) hlong

/-- Two candles of a market before 1970, received at different times. The first has a negative zero,
a number far below the least double and one with many digits, the second an amount that no finite
double is near. -/
theorem write_tells_unusual :
    let early : UtcTime := ⟨.midnight ⟨2024, 6, 1⟩, ⟨1717200000000000⟩, by decide +kernel⟩
    let late : UtcTime := ⟨.midnight ⟨2024, 6, 2⟩, ⟨1717286400000000⟩, by decide +kernel⟩
    let clock : StateM Nat UtcTime := fun reads => (if reads = 0 then early else late, reads + 1)
    let rows : List Value := [
      .list [.text "-500", .text "-0.00", .text "1e-400", .text "0.1", .text "1E+308",
        .text "123456789012345678901234567890.5", .text "1"],
      .list [.text "59500", .text "1E+400", .text "1", .text "1", .text "1", .text "1", .text "1"]]
    let one : Decimal := .finite false 1 0
    let candles : List Candle := [
      { openTime := -500, closeTime := 59500, openPrice := .finite true 0 (-2),
        highPrice := .finite false 1 (-400), lowPrice := .finite false 1 (-1),
        closePrice := .finite false 1 308,
        volume := .finite false 1234567890123456789012345678905 (-1), turnover := one },
      { openTime := 59500, closeTime := 119500, openPrice := .finite false 1 400, highPrice := one,
        lowPrice := one, closePrice := one, volume := one, turnover := one }]
    let written := (write (notingTime clock) (noting fun _ => pure ()) .spot 3 candles).run (0, { })
    Row.readAll .minutes1 rows = .ok candles ∧ written.1 = .ok () ∧
      ∃ firstTime secondTime first second firstEvent secondEvent,
        written.2.2.received = [firstTime, secondTime] ∧
        written.2.2.text = column [first, second] ∧
        Tells .spot 3 firstTime candles[0] firstEvent first ∧ Json.IsDocument first ∧
        Tells .spot 3 secondTime candles[1] secondEvent second ∧ ¬ Json.IsDocument second := by
  intro early late clock rows one candles
  have hread : Row.readAll .minutes1 rows = .ok candles := rfl
  have hcalendar : ∀ candle ∈ candles, ∀ ms ∈ [candle.openTime, candle.closeTime],
      1000 * Instant.firstSecond ≤ ms ∧ ms < 1000 * Instant.endSecond := by decide
  obtain ⟨htold, -⟩ := write_tells clock (fun _ => pure ()) 0 .spot 3
    (fun candle hmem =>
      have ⟨row, _, hrow⟩ := Row.exists_read_of_mem hread hmem
      ⟨_, row, hrow⟩) hcalendar
  obtain ⟨hok, hlength, lines, htext, -, hlines⟩ := htold (Or.inr (by decide +kernel))
  obtain ⟨firstTime, secondTime, htimes⟩ := List.length_eq_two.mp hlength
  rw [htimes] at hlines
  change List.Forall₂ _ [(firstTime, candles[0]), (secondTime, candles[1])] lines at hlines
  obtain _ | ⟨⟨firstEvent, hfirst⟩, _ | ⟨⟨secondEvent, hsecond⟩, _ | _⟩⟩ := hlines
  have hfirstAmounts : firstEvent.amounts = candles[0].amounts.take amountNames.length := by
    rw [amounts, hfirst.candle_eq]
    rfl
  have hsecondAmounts : secondEvent.amounts = candles[1].amounts.take amountNames.length := by
    rw [amounts, hsecond.candle_eq]
    rfl
  refine ⟨hread, hok, firstTime, secondTime, _, _, firstEvent, secondEvent, htimes, htext, hfirst,
    hfirst.isDocument_iff.mpr ?_, hsecond, fun hvalid => ?_⟩
  · rw [hfirstAmounts]
    decide +kernel
  · have hlarge : ¬ (Decimal.finite false 1 400).FitsDouble := by decide +kernel
    have hfits := hsecond.isDocument_iff.mp hvalid
    rw [hsecondAmounts] at hfits
    exact hlarge (hfits _ List.mem_cons_self)

end Report.MarketEvent

end CandleHistory
