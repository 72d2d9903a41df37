import CandleHistory.Proofs.AcceptedOptions
import CandleHistory.Proofs.EventDocuments
import CandleHistory.Proofs.Printing

/-!
The text of a series. A writer that reaches the end has written a line for every item, one below the
other; one that fails has written the lines of the items before the first that has none. A table
reads no clock; of events, each has a time of its own.
-/

namespace CandleHistory

open Calendar (Instant UtcTime)
open CommandLine (Options)
open Number (Decimal)

theorem Fault.unlessTooLong_succeeds_iff (text? : Option String) :
    Succeeds (Fault.unlessTooLong text?) ↔ text? ≠ none := by
  cases text? with
  | none => exact ⟨nofun, fun h => absurd rfl h⟩
  | some text => exact ⟨fun _ => nofun, fun _ => Succeeds.ok text⟩

theorem Fault.eq_some_of_unlessTooLong {text? : Option String} {text : String}
    (h : Fault.unlessTooLong text? = .ok text) : text? = some text := by
  cases text? with
  | none => cases h
  | some written => exact congrArg some (Except.ok.inj h)

namespace Report

/-- Lines one below the other. -/
def column (lines : List String) : String := String.join (lines.map (· ++ "\n"))

theorem column_nil : column [] = "" := String.join_nil

theorem column_cons (line : String) (lines : List String) :
    column (line :: lines) = line ++ "\n" ++ column lines := String.join_cons

/-- A list of lines that belong to items, one to each. -/
abbrev Lines {α : Type} (line : α → Except Fault String) (items : List α)
    (lines : List String) : Prop :=
  List.Forall₂ (fun item written => line item = .ok written) items lines

/-- All items have lines if and only if each of them has one. -/
theorem exists_lines_iff {α : Type} {line : α → Except Fault String} {items : List α} :
    (∃ lines, Lines line items lines) ↔ ∀ item ∈ items, Succeeds (line item) := exists_forall₂_iff

namespace Wrote

variable {α : Type} {line : α → List UtcTime → Except Fault String → Prop} {items : List α}
  {output : Output}

/-- A line was written for every item if no line failed. Lines for which no time is read are those
of the items. -/
theorem exists_lines {pureLine : α → Except Fault String} (h : Wrote line items (.ok ()) output)
    (hline : ∀ item received text, line item received (.ok text) →
      received = [] ∧ pureLine item = .ok text) :
    ∃ lines, Lines pureLine items lines ∧ output = { text := column lines } := by
  generalize hresult : (Except.ok () : Except Fault Unit) = result at h
  induction h with
  | done => exact ⟨[], .nil, by rw [column_nil]⟩
  | failed => cases hresult
  | line hitem _ ih =>
      obtain ⟨lines, hlines, rfl⟩ := ih hresult
      obtain ⟨rfl, htext⟩ := hline _ _ _ hitem
      refine ⟨_ :: lines, .cons htext hlines, ?_⟩
      rw [column_cons]
      rfl

/-- If one time is read for every line, the lines are those of the items with these times. -/
theorem exists_timed_lines {timedLine : UtcTime → α → Except Fault String}
    (h : Wrote line items (.ok ()) output)
    (hline : ∀ item received text, line item received (.ok text) →
      ∃ time, received = [time] ∧ timedLine time item = .ok text) :
    output.received.length = items.length ∧
      ∃ lines, Lines (fun told => timedLine told.1 told.2) (output.received.zip items) lines ∧
        output.text = column lines := by
  generalize hresult : (Except.ok () : Except Fault Unit) = result at h
  induction h with
  | done => exact ⟨rfl, [], .nil, column_nil.symm⟩
  | failed => cases hresult
  | line hitem _ ih =>
      obtain ⟨hlength, lines, hlines, htext⟩ := ih hresult
      obtain ⟨time, rfl, hfirst⟩ := hline _ _ _ hitem
      refine ⟨congrArg Nat.succ hlength, _ :: lines, .cons hfirst hlines, ?_⟩
      rw [column_cons, Output.append_text, htext]

/-- If a line failed, it is that of the first item without one, and the lines before it stay. -/
theorem exists_failed {fault : Fault} (h : Wrote line items (.error fault) output) :
    ∃ done item rest received, items = done ++ item :: rest ∧
      (∀ earlier ∈ done, ∃ received text, line earlier received (.ok text)) ∧
      line item received (.error fault) ∧ (output.text = "" ↔ done = []) := by
  generalize hresult : (Except.error fault : Except Fault Unit) = result at h
  induction h with
  | done => cases hresult
  | @failed item items received _ hitem =>
      cases hresult
      exact ⟨[], item, items, received, rfl, List.forall_mem_nil _, hitem, iff_of_true rfl rfl⟩
  | @line first _ firstReceived text _ _ hfirst _ ih =>
      obtain ⟨done, item, rest, received, rfl, hdone, hitem, -⟩ := ih hresult
      refine ⟨first :: done, item, rest, received, rfl,
        List.forall_mem_cons.mpr ⟨⟨_, _, hfirst⟩, hdone⟩, hitem, iff_of_false ?_ nofun⟩
      intro hempty
      rw [Output.append_text, String.append_eq_empty_iff, String.append_eq_empty_iff] at hempty
      exact absurd hempty.1.2 (by decide)

end Wrote

namespace Table

/-- A whole table. -/
def fullText (count : Nat) (rows : List String) : String :=
  banner count ++ (line titles ++ "\n") ++ (rule ++ "\n") ++ column rows ++ foot count

theorem banner_ne (count : Nat) : banner count ≠ "" := by
  intro hempty
  unfold banner at hempty
  change "\nReceived " ++ toString count ++ " kline records:\n\n" = "" at hempty
  rw [String.append_eq_empty_iff] at hempty
  exact absurd hempty.2 (by decide)

variable {σ : Type} (print : String → StateM σ Unit)

/-- What writing a table comes to: it is put out whole if every candle has a row. Otherwise
something is put out, and the rows end before the first candle that has none. No time is read for a
table. -/
inductive PutOut (candles : List Candle) : Except Fault Unit → Output → Prop
  | whole {rows : List String} (hrows : Lines row candles rows) :
      PutOut candles (.ok ()) { text := fullText candles.length rows }
  | brokenOff {done rest : List Candle} {candle : Candle} {fault : Fault} {output : Output}
      (hsplit : candles = done ++ candle :: rest) (hdone : ∀ earlier ∈ done, Succeeds (row earlier))
      (hcandle : row candle = .error fault) (hsome : output.text ≠ "") :
      PutOut candles (.error fault) output

theorem write_puts (candles : List Candle) :
    Puts (write (noting print) candles) (PutOut candles) := by
  have hrows : Puts (writeLines (noting print) (fun candle => liftM (row candle)) candles)
      (Wrote (fun candle received result => received = [] ∧ row candle = result) candles) :=
    writeLines_puts print (fun candle => Puts.lift (row candle) ⟨rfl, rfl, rfl⟩) candles
  unfold write
  refine Puts.print_bind print _ (Puts.print_bind print _ (Puts.print_bind print _ ?_))
  refine hrows.bind ?_ ?_
  · intro fault output hwrote
    obtain ⟨done, candle, rest, received, hsplit, hdone, hcandle, -⟩ := hwrote.exists_failed
    refine .brokenOff hsplit (fun earlier hmem => ?_) hcandle.2 fun hempty => ?_
    · obtain ⟨-, text, -, htext⟩ := hdone earlier hmem
      exact ⟨text, htext⟩
    · exact banner_ne _ (String.append_eq_empty_iff.mp hempty).1
  · intro _ output hwrote
    obtain ⟨rows, hrows, rfl⟩ := hwrote.exists_lines fun _ _ _ h => h
    refine Puts.print print _ ?_
    have hparts : { text := fullText candles.length rows } =
        ({ text := banner candles.length } : Output) ++ ({ text := line titles ++ "\n" } ++
          ({ text := rule ++ "\n" } ++
            ({ text := column rows } ++ { text := foot candles.length }))) := by
      ext1 <;> simp [fullText, String.append_assoc]
    exact hparts ▸ PutOut.whole hrows

/-- A candle has a row if the time at which it opens exists and none of its numbers is too long. -/
theorem row_succeeds_iff (candle : Candle) :
    Succeeds (row candle) ↔ Succeeds (Instant.ofMillis candle.openTime) ∧
      ∀ d ∈ [candle.openPrice, candle.highPrice, candle.lowPrice, candle.closePrice,
        candle.volume, candle.turnover], d.fixedText? places ≠ none := by
  have hnumbers (start : String) : Succeeds (do
      let numbers ← [candle.openPrice, candle.highPrice, candle.lowPrice, candle.closePrice,
        candle.volume, candle.turnover].mapM number
      return line (start :: numbers)) ↔
        ∀ d ∈ [candle.openPrice, candle.highPrice, candle.lowPrice, candle.closePrice,
          candle.volume, candle.turnover], d.fixedText? places ≠ none := by
    simp only [← Fault.unlessTooLong_succeeds_iff]
    refine (Succeeds.bind_iff_first fun numbers => ?_).trans (Succeeds.mapM_iff _)
    exact Succeeds.ok _
  unfold row
  rw [Succeeds.bind_iff hnumbers, Succeeds.mapError_iff]
  unfold time Calendar.civilTextOfMillis
  rw [Succeeds.map_iff, Succeeds.map_iff]

end Table

namespace MarketEvent

theorem number_succeeds_iff (d : Decimal) : Succeeds (number d) ↔ d.toBinary64? ≠ none := by
  unfold number
  cases d.toBinary64? with
  | none => exact ⟨nofun, fun h => absurd rfl h⟩
  | some x => exact ⟨fun _ => nofun, fun _ => Succeeds.ok _⟩

theorem candleDocument_succeeds_iff (event : MarketEvent) :
    Succeeds event.candleDocument ↔ ∀ d ∈ event.amounts, d.toBinary64? ≠ none := by
  unfold candleDocument amounts
  simp only [List.forall_mem_cons, ← number_succeeds_iff]
  refine Succeeds.bind_iff fun _ => Succeeds.bind_iff fun _ => Succeeds.bind_iff fun _ =>
    Succeeds.bind_iff fun _ => Succeeds.bind_iff fun _ => ?_
  exact ⟨fun _ => List.forall_mem_nil _, fun _ => Succeeds.ok _⟩

theorem text_succeeds_iff {event : MarketEvent} {received : Instant}
    (hreceived : event.receivedTime.toUtc = .ok received) :
    Succeeds event.text ↔ (∀ d ∈ event.amounts, d.toBinary64? ≠ none) ∧ event.Short := by
  constructor
  · intro htext
    have hamounts : ∀ d ∈ event.amounts, d.toBinary64? ≠ none := by
      obtain ⟨text, htext⟩ := htext
      obtain ⟨document, hdocument, -⟩ := exists_of_bind_eq_ok htext
      obtain ⟨told, -, hrest⟩ := exists_of_bind_eq_ok hdocument
      obtain ⟨candle, hcandle, -⟩ := exists_of_bind_eq_ok hrest
      exact event.candleDocument_succeeds_iff.mp ⟨candle, hcandle⟩
    refine ⟨hamounts, ?_⟩
    obtain ⟨numbers, hnumbers⟩ := exists_numbers hamounts
    by_contra hlong
    exact Succeeds.not_of_error (text_of_not_short hreceived hnumbers hlong) htext
  · rintro ⟨hamounts, hshort⟩
    obtain ⟨numbers, hnumbers⟩ := exists_numbers hamounts
    exact ⟨_, text_of_short hreceived hnumbers hshort⟩

variable (category : Category) (instrument : Int)

/-- The line of a candle if the clock shows a given time. -/
def lineAt (received : UtcTime) (candle : Candle) : Except Fault String :=
  (line (m := Id) received.wall category instrument candle).run

/-- How the line of a candle may come out, and which time may be read for it: the clock is read
unless the open time cannot be converted. -/
inductive LineComesTo (candle : Candle) : List UtcTime → Except Fault String → Prop
  | read {received : UtcTime} {result : Except Fault String}
      (h : lineAt category instrument received candle = result) :
      LineComesTo candle [received] result
  | unread {reason : Calendar.TimeError} (h : Instant.ofMillis candle.openTime = .error reason) :
      LineComesTo candle [] (.error (.time reason))

theorem line_puts {σ : Type} (clock : StateM σ UtcTime) (candle : Candle) :
    Puts (line (UtcTime.wall <$> notingTime clock) category instrument candle)
      fun result output =>
        output.text = "" ∧ LineComesTo category instrument candle output.received result := by
  intro state before
  cases hopen : Instant.ofMillis candle.openTime with
  | error reason =>
      refine ⟨.error (.time reason), state, { }, ?_, rfl, .unread hopen⟩
      unfold line ofCandle
      rw [hopen, Output.append_nothing]
      rfl
  | ok exchangeTime =>
      refine ⟨_, (clock state).2, { received := [(clock state).1] }, ?_, rfl, .read rfl⟩
      unfold lineAt line ofCandle
      rw [hopen]
      cases Instant.ofMillis candle.closeTime <;> rfl

variable (received : UtcTime)

/-- The line of a candle is the text of its event if its times can be converted. -/
theorem lineAt_eq (candle : Candle) :
    lineAt category instrument received candle = (do
      let exchangeTime ← (Instant.ofMillis candle.openTime).mapError Fault.time
      let closeTime ← (Instant.ofMillis candle.closeTime).mapError Fault.time
      text ⟨exchangeTime, received.wall, category.eventSource, instrument, closeTime, candle⟩) := by
  unfold lineAt line ofCandle
  cases Instant.ofMillis candle.openTime with
  | error reason => rfl
  | ok exchangeTime => cases Instant.ofMillis candle.closeTime <;> rfl

/-- A candle has a line if the times that concern it exist, none of its numbers is a signaling
datum, and the integers of its event are short. The time on the clock does not matter. -/
theorem lineAt_succeeds_iff (candle : Candle) :
    Succeeds (lineAt category instrument received candle) ↔
      Succeeds (Instant.ofMillis candle.openTime) ∧ Succeeds (Instant.ofMillis candle.closeTime) ∧
        (∀ d ∈ [candle.openPrice, candle.highPrice, candle.lowPrice, candle.closePrice,
          candle.volume], d.toBinary64? ≠ none) ∧
        instrument.natAbs < Number.integerBound ∧
        candle.tradeCount.natAbs < Number.integerBound := by
  have hevent (exchangeTime closeTime : Instant) :
      Succeeds (text ⟨exchangeTime, received.wall, category.eventSource, instrument, closeTime,
        candle⟩) ↔
          (∀ d ∈ [candle.openPrice, candle.highPrice, candle.lowPrice, candle.closePrice,
            candle.volume], d.toBinary64? ≠ none) ∧
          instrument.natAbs < Number.integerBound ∧
          candle.tradeCount.natAbs < Number.integerBound := by
    rw [text_succeeds_iff received.toUtc_eq]
    exact and_congr_right fun _ => ⟨fun h => ⟨h.instrument, h.tradeCount⟩, fun h => ⟨h.1, h.2⟩⟩
  rw [lineAt_eq, Succeeds.bind_iff fun exchangeTime => Succeeds.bind_iff fun closeTime =>
    hevent exchangeTime closeTime, Succeeds.mapError_iff, Succeeds.mapError_iff]

variable {σ : Type} (clock : StateM σ UtcTime) (print : String → StateM σ Unit)

/-- What writing events comes to: they are put out whole if every candle has a line, and then one
time is read for each of them. Otherwise the lines end before the first candle that has none. -/
inductive PutOut (candles : List Candle) : Except Fault Unit → Output → Prop
  | whole {received : List UtcTime} {lines : List String}
      (hlength : received.length = candles.length)
      (hlines : Lines (fun told => lineAt category instrument told.1 told.2) (received.zip candles)
        lines) :
      PutOut candles (.ok ()) ⟨column lines, received⟩
  | brokenOff {done rest : List Candle} {candle : Candle} {time : UtcTime} {fault : Fault}
      {output : Output} (hsplit : candles = done ++ candle :: rest)
      (hdone : ∀ earlier ∈ done, ∃ time, Succeeds (lineAt category instrument time earlier))
      (hcandle : lineAt category instrument time candle = .error fault)
      (hempty : output.text = "" ↔ done = []) :
      PutOut candles (.error fault) output

theorem write_puts (candles : List Candle) :
    Puts (write (notingTime clock) (noting print) category instrument candles)
      (PutOut category instrument candles) := by
  have hwrite := writeLines_puts print (line_puts category instrument clock) candles
  refine hwrite.mono fun result output hwrote => ?_
  cases result with
  | ok done =>
      have htimed (candle : Candle) (received : List UtcTime) (text : String)
          (h : LineComesTo category instrument candle received (.ok text)) :
          ∃ time, received = [time] ∧ lineAt category instrument time candle = .ok text := by
        cases h with
        | read hline => exact ⟨_, rfl, hline⟩
      obtain ⟨hlength, lines, hlines, htext⟩ := hwrote.exists_timed_lines htimed
      obtain ⟨text, received⟩ := output
      obtain rfl : text = column lines := htext
      exact .whole hlength hlines
  | error fault =>
      obtain ⟨done, candle, rest, received, hsplit, hdone, hcandle, hempty⟩ := hwrote.exists_failed
      have hearlier : ∀ earlier ∈ done, ∃ time,
          Succeeds (lineAt category instrument time earlier) := by
        intro earlier hmem
        obtain ⟨received, text, htext⟩ := hdone earlier hmem
        cases htext with
        | read hline => exact ⟨_, text, hline⟩
      cases hcandle with
      | read hline => exact .brokenOff hsplit hearlier hline hempty
      | @unread reason hopen =>
          have hline : lineAt category instrument default candle = .error (.time reason) := by
            rw [lineAt_eq, hopen]
            rfl
          exact .brokenOff hsplit hearlier hline hempty

end MarketEvent

end Report

namespace Program

/-- The line of a candle in the form that the options ask for, if the clock shows a given time. -/
def candleLine (options : Options) (received : UtcTime) : Candle → Except Fault String :=
  match options.outputFormat, options.instrumentIndex with
  | .value .barter, some (.value instrument) =>
    Report.MarketEvent.lineAt options.category instrument received
  | _, _ => Report.Table.row

/-- A candle that can be written in the form that the options ask for, whatever the clock shows. -/
def Writable (options : Options) (candle : Candle) : Prop :=
  ∀ received : UtcTime, Succeeds (candleLine options received candle)

/-- The outputs for a whole series: a table that has a row for each candle, or a line with an event
for each candle, received at the time that the clock showed for it. -/
inductive CompleteOutput (options : Options) (candles : List Candle) : Report.Output → Prop
  | table {rows : List String} :
      writesEvents options = false → Report.Lines Report.Table.row candles rows →
      CompleteOutput options candles { text := Report.Table.fullText candles.length rows }
  | events {instrument : Int} {received : List UtcTime} {lines : List String} :
      writesEvents options = true → options.instrumentIndex = some (.value instrument) →
      received.length = candles.length →
      Report.Lines (fun told => Report.MarketEvent.lineAt options.category instrument told.1 told.2)
        (received.zip candles) lines →
      CompleteOutput options candles ⟨Report.column lines, received⟩

/-- What the writing of a series comes to: a complete output, or one that is broken off at a candle
that cannot be written. Then nothing is put out if events were to be written and this was the first
candle, and only then. -/
inductive Rendered (options : Options) (candles : List Candle) :
    Except Fault Unit → Report.Output → Prop
  | complete {output : Report.Output} :
      CompleteOutput options candles output → (∀ candle ∈ candles, Writable options candle) →
      Rendered options candles (.ok ()) output
  | brokenOff {done rest : List Candle} {candle : Candle} {received : UtcTime} {fault : Fault}
      {output : Report.Output} :
      candles = done ++ candle :: rest → (∀ earlier ∈ done, Writable options earlier) →
      candleLine options received candle = .error fault →
      (output.text = "" ↔ writesEvents options = true ∧ done = []) →
      Rendered options candles (.error fault) output

variable {options : Options}

theorem candleLine_of_table (h : writesEvents options = false) (received : UtcTime) :
    candleLine options received = Report.Table.row := by
  have hform : options.outputFormat ≠ .value .barter := of_decide_eq_false h
  unfold candleLine
  split
  case h_1 instrument hevents hindex => exact absurd hevents hform
  case h_2 => rfl

theorem candleLine_of_events {instrument : Int} (h : writesEvents options = true)
    (hindex : options.instrumentIndex = some (.value instrument)) (received : UtcTime) :
    candleLine options received =
      Report.MarketEvent.lineAt options.category instrument received := by
  unfold candleLine
  rw [show options.outputFormat = .value .barter from of_decide_eq_true h, hindex]

variable {σ : Type} (world : World (StateM σ)) {candles : List Candle}

theorem render_of_table (h : writesEvents options = false) :
    render world.withOutput options candles =
      Report.Table.write (Report.noting world.print) candles := by
  have hform : options.outputFormat ≠ .value .barter := of_decide_eq_false h
  unfold render
  split
  case h_1 instrument hevents hindex => exact absurd hevents hform
  case h_2 => rfl

theorem render_of_events {instrument : Int} (h : writesEvents options = true)
    (hindex : options.instrumentIndex = some (.value instrument)) :
    render world.withOutput options candles =
      Report.MarketEvent.write (Report.notingTime world.wallTime) (Report.noting world.print)
        options.category instrument candles := by
  unfold render
  rw [show options.outputFormat = .value .barter from of_decide_eq_true h, hindex]
  rfl

theorem render_puts_of_table (h : writesEvents options = false) :
    Report.Puts (render world.withOutput options candles) (Rendered options candles) := by
  have hline := candleLine_of_table h
  rw [render_of_table world h]
  refine (Report.Table.write_puts world.print candles).mono fun result output hput => ?_
  cases hput with
  | whole hrows =>
      refine .complete (.table h hrows) fun candle hmem received => ?_
      rw [hline]
      exact Report.exists_lines_iff.mp ⟨_, hrows⟩ candle hmem
  | @brokenOff done rest candle fault output hsplit hdone hcandle hsome =>
      have hfails : candleLine options default candle = .error fault := by
        rw [hline]
        exact hcandle
      refine .brokenOff hsplit (fun earlier hmem received => ?_) hfails ?_
      · rw [hline]
        exact hdone earlier hmem
      · rw [h]
        exact iff_of_false hsome nofun

theorem render_puts_of_events {instrument : Int} (h : writesEvents options = true)
    (hindex : options.instrumentIndex = some (.value instrument)) :
    Report.Puts (render world.withOutput options candles) (Rendered options candles) := by
  -- whether a candle can be written does not depend on the clock
  have hwritable {time : UtcTime} {candle : Candle}
      (hsome : Succeeds (Report.MarketEvent.lineAt options.category instrument time candle)) :
      Writable options candle := by
    intro received
    rw [candleLine_of_events h hindex, Report.MarketEvent.lineAt_succeeds_iff]
    exact (Report.MarketEvent.lineAt_succeeds_iff ..).mp hsome
  rw [render_of_events world h hindex]
  refine (Report.MarketEvent.write_puts _ _ _ world.print candles).mono fun result output hput => ?_
  cases hput with
  | whole hlength hlines =>
      refine .complete (.events h hindex hlength hlines) fun candle hmem => ?_
      rw [← List.map_snd_zip (Nat.le_of_eq hlength.symm)] at hmem
      obtain ⟨told, htold, rfl⟩ := List.mem_map.mp hmem
      exact hwritable (Report.exists_lines_iff.mp ⟨_, hlines⟩ told htold)
  | @brokenOff done rest candle received fault _ hsplit hdone hcandle hempty =>
      have hfails : candleLine options received candle = .error fault := by
        rw [candleLine_of_events h hindex]
        exact hcandle
      refine .brokenOff hsplit (fun earlier hmem => ?_) hfails ?_
      · obtain ⟨time, htime⟩ := hdone earlier hmem
        exact hwritable htime
      · rw [hempty, h]
        exact (and_iff_right rfl).symm

/-- Writing a series comes to a complete output, or is broken off at a candle that cannot be
written. -/
theorem render_puts (hoptions : options.Accepted) (candles : List Candle) :
    Report.Puts (render world.withOutput options candles) (Rendered options candles) := by
  cases hform : writesEvents options with
  | false => exact render_puts_of_table world hform
  | true =>
      obtain ⟨instrument, hindex, -⟩ := hoptions.instrument (of_decide_eq_true hform)
      exact render_puts_of_events world hform hindex

end Program

end CandleHistory
