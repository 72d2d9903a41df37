import CandleHistory.Proofs.FixedNumerals
import CandleHistory.Proofs.LinesAndWords
import CandleHistory.Proofs.PrintedTimes
import CandleHistory.Proofs.Rendering
import CandleHistory.Proofs.Served

/-!
Tables read back. A reader takes a table apart into its banner, its titles, its rule, its rows and
its trailer, and each row into a time and six numbers. It finds in a written table what was written:
one row for each candle, in their order, and the number of candles above and below them. A table can
be written exactly if there is room for its numbers.
-/

namespace CandleHistory

namespace Report.Table

open Calendar (CivilTime Instant)
open Number (Decimal FixedNumeral)
open Text (lines words IsWord)

/-- What a row shows: a time, and numbers. -/
structure ShownRow where
  time : CivilTime
  numbers : List FixedNumeral
  deriving DecidableEq, Repr

/-- What a table shows: the number of candles it announces, its rows, and the number it ends with.
-/
structure Shown where
  announced : Nat
  rows : List ShownRow
  total : Nat
  deriving DecidableEq, Repr

/-- Reads a row: a date, a time of day, the name of the time zone, and six numbers. -/
def readRow? (cs : List Char) : Option ShownRow :=
  match words cs with
  | date :: clock :: zone :: numbers => do
    let (time, rest) ← CivilTime.read? ' ' (String.ofList (date ++ ' ' :: clock))
    let numbers ← numbers.mapM (FixedNumeral.read? places)
    if zone = "UTC".toList ∧ rest = "" ∧ numbers.length = 6 then some ⟨time, numbers⟩ else none
  | _ => none

/-- Reads a count from a line, given the words before and after it. -/
def readCount? (before after : List String) (cs : List Char) : Option Nat :=
  match (words cs).drop before.length with
  | count :: rest =>
    if (words cs).take before.length = before.map String.toList ∧ rest = after.map String.toList ∧
        count.all Char.isDigit then
      some (Nat.ofDigitChars 10 count 0)
    else none
  | [] => none

/-- Reads a table. An empty line is below the last row, and the trailer ends with a line break. -/
def read? (text : String) : Option Shown :=
  match lines text.toList with
  | [] :: banner :: [] :: header :: stroke :: below =>
    match below.dropWhile (! ·.isEmpty) with
    | [[], trailer, []] => do
      let announced ← readCount? ["Received"] ["kline", "records:"] banner
      let rows ← (below.takeWhile (! ·.isEmpty)).mapM readRow?
      let total ← readCount? ["Total", "records:"] [] trailer
      if words header = titles.map String.toList ∧ stroke = rule.toList then
        some ⟨announced, rows, total⟩
      else none
    | _ => none
  | _ => none

/-- A row shows a candle: it names the second in which the candle opens, and shows its amounts. -/
structure ShownRow.Shows (candle : Candle) (shown : ShownRow) : Prop where
  time : shown.time.Names (candle.openTime / 1000)
  numbers : List.Forall₂ (FixedNumeral.Shows places) candle.amounts shown.numbers

theorem words_cell (width : Nat) (s : String) : words (cell width s).toList = words s.toList := by
  rw [cell, String.toList_append, String.toList_ofList, Text.words_append_blanks]

theorem flatMap_words_cells {cells : List String} {ws : List Nat} (h : cells.length ≤ ws.length) :
    (List.zipWith cell ws cells).flatMap (fun s => words s.toList) =
      cells.flatMap fun s => words s.toList := by
  induction cells generalizing ws with
  | nil => rw [List.zipWith_nil_right, List.flatMap_nil]
  | cons s cells ih =>
      cases ws with
      | nil => cases h
      | cons width ws =>
          rw [List.zipWith_cons_cons, List.flatMap_cons, List.flatMap_cons, words_cell,
            ih (Nat.le_of_succ_le_succ h)]

/-- The words of a line are those of its cells, however wide these are. -/
theorem words_line {cells : List String} (h : cells.length ≤ widths.length) :
    words (line cells).toList = cells.flatMap fun s => words s.toList := by
  rw [line, String.toList_intercalate]
  change words ([' '].intercalate _) = _
  rw [Text.words_intercalate, List.flatMap_map]
  exact flatMap_words_cells h

/-- Whether a character may stand in a word: it is no blank and no line break. -/
def IsPlain (c : Char) : Prop := c ≠ ' ' ∧ c ≠ '\n'

instance : DecidablePred IsPlain := fun c => inferInstanceAs (Decidable (c ≠ ' ' ∧ c ≠ '\n'))

theorem isWord_of_isPlain {cs : List Char} (hne : cs ≠ []) (h : ∀ c ∈ cs, IsPlain c) :
    IsWord cs ∧ '\n' ∉ cs :=
  ⟨⟨hne, fun hblank => (h ' ' hblank).1 rfl⟩, fun hbreak => (h '\n' hbreak).2 rfl⟩

theorem isPlain_of_isDigit {c : Char} (h : c.isDigit = true) : IsPlain c := by
  constructor <;> rintro rfl <;> cases h

theorem isPlain_padded (width n : Nat) : ∀ c ∈ (Text.padded width n).toList, IsPlain c :=
  fun _ hc => isPlain_of_isDigit (Text.isDigit_of_mem_padded hc)

theorem isWord_dateChars (yearDigits : Nat) (time : CivilTime) :
    IsWord (time.dateChars yearDigits) ∧ '\n' ∉ time.dateChars yearDigits := by
  apply isWord_of_isPlain
  · simp [CivilTime.dateChars]
  · simp only [CivilTime.dateChars, List.forall_mem_append, List.forall_mem_cons]
    exact ⟨isPlain_padded _ _, by decide, isPlain_padded _ _, by decide, isPlain_padded _ _⟩

theorem isWord_clockChars (time : CivilTime) :
    IsWord time.clockChars ∧ '\n' ∉ time.clockChars := by
  apply isWord_of_isPlain
  · simp [CivilTime.clockChars]
  · simp only [CivilTime.clockChars, List.forall_mem_append, List.forall_mem_cons]
    exact ⟨isPlain_padded _ _, by decide, isPlain_padded _ _, by decide, isPlain_padded _ _⟩

theorem isWord_numeral (numeral : FixedNumeral) :
    IsWord (numeral.chars places) ∧ '\n' ∉ numeral.chars places := by
  apply isWord_of_isPlain numeral.chars_ne_nil
  intro c hc
  rcases numeral.mem_chars hc with rfl | rfl | hdigit
  · decide
  · decide
  · exact isPlain_of_isDigit hdigit

theorem forall₂_of_mapM {ε α β : Type} {f : α → Except ε β} {items : List α} {results : List β}
    (h : items.mapM f = .ok results) :
    List.Forall₂ (fun item result => f item = .ok result) items results := by
  induction items generalizing results with
  | nil =>
      cases h
      exact .nil
  | cons item items ih =>
      rw [List.mapM_cons] at h
      obtain ⟨result, hitem, h⟩ := exists_of_bind_eq_ok h
      obtain ⟨rest, hrest, h⟩ := exists_of_bind_eq_ok h
      cases h
      exact .cons hitem (ih hrest)

theorem exists_numeral {d : Decimal} {s : String} (hd : d.isFinite = true) (h : number d = .ok s) :
    ∃ numeral : FixedNumeral, s.toList = numeral.chars places ∧ numeral.Shows places d := by
  cases d with
  | finite negative coefficient exponent =>
      exact Decimal.fixedText_finite (Fault.eq_some_of_unlessTooLong h)
  | infinite negative => cases hd
  | nan negative signaling payload => cases hd

theorem exists_numerals {amounts : List Decimal} {texts : List String}
    (hfinite : ∀ d ∈ amounts, d.isFinite = true)
    (h : List.Forall₂ (fun d s => number d = .ok s) amounts texts) :
    ∃ numerals : List FixedNumeral, texts.map String.toList = numerals.map (·.chars places) ∧
      List.Forall₂ (FixedNumeral.Shows places) amounts numerals := by
  induction h with
  | nil => exact ⟨[], rfl, .nil⟩
  | cons hnumber _ ih =>
      obtain ⟨hd, hrest⟩ := List.forall_mem_cons.mp hfinite
      obtain ⟨numeral, htext, hshows⟩ := exists_numeral hd hnumber
      obtain ⟨numerals, htexts, hall⟩ := ih hrest
      refine ⟨numeral :: numerals, ?_, .cons hshows hall⟩
      rw [List.map_cons, List.map_cons, htext, htexts]

/-- A row of words for a time and six numbers is read as these. -/
theorem readRow?_of_words {cs : List Char} {time : CivilTime} {seconds : Int}
    (htime : time.Names seconds) {numerals : List FixedNumeral} (hsix : numerals.length = 6)
    (h : words cs = time.dateChars 1 :: time.clockChars :: "UTC".toList ::
      numerals.map (·.chars places)) : readRow? cs = some ⟨time, numerals⟩ := by
  have hread : CivilTime.read? ' ' (String.ofList (time.dateChars 1 ++ ' ' :: time.clockChars)) =
      some (time, "") := by
    apply CivilTime.read?_layout htime 1 ' '
    rw [String.toList_ofList, List.append_nil]
    rfl
  have hnumbers : (numerals.map (·.chars places)).mapM (FixedNumeral.read? places) =
      some numerals := by
    apply mapM_eq_some
    rw [List.forall₂_map_left_iff, List.forall₂_same]
    exact fun numeral _ => numeral.read?_chars (by decide)
  simp only [readRow?, h, hread, hnumbers, Option.bind_eq_bind, Option.bind_some]
  exact if_pos ⟨trivial, trivial, hsix⟩

/-- The words of the cells of numbers are the numbers. -/
theorem flatMap_words_numerals {texts : List String} {numerals : List FixedNumeral}
    (h : texts.map String.toList = numerals.map (·.chars places)) :
    (texts.flatMap fun s => words s.toList) = numerals.map (·.chars places) := by
  have hword (numeral : FixedNumeral) :
      words (numeral.chars places) = [numeral.chars places] := (isWord_numeral numeral).1.words_eq
  calc (texts.flatMap fun s => words s.toList)
      = (texts.map String.toList).flatMap words := (List.flatMap_map ..).symm
    _ = (numerals.map (·.chars places)).flatMap words := by rw [h]
    _ = numerals.flatMap fun numeral => [numeral.chars places] := by
        rw [List.flatMap_map]
        simp only [hword]
    _ = numerals.map (·.chars places) := List.map_eq_flatMap.symm

/-- The cell of a time holds a date, a time of day and the name of the time zone. -/
theorem toList_time {candle : Candle} {t : Instant} (h : Instant.ofMillis candle.openTime = .ok t)
    {cell : String} (hcell : time candle = .ok cell) :
    cell.toList = t.civil.dateChars 1 ++ ' ' :: (t.civil.clockChars ++ ' ' :: "UTC".toList) := by
  rw [time, Calendar.civilTextOfMillis, h] at hcell
  have htext : t.civilText ++ " UTC" = cell := Except.ok.inj hcell
  have hzone : " UTC".toList = ' ' :: "UTC".toList := rfl
  rw [← htext, String.toList_append, t.toList_civilText, CivilTime.layout, hzone, List.append_assoc,
    List.cons_append]

/-- The row of a candle is one line that is not empty. It is read as a row that shows the candle. -/
theorem exists_shown {candle : Candle} {text : String} (h : row candle = .ok text)
    (hfirst : 1000 * Instant.firstSecond ≤ candle.openTime)
    (hend : candle.openTime < 1000 * Instant.endSecond)
    (hfinite : ∀ d ∈ candle.amounts, d.isFinite = true) :
    '\n' ∉ text.toList ∧ text.toList ≠ [] ∧
      ∃ shown, readRow? text.toList = some shown ∧ shown.Shows candle := by
  obtain ⟨start, hstart, h⟩ := exists_of_bind_eq_ok h
  obtain ⟨numbers, hnumbers, h⟩ := exists_of_bind_eq_ok h
  cases h
  obtain ⟨t, ht, hnames, -⟩ := Instant.exists_names hfirst hend
  have hcell := toList_time ht (exists_of_mapError_eq_ok hstart)
  obtain ⟨numerals, htexts, hshows⟩ := exists_numerals hfinite (forall₂_of_mapM hnumbers)
  have hsix : numerals.length = 6 := hshows.length_eq.symm
  obtain ⟨hdate, hdateBreak⟩ := isWord_dateChars 1 t.civil
  obtain ⟨hclock, hclockBreak⟩ := isWord_clockChars t.civil
  have hzone : IsWord "UTC".toList := ⟨by decide, by decide⟩
  have hwords : words (line (start :: numbers)).toList = t.civil.dateChars 1 ::
      t.civil.clockChars :: "UTC".toList :: numerals.map (·.chars places) := by
    have hlength : (start :: numbers).length ≤ widths.length := by
      have hmap := congrArg List.length htexts
      rw [List.length_map, List.length_map, hsix] at hmap
      rw [List.length_cons, hmap]
      decide
    rw [words_line hlength, List.flatMap_cons, hcell, Text.words_append_blank,
      Text.words_append_blank, hdate.words_eq, hclock.words_eq, hzone.words_eq,
      flatMap_words_numerals htexts]
    rfl
  refine ⟨?_, ?_, ⟨t.civil, numerals⟩, readRow?_of_words hnames hsix hwords, hnames, hshows⟩
  · apply Text.not_mem_of_words (by decide)
    rw [hwords]
    simp only [List.forall_mem_cons, List.forall_mem_map]
    exact ⟨hdateBreak, hclockBreak, by decide, fun numeral _ => (isWord_numeral numeral).2⟩
  · intro hempty
    rw [hempty, Text.words_nil] at hwords
    cases hwords

/-- The lines above the rows. -/
def headLines (count : Nat) : List String :=
  ["", s!"Received {count} kline records:", "", line titles, rule]

/-- The lines below the rows. -/
def footLines (count : Nat) : List String := ["", s!"Total records: {count}"]

theorem column_append (first second : List String) :
    column (first ++ second) = column first ++ column second := by
  unfold column
  rw [List.map_append, String.join_append]

/-- A whole table is one line below the other. -/
theorem fullText_eq_column (count : Nat) (rows : List String) :
    fullText count rows = column (headLines count ++ (rows ++ footLines count)) := by
  have hhead : banner count ++ (line titles ++ "\n") ++ (rule ++ "\n") =
      column (headLines count) := by
    have hfirst : "\nReceived " = "\n" ++ "Received " := rfl
    have hlast : " kline records:\n\n" = " kline records:" ++ "\n" ++ "\n" := rfl
    change "\nReceived " ++ toString count ++ " kline records:\n\n" ++ (line titles ++ "\n") ++
      (rule ++ "\n") =
        column ["", "Received " ++ toString count ++ " kline records:", "", line titles, rule]
    rw [hfirst, hlast]
    simp only [column_cons, column_nil, String.append_assoc, String.empty_append,
      String.append_empty]
  have hfoot : foot count = column (footLines count) := by
    have hfirst : "\nTotal records: " = "\n" ++ "Total records: " := rfl
    change "\nTotal records: " ++ toString count ++ "\n" =
      column ["", "Total records: " ++ toString count]
    rw [hfirst]
    simp only [column_cons, column_nil, String.append_assoc, String.empty_append,
      String.append_empty]
  rw [fullText, column_append, column_append, hhead, hfoot, String.append_assoc]

theorem isWord_toString (count : Nat) :
    IsWord (toString count).toList ∧ '\n' ∉ (toString count).toList := by
  rw [show (toString count).toList = Text.decimalDigits count from Nat.toList_repr]
  exact isWord_of_isPlain (Text.decimalDigits_ne_nil count)
    fun c hc => isPlain_of_isDigit (Text.isDigit_of_mem_decimalDigits hc)

/-- A count is read if it stands between the right words. -/
theorem readCount?_of_words (before after : List String) {cs : List Char} {count : Nat}
    (h : words cs = before.map String.toList ++
      (toString count).toList :: after.map String.toList) :
    readCount? before after cs = some count := by
  have hcount : (toString count).toList = Text.decimalDigits count := Nat.toList_repr
  have hdigits : (Text.decimalDigits count).all Char.isDigit = true :=
    List.all_eq_true.mpr fun c => Text.isDigit_of_mem_decimalDigits
  unfold readCount?
  rw [h, List.drop_left' (List.length_map ..), List.take_left' (List.length_map ..), hcount]
  refine (if_pos ⟨rfl, rfl, hdigits⟩).trans ?_
  rw [Text.ofDigitChars_decimalDigits]

theorem words_banner (count : Nat) : words s!"Received {count} kline records:".toList =
    ["Received".toList, (toString count).toList, "kline".toList, "records:".toList] := by
  have htext : s!"Received {count} kline records:".toList = "Received".toList ++
      ' ' :: ((toString count).toList ++ ' ' :: ("kline".toList ++ ' ' :: "records:".toList)) := by
    rw [String.toList_append, String.toList_append, List.append_assoc]
    rfl
  rw [htext, Text.words_append_blank, Text.words_append_blank, Text.words_append_blank,
    (isWord_toString count).1.words_eq]
  rfl

theorem words_trailer (count : Nat) : words s!"Total records: {count}".toList =
    ["Total".toList, "records:".toList, (toString count).toList] := by
  have htext : s!"Total records: {count}".toList = "Total".toList ++
      ' ' :: ("records:".toList ++ ' ' :: (toString count).toList) := by
    rw [String.toList_append]
    rfl
  rw [htext, Text.words_append_blank, Text.words_append_blank, (isWord_toString count).1.words_eq]
  rfl

theorem words_titles : words (line titles).toList = titles.map String.toList := by
  have hword : ∀ s ∈ titles, words s.toList = [s.toList] := by decide
  rw [words_line (by decide), List.map_eq_flatMap]
  exact List.flatMap_congr hword

theorem break_not_mem_headLines (count : Nat) : ∀ s ∈ headLines count, '\n' ∉ s.toList := by
  simp only [headLines, List.forall_mem_cons]
  refine ⟨by decide, Text.not_mem_of_words (by decide) ?_, by decide,
    Text.not_mem_of_words (by decide) ?_, by decide, nofun⟩
  · rw [words_banner]
    simp only [List.forall_mem_cons]
    exact ⟨by decide, (isWord_toString count).2, by decide, by decide, nofun⟩
  · rw [words_titles]
    decide

theorem break_not_mem_footLines (count : Nat) : ∀ s ∈ footLines count, '\n' ∉ s.toList := by
  simp only [footLines, List.forall_mem_cons]
  refine ⟨by decide, Text.not_mem_of_words (by decide) ?_, nofun⟩
  rw [words_trailer]
  simp only [List.forall_mem_cons]
  exact ⟨by decide, by decide, (isWord_toString count).2, nofun⟩

/-- A table is read if its rows are. -/
theorem read?_of_rows (count : Nat) {rows : List String} {shown : List ShownRow}
    (hbreak : ∀ text ∈ rows, '\n' ∉ text.toList) (hne : ∀ text ∈ rows, text.toList ≠ [])
    (h : List.Forall₂ (fun text row => readRow? text.toList = some row) rows shown) :
    read? (fullText count rows) = some ⟨count, shown, count⟩ := by
  have hlines : lines (fullText count rows).toList =
      [] :: s!"Received {count} kline records:".toList :: [] :: (line titles).toList ::
        rule.toList :: (rows.map String.toList ++
          [[], s!"Total records: {count}".toList, []]) := by
    rw [fullText_eq_column, Text.lines_column]
    · simp only [headLines, footLines, List.map_append, List.map_cons, List.map_nil,
        List.cons_append, List.nil_append, List.append_assoc, String.toList_empty]
    · simp only [List.forall_mem_append]
      exact ⟨break_not_mem_headLines count, hbreak, break_not_mem_footLines count⟩
  have hrows : (rows.map String.toList).mapM readRow? = some shown := by
    apply mapM_eq_some
    rwa [List.forall₂_map_left_iff]
  have hfull : ∀ cs ∈ rows.map String.toList, (! cs.isEmpty) = true := by
    simp only [List.forall_mem_map, Bool.not_eq_true', List.isEmpty_eq_false_iff]
    exact hne
  have hbelow (trailer : List Char) : (rows.map String.toList ++ [[], trailer, []]).dropWhile
      (! ·.isEmpty) = [[], trailer, []] := by
    rw [List.dropWhile_append_of_pos hfull]
    rfl
  have habove (trailer : List Char) : (rows.map String.toList ++ [[], trailer, []]).takeWhile
      (! ·.isEmpty) = rows.map String.toList := by
    rw [List.takeWhile_append_of_pos hfull]
    exact List.append_nil _
  have hbanner := readCount?_of_words ["Received"] ["kline", "records:"] (words_banner count)
  have htrailer := readCount?_of_words ["Total", "records:"] [] (words_trailer count)
  unfold read?
  rw [hlines]
  dsimp only
  rw [hbelow, habove]
  simp only [hrows, hbanner, htrailer, Option.bind_eq_bind, Option.bind_some]
  exact if_pos ⟨words_titles, trivial⟩

/-- A table shows a series: there is a row for each candle, in their order, and the table announces
their number and ends with it. -/
def Shows (candles : List Candle) (shown : Shown) : Prop :=
  shown.announced = candles.length ∧ shown.total = candles.length ∧
    List.Forall₂ (fun candle row => ShownRow.Shows candle row) candles shown.rows

/-- The rows of candles that can be written are read as rows that show the candles. -/
theorem exists_shown_rows {candles : List Candle} {rows : List String} (h : Lines row candles rows)
    (hcalendar : ∀ candle ∈ candles, 1000 * Instant.firstSecond ≤ candle.openTime ∧
      candle.openTime < 1000 * Instant.endSecond)
    (hfinite : ∀ candle ∈ candles, ∀ d ∈ candle.amounts, d.isFinite = true) :
    (∀ text ∈ rows, '\n' ∉ text.toList ∧ text.toList ≠ []) ∧ ∃ shown,
      List.Forall₂ (fun text row => readRow? text.toList = some row) rows shown ∧
      List.Forall₂ (fun candle row => ShownRow.Shows candle row) candles shown := by
  induction h with
  | nil => exact ⟨nofun, [], .nil, .nil⟩
  | cons hrow _ ih =>
      obtain ⟨⟨hfirst, hend⟩, hlater⟩ := List.forall_mem_cons.mp hcalendar
      obtain ⟨hamounts, hothers⟩ := List.forall_mem_cons.mp hfinite
      obtain ⟨hbreak, hne, shown, hread, hshows⟩ := exists_shown hrow hfirst hend hamounts
      obtain ⟨hlines, others, hreads, hall⟩ := ih hlater hothers
      exact ⟨List.forall_mem_cons.mpr ⟨⟨hbreak, hne⟩, hlines⟩, shown :: others, .cons hread hreads,
        .cons hshows hall⟩

/-- A row whose time can be shown fails only if one of its numbers is too long. -/
theorem row_failsWith {candle : Candle} (h : Succeeds (Instant.ofMillis candle.openTime)) :
    FailsWith (· = .tooManyDigits) (row candle) := by
  have hnumber (d : Decimal) : FailsWith (· = .tooManyDigits) (number d) := by
    unfold number
    cases d.fixedText? places with
    | none => exact .error rfl
    | some text => exact .ok text
  obtain ⟨t, ht⟩ := h
  have htime : time candle = .ok (t.civilText ++ " UTC") := by
    rw [time, Calendar.civilTextOfMillis, ht]
    rfl
  unfold row
  rw [htime]
  refine FailsWith.bind (.ok (t.civilText ++ " UTC")) fun start => ?_
  exact (FailsWith.mapM fun d _ => hnumber d).bind fun numbers => .ok _

/-- A series that is read from rows and lies in the calendar can be written as a table if there is
room for its numbers, and only then; otherwise a number is too long. The table that is written shows
the series. -/
theorem write_shows {σ : Type} (print : String → StateM σ Unit) (state : σ) {candles : List Candle}
    (hread : ∀ candle ∈ candles, ∃ interval given, Row.read interval given = .ok candle)
    (hcalendar : ∀ candle ∈ candles, 1000 * Instant.firstSecond ≤ candle.openTime ∧
      candle.openTime < 1000 * Instant.endSecond) :
    let written := (write (noting print) candles).run (state, { })
    ((∀ candle ∈ candles, ∀ d ∈ candle.amounts, d.HasRoom places) → written.1 = .ok () ∧
        ∃ shown, read? written.2.2.text = some shown ∧ Shows candles shown) ∧
      (¬ (∀ candle ∈ candles, ∀ d ∈ candle.amounts, d.HasRoom places) →
        written.1 = .error .tooManyDigits) := by
  intro written
  have hfinite : ∀ candle ∈ candles, ∀ d ∈ candle.amounts, d.isFinite = true := by
    intro candle hmem
    obtain ⟨interval, given, hgiven⟩ := hread candle hmem
    exact (Row.fromRow_of_read hgiven).isFinite
  have hopen : ∀ candle ∈ candles, Succeeds (Instant.ofMillis candle.openTime) :=
    fun candle hmem => Instant.ofMillis_isOk (hcalendar candle hmem).1 (hcalendar candle hmem).2
  have hroom : ∀ candle ∈ candles,
      (Succeeds (row candle) ↔ ∀ d ∈ candle.amounts, d.HasRoom places) := by
    intro candle hmem
    rw [row_succeeds_iff, and_iff_right (hopen candle hmem)]
    exact forall₂_congr fun d hd => Decimal.fixedText?_ne_none_iff (hfinite candle hmem d hd)
  obtain ⟨result, after, output, hrun, hput⟩ := write_puts print candles state { }
  have hwritten : written = (result, after, output) := by
    rw [← output.nothing_append]
    exact hrun
  rw [hwritten, ← forall₂_congr hroom]
  cases hput with
  | whole hrows =>
      obtain ⟨hlines, shown, hreads, hshows⟩ := exists_shown_rows hrows hcalendar hfinite
      refine ⟨fun _ => ⟨rfl, _, read?_of_rows candles.length (fun text hmem => (hlines text hmem).1)
        (fun text hmem => (hlines text hmem).2) hreads, rfl, rfl, hshows⟩, fun hnot => ?_⟩
      exact absurd (exists_lines_iff.mp ⟨_, hrows⟩) hnot
  | @brokenOff done rest candle fault _ hsplit _ hcandle _ =>
      have hmem : candle ∈ candles := hsplit ▸ List.mem_append_right done List.mem_cons_self
      refine ⟨fun hall => ?_, fun _ => ?_⟩
      · exact absurd (hall candle hmem) (Succeeds.not_of_error hcandle)
      · rw [row_failsWith (hopen candle hmem) fault hcandle]

/-- A negative amount that rounds to zero, a tie to the even neighbour, a carry through a run of
nines, an amount wider than its column, one far too small to show, and a power of ten. -/
theorem write_shows_unusual :
    let given : Value := .list [.text "-500", .text "-0.00005", .text "0.00015", .text "9.99995",
      .text "123456789012345.67895", .text "1e-400", .text "1E+20"]
    let candle : Candle := {
      openTime := -500, closeTime := 59500
      openPrice := .finite true 5 (-5), highPrice := .finite false 15 (-5)
      lowPrice := .finite false 999995 (-5), closePrice := .finite false 12345678901234567895 (-5)
      volume := .finite false 1 (-400), turnover := .finite false 1 20 }
    let written := (write (noting fun _ => (pure () : StateM Unit Unit)) [candle]).run ((), { })
    Row.read .minutes1 given = .ok candle ∧ written.1 = .ok () ∧
      ∃ shown, read? written.2.2.text = some shown ∧ Shows [candle] shown := by
  intro given candle
  have hread : Row.read .minutes1 given = .ok candle := rfl
  have hroom : ∀ d ∈ candle.amounts, d.HasRoom places := by
    have hshort : ∀ d ∈ candle.amounts, d.fixedText? places ≠ none := by decide +kernel
    intro d hd
    exact (Decimal.fixedText?_ne_none_iff ((Row.fromRow_of_read hread).isFinite d hd)).mp
      (hshort d hd)
  obtain ⟨hshows, -⟩ := write_shows (fun _ => pure ()) ()
    (List.forall_mem_singleton.mpr ⟨.minutes1, given, hread⟩)
    (List.forall_mem_singleton.mpr ⟨by decide, by decide⟩)
  exact ⟨hread, hshows (List.forall_mem_singleton.mpr hroom)⟩

end Report.Table

end CandleHistory
