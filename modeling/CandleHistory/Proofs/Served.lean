import CandleHistory.Proofs.Attempts
import CandleHistory.Proofs.Merging
import CandleHistory.Proofs.Rows
import CandleHistory.Proofs.Succeeds

/-!
Fetches that are served. If each call is answered with bars that open in its bounds, or with an
error of the transport, then no fault ends a run whose attempts can be announced, and a series holds
bars of the range with finite amounts only. Someone may cancel at any time.
-/

namespace CandleHistory

open Number (Decimal)

/-- The prices of a candle, and what was traded. -/
def Candle.amounts (candle : Candle) : List Decimal :=
  [candle.openPrice, candle.highPrice, candle.lowPrice, candle.closePrice, candle.volume,
    candle.turnover]

/-- What is known of every candle that is read from a row: its amounts are finite, and it counts no
trades. -/
structure Candle.FromRow (candle : Candle) : Prop where
  isFinite : ∀ d ∈ candle.amounts, d.isFinite = true
  tradeCount : candle.tradeCount = 0

namespace Row

theorem isFinite_of_amount {name : String} {given : Value} {d : Decimal}
    (h : amount name given = .ok d) : d.isFinite = true := by
  unfold amount at h
  split at h
  case h_1 read hread =>
    split at h
    case isTrue hfinite =>
      cases h
      exact hfinite
    case isFalse => cases h
  case h_2 => cases h

theorem fromRow_of_candle {interval : Interval} {start : Int}
    {opening high low closing volume turnover : Value} {result : Candle}
    (h : candle interval start opening high low closing volume turnover = .ok result) :
    result.FromRow := by
  unfold candle at h
  obtain ⟨openPrice, hopen, h⟩ := exists_of_bind_eq_ok h
  obtain ⟨highPrice, hhigh, h⟩ := exists_of_bind_eq_ok h
  obtain ⟨lowPrice, hlow, h⟩ := exists_of_bind_eq_ok h
  obtain ⟨closePrice, hclose, h⟩ := exists_of_bind_eq_ok h
  obtain ⟨volume, hvolume, h⟩ := exists_of_bind_eq_ok h
  obtain ⟨turnover, hturnover, h⟩ := exists_of_bind_eq_ok h
  cases h
  refine ⟨?_, rfl⟩
  simp only [Candle.amounts, List.forall_mem_cons]
  exact ⟨isFinite_of_amount hopen, isFinite_of_amount hhigh, isFinite_of_amount hlow,
    isFinite_of_amount hclose, isFinite_of_amount hvolume, isFinite_of_amount hturnover, nofun⟩

theorem fromRow_of_read {interval : Interval} {row : Value} {result : Candle}
    (h : read interval row = .ok result) : result.FromRow := by
  unfold read at h
  split at h
  · split at h
    · split at h
      case h_1 read hread =>
        cases h
        exact fromRow_of_candle hread
      case h_2 => cases h
    · cases h
    · cases h
  · cases h

theorem fromRow_of_readAll {interval : Interval} {rows : List Value} {candles : List Candle}
    (h : readAll interval rows = .ok candles) : ∀ candle ∈ candles, candle.FromRow := by
  intro candle hmem
  obtain ⟨row, -, hread⟩ := exists_read_of_mem h hmem
  exact fromRow_of_read hread

end Row

/-- An answer that serves a call: rows that are all read as bars that open in the bounds of the
call, or an error of the transport. -/
inductive PageCall.ServedBy (call : PageCall) : PageAnswer → Prop
  | rows {page rows candles} :
      page.elements? = some rows → Row.readAll call.interval rows = .ok candles →
      (∀ candle ∈ candles, call.start ≤ candle.openTime ∧ candle.openTime ≤ call.last) →
      ServedBy call (.page page)
  | failed (reason : PageError) : ServedBy call (.failed reason)

/-- A candle that is read from a row, and whose bar opens in a range. -/
structure Candle.Sound (range : DateRange) (candle : Candle) : Prop where
  start_le : range.start ≤ candle.openTime
  lt_stop : candle.openTime < range.stop
  fromRow : candle.FromRow

/-- An ending that no fault has brought about. -/
def Stop.Orderly : Stop → Prop
  | aborted _ _ => True
  | cancelled _ => True
  | broke _ => False

namespace FetchJob

variable {conduct : Conduct} {job : FetchJob}

/-- If the attempts for a chunk can be announced and are served, its page is among the answers, or
no fault has kept it away. -/
theorem PageRun.of_served {chunk : Chunk} {held retries number : Nat} {before after : Transcript}
    {result : Except Stop Value}
    (h : PageRun conduct job chunk held retries number before result after)
    (hserved : ∀ answer, conduct.answers (job.pageCall chunk) answer →
      (job.pageCall chunk).ServedBy answer)
    (hannounced : ∀ number, ∃ message, job.announcement chunk number = .ok message) :
    (∃ page, result = .ok page ∧ (job.pageCall chunk).ServedBy (.page page)) ∨
      ∃ stop, result = .error stop ∧ stop.Orderly := by
  induction h with
  | cancelled hnumber hwish => exact Or.inr ⟨_, rfl, trivial⟩
  | @unannounced retries number before fault hwish hfault =>
      obtain ⟨message, hmessage⟩ := hannounced number
      rw [hmessage] at hfault
      cases hfault
  | answered hattempt => exact Or.inl ⟨_, rfl, hserved _ hattempt.answered⟩
  | broke hattempt => exact nomatch hserved _ hattempt.answered
  | refused hattempt htransient => exact Or.inr ⟨_, rfl, trivial⟩
  | exhausted hattempt htransient => exact Or.inr ⟨_, rfl, trivial⟩
  | retried hattempt htransient hrun ih => exact ih

/-- A page that serves the call for a chunk is read as candles of the range. -/
theorem readPage_of_served {start : Int} {page : Value} {fuel : Nat}
    (hwithin : job.plan.Within fuel (some start))
    (h : (job.pageCall (job.plan.chunkAt start)).ServedBy (.page page)) :
    ∃ candles, (∀ held, job.readPage held page = .ok candles) ∧
      ∀ candle ∈ candles, candle.Sound job.plan.range := by
  obtain ⟨hlower, -, -⟩ := hwithin start rfl
  have hstop := job.plan.chunkAt_stop_le start
  cases h with
  | @rows _ rows candles helements hread hbounds =>
      refine ⟨candles, ?_, ?_⟩
      · intro held
        have hrows : Row.readAll job.request.interval rows = .ok candles := hread
        simp only [readPage, helements, hrows]
      · intro candle hmem
        obtain ⟨hfirst, hlast⟩ := hbounds candle hmem
        have hstart : start ≤ candle.openTime := hfirst
        have hend : candle.openTime ≤ (job.plan.chunkAt start).stop - 1 := hlast
        exact ⟨by omega, by omega, Row.fromRow_of_readAll hread candle hmem⟩

/-- What a served run comes to: no fault ends it, and its series is sound. -/
def Served (job : FetchJob) : Except Stop (Series Candle) → Prop
  | .ok series => ∀ candle ∈ series.kept, candle.Sound job.plan.range
  | .error stop => stop.Orderly

/-- A run that is served and whose attempts can be announced comes to no fault. -/
theorem Run.served {fuel : Nat} {next : Option Int} {series : Series Candle}
    {before after : Transcript} {outcome : Except Stop (Series Candle)}
    (h : Run conduct job fuel next series before outcome after)
    (hserved : ∀ chunk answer, conduct.answers (job.pageCall chunk) answer →
      (job.pageCall chunk).ServedBy answer)
    (hrange : job.plan.range.InCalendar) (hjob : job.Announceable)
    (hwithin : job.plan.Within fuel next)
    (hsound : ∀ candle ∈ series.kept, candle.Sound job.plan.range) : job.Served outcome := by
  induction h with
  | finished => exact hsound
  | spent => exact hsound
  | full hfull => exact hsound
  | cancelled hfull hwish => exact trivial
  | failed hfull hwish hpage =>
      obtain ⟨span, hspan⟩ := hwithin.spanText_isOk hrange
      rcases hpage.of_served (hserved _) (announcement_of_announceable hspan hjob) with
        ⟨page, hresult, -⟩ | ⟨stop, hresult, horderly⟩
      · cases hresult
      · cases hresult
        exact horderly
  | @unreadable fuel start series before page stop after hfull hwish hpage hread =>
      obtain ⟨span, hspan⟩ := hwithin.spanText_isOk hrange
      rcases hpage.of_served (hserved _) (announcement_of_announceable hspan hjob) with
        ⟨page, hresult, hpageServed⟩ | ⟨stop, hresult, -⟩
      · cases hresult
        obtain ⟨candles, hcandles, -⟩ := readPage_of_served hwithin hpageServed
        rw [hcandles] at hread
        cases hread
      · cases hresult
  | @absorbed fuel start series before page candles between result after hfull hwish hpage hread
      hrun ih =>
      obtain ⟨span, hspan⟩ := hwithin.spanText_isOk hrange
      rcases hpage.of_served (hserved _) (announcement_of_announceable hspan hjob) with
        ⟨page, hresult, hpageServed⟩ | ⟨stop, hresult, -⟩
      · cases hresult
        obtain ⟨read, hcandles, hfresh⟩ := readPage_of_served hwithin hpageServed
        rw [hcandles] at hread
        cases hread
        apply ih hwithin.after
        intro candle hmem
        rcases List.mem_append.mp hmem with hkept | hmerged
        · exact hsound candle hkept
        · exact hfresh candle (mem_of_mem_mergePage hmerged)
      · cases hresult

end FetchJob

end CandleHistory
