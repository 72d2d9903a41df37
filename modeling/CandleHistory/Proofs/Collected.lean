import CandleHistory.Proofs.Merging
import CandleHistory.Proofs.Transcript
import Mathlib.Data.List.Induction

/-!
The records that have been merged when a transcript has come to pass, found from the pages that it
shows. They are what the series of a run holds, so the transcript tells how many records a run gives
as held when it is cancelled.
-/

namespace CandleHistory

/-- The candles of a page, if they can be read. -/
def pageCandles (interval : Interval) (page : Value) : List Candle :=
  match page.elements? with
  | none => []
  | some rows =>
    match Row.readAll interval rows with
    | .ok candles => candles
    | .refused _ => []
    | .infiniteStart => []

/-- The candles that come with an event. -/
def Event.candles (interval : Interval) : Event → List Candle
  | .called _ (.page page) => pageCandles interval page
  | .called _ (.failed _) => []
  | .called _ (.broke _) => []
  | .reported _ => []

/-- Records with a page merged into them. -/
def extend (kept page : List Candle) : List Candle :=
  kept ++ mergePage (kept.getLast?.map openTime) page

theorem extend_nil (kept : List Candle) : extend kept [] = kept := by
  have hnone : mergePage (kept.getLast?.map openTime) ([] : List Candle) = [] := by
    unfold mergePage sortByTime
    cases kept.getLast?.map openTime <;> rfl
  unfold extend
  rw [hnone, List.append_nil]

theorem kept_add_eq_extend (series : Series Candle) (page : List Candle) :
    (series.add page).kept = extend series.kept page := rfl

namespace Transcript

/-- The records merged so far, in ascending order. -/
def collected (interval : Interval) (transcript : Transcript) : List Candle :=
  transcript.foldl (fun kept event => extend kept (event.candles interval)) []

variable {interval : Interval}

theorem collected_append_event (transcript : Transcript) (event : Event) :
    collected interval (transcript ++ [event]) =
      extend (transcript.collected interval) (event.candles interval) := by
  unfold collected
  rw [List.foldl_append]
  rfl

/-- Merged records are in strictly ascending order, so no two of them have the same time. -/
theorem collected_ascending (transcript : Transcript) :
    Ascending (transcript.collected interval) := by
  induction transcript using List.reverseRecOn with
  | nil => exact List.Pairwise.nil
  | append_singleton transcript event ih =>
      rw [collected_append_event]
      have hseries : Ascending (Series.mk 1 (collected interval transcript) Nat.one_pos).kept := ih
      exact Series.add_ascending hseries _

/-- What happens without a call merges nothing. -/
theorem collected_append_of_calls_eq_nil {first second : Transcript} (h : second.calls = []) :
    collected interval (first ++ second) = first.collected interval := by
  induction second using List.reverseRecOn with
  | nil => rw [List.append_nil]
  | append_singleton second event ih =>
      rw [calls_append] at h
      obtain ⟨hsecond, hevent⟩ := List.append_eq_nil_iff.mp h
      rw [← List.append_assoc, collected_append_event, ih hsecond]
      cases event with
      | called call answer => cases hevent
      | reported held => exact extend_nil _

end Transcript

namespace FetchJob

variable {conduct : Conduct} {job : FetchJob}

/-- The candles that come with a page that was fetched. -/
def fetchedCandles (interval : Interval) : Except Stop Value → List Candle
  | .ok page => pageCandles interval page
  | .error _ => []

/-- Only the page that a chunk ends up with brings candles. -/
theorem PageRun.collected {chunk : Chunk} {held retries number : Nat} {before after : Transcript}
    {result : Except Stop Value} (interval : Interval)
    (h : PageRun conduct job chunk held retries number before result after) :
    after.collected interval =
      extend (before.collected interval) (fetchedCandles interval result) := by
  induction h with
  | cancelled hnumber hwish => exact (extend_nil _).symm
  | unannounced hwish hfault => exact (extend_nil _).symm
  | answered hattempt => exact Transcript.collected_append_event _ _
  | broke hattempt => exact Transcript.collected_append_event _ _
  | refused hattempt htransient => exact Transcript.collected_append_event _ _
  | exhausted hattempt htransient => exact Transcript.collected_append_event _ _
  | @retried retries number before reason result after hattempt htransient hrun ih =>
      have hfailure : extend (before.collected interval) [] = before.collected interval :=
        extend_nil _
      rw [ih, Transcript.collected_append_event]
      exact congrArg (extend · (fetchedCandles interval result)) hfailure

/-- A cancel while a page is fetched gives the number of records that was held before. -/
theorem PageRun.of_cancelled {chunk : Chunk} {held retries number count : Nat}
    {before after : Transcript} {result : Except Stop Value}
    (h : PageRun conduct job chunk held retries number before result after)
    (hresult : result = .error (.cancelled count)) : count = held := by
  induction h with
  | cancelled hnumber hwish =>
      cases hresult
      rfl
  | retried hattempt htransient hrun ih => exact ih hresult
  | unannounced hwish hfault => cases hresult
  | answered hattempt => cases hresult
  | broke hattempt => cases hresult
  | refused hattempt htransient => cases hresult
  | exhausted hattempt htransient => cases hresult

theorem readPage_ne_cancelled {held count : Nat} {page : Value} :
    job.readPage held page ≠ .error (.cancelled count) := by
  intro h
  unfold readPage at h
  split at h
  · cases h
  · split at h <;> cases h

theorem pageCandles_of_readPage {held : Nat} {page : Value} {candles : List Candle}
    (h : job.readPage held page = .ok candles) :
    pageCandles job.request.interval page = candles := by
  unfold readPage at h
  unfold pageCandles
  cases helements : page.elements? with
  | none =>
      rw [helements] at h
      cases h
  | some rows =>
      rw [helements] at h
      dsimp only at h ⊢
      cases hrows : Row.readAll job.request.interval rows with
      | ok read =>
          rw [hrows] at h
          cases h
          rfl
      | refused reason =>
          rw [hrows] at h
          cases h
      | infiniteStart =>
          rw [hrows] at h
          cases h

/-- A series that holds what has been merged so far also does so when a page has been fetched,
merged and reported. -/
theorem PageRun.kept_add {chunk : Chunk} {held retries number count : Nat}
    {before between : Transcript} {page : Value} {candles : List Candle} {series : Series Candle}
    (h : PageRun conduct job chunk held retries number before (.ok page) between)
    (hread : job.readPage held page = .ok candles)
    (hkept : series.kept = before.collected job.request.interval) :
    (series.add candles).kept =
      Transcript.collected job.request.interval (between ++ [.reported count]) := by
  rw [kept_add_eq_extend, hkept, Transcript.collected_append_of_calls_eq_nil rfl,
    h.collected job.request.interval]
  exact congrArg (extend _) (pageCandles_of_readPage hread).symm

/-- The series that a run ends with holds what has been merged. -/
theorem Run.kept_of_ok {fuel : Nat} {next : Option Int} {series final : Series Candle}
    {before after : Transcript} {outcome : Except Stop (Series Candle)}
    (h : Run conduct job fuel next series before outcome after)
    (hkept : series.kept = before.collected job.request.interval)
    (houtcome : outcome = .ok final) :
    final.kept = after.collected job.request.interval ∧ final.cap = series.cap := by
  induction h with
  | finished =>
      cases houtcome
      exact ⟨hkept, rfl⟩
  | spent =>
      cases houtcome
      exact ⟨hkept, rfl⟩
  | full hfull =>
      cases houtcome
      exact ⟨hkept, rfl⟩
  | cancelled hfull hwish => cases houtcome
  | failed hfull hwish hpage => cases houtcome
  | unreadable hfull hwish hpage hread => cases houtcome
  | absorbed hfull hwish hpage hread hrun ih => exact ih (hpage.kept_add hread hkept) houtcome

/-- A cancelled run gives the number of records merged so far, up to the cap. -/
theorem Run.of_cancelled {fuel count : Nat} {next : Option Int} {series : Series Candle}
    {before after : Transcript} {outcome : Except Stop (Series Candle)}
    (h : Run conduct job fuel next series before outcome after)
    (hkept : series.kept = before.collected job.request.interval)
    (houtcome : outcome = .error (.cancelled count)) :
    count = min (after.collected job.request.interval).length series.cap := by
  induction h with
  | finished => cases houtcome
  | spent => cases houtcome
  | full hfull => cases houtcome
  | cancelled hfull hwish =>
      cases houtcome
      rw [← hkept]
      rfl
  | failed hfull hwish hpage =>
      cases houtcome
      have hcollected := hpage.collected job.request.interval
      rw [hpage.of_cancelled rfl, hcollected, ← hkept]
      exact congrArg (fun kept => min (List.length kept) _) (extend_nil _).symm
  | unreadable hfull hwish hpage hread =>
      cases houtcome
      exact absurd hread readPage_ne_cancelled
  | absorbed hfull hwish hpage hread hrun ih =>
      exact ih (hpage.kept_add hread hkept) houtcome

end FetchJob

end CandleHistory
