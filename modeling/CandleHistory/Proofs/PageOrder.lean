import CandleHistory.Proofs.Market
import CandleHistory.Proofs.Merging
import CandleHistory.Proofs.Rows
import CandleHistory.Proofs.SideBySide
import Mathlib.Data.List.Perm.Basic

/-!
The order of the rows of a page. A page may repeat a row; as long as rows with the same open time
are identical, what it adds to a series does not depend on the order in which it shows them, and so
neither does anything that a fetch does.
-/

namespace CandleHistory

section Merging

variable {α : Type} [Timed α] {page page' : List α}

theorem sortByTime_eq_of_perm (hperm : page.Perm page')
    (hsame : ∀ x ∈ page, ∀ y ∈ page, openTime x = openTime y → x = y) :
    sortByTime page = sortByTime page' := by
  have hsorted : (sortByTime page).Perm (sortByTime page') :=
    (sortByTime_perm page).trans (hperm.trans (sortByTime_perm page').symm)
  refine hsorted.eq_of_pairwise ?_ (sortByTime_sorted page) (sortByTime_sorted page')
  intro x y hx hy hxy hyx
  have hx : x ∈ page := (sortByTime_perm page).mem_iff.mp hx
  have hy : y ∈ page := hperm.mem_iff.mpr ((sortByTime_perm page').mem_iff.mp hy)
  exact hsame x hx y hy (Int.le_antisymm hxy hyx)

/-- Records with distinct times add the same to a series in whatever order they come, also if some
of them are repeated. -/
theorem mergePage_eq_of_perm (hperm : page.Perm page')
    (hsame : ∀ x ∈ page, ∀ y ∈ page, openTime x = openTime y → x = y) (tail? : Option Int) :
    mergePage tail? page = mergePage tail? page' := by
  unfold mergePage
  rw [sortByTime_eq_of_perm hperm hsame]

end Merging

/-- Pages with the same rows, perhaps in another order. All rows can be read, and those with the
same open time are identical. -/
def Reordered (interval : Interval) (page page' : Value) : Prop :=
  ∃ rows rows', page.elements? = some rows ∧ page'.elements? = some rows' ∧ rows.Perm rows' ∧
    (∀ row ∈ rows, ∃ candle, Row.read interval row = .ok candle) ∧
    ∀ row ∈ rows, ∀ row' ∈ rows, ∀ candle candle', Row.read interval row = .ok candle →
      Row.read interval row' = .ok candle' → candle.openTime = candle'.openTime → row = row'

theorem FetchJob.readsAlike_reordered (job : FetchJob) :
    job.ReadsAlike (Reordered job.request.interval) := by
  rintro held page page' ⟨rows, rows', hrows, hrows', hperm, hread, hsame⟩
  obtain ⟨candles, hcandles⟩ := Row.exists_readAll hread
  obtain ⟨candles', hcandles', hshuffled⟩ :=
    List.perm_comp_forall₂ hperm.symm (Row.readAll_eq_ok_iff.mp hcandles)
  have hcandles' := Row.readAll_eq_ok_iff.mpr hcandles'
  have hmerge : MergeAlike candles candles' := by
    refine mergePage_eq_of_perm hshuffled.symm ?_
    intro x hx y hy htime
    obtain ⟨row, hrow, hx⟩ := Row.exists_read_of_mem hcandles hx
    obtain ⟨row', hrow', hy⟩ := Row.exists_read_of_mem hcandles hy
    cases hsame row hrow row' hrow' x y hx hy htime
    exact RowResult.ok.inj (hx.symm.trans hy)
  unfold readPage
  rw [hrows, hrows']
  dsimp only
  rw [hcandles, hcandles']
  exact .done hmerge

/-- A fetch does not depend on the order in which the pages show their rows: it makes the same
calls, reports the same numbers, and ends with the same candles or the same error. -/
theorem tracedFetch_eq_of_reordered {σ σ' τ τ' : Type} [TimeNumber τ] [TimeNumber τ']
    (venue : Venue τ (StateM σ)) (venue' : Venue τ' (StateM σ')) {script script' : Script}
    {request : Request} (hscripts : script.Alike (Reordered request.interval) script')
    (maxRetries : Int) (range : DateRange) (maxRecords : Int) (spacing : Spacing τ)
    (spacing' : Spacing τ') (world : σ) (world' : σ') :
    let ran := tracedFetch (venue.playing script) maxRetries request range maxRecords spacing world
    let ran' := tracedFetch (venue'.playing script') maxRetries request range maxRecords spacing'
      world'
    ran.1 = ran'.1 ∧ ran.2.calls = ran'.2.calls ∧ ran.2.reports = ran'.2.reports := by
  have hreads (plan : Plan) :
      FetchJob.ReadsAlike ⟨request, plan, maxRetries⟩ (Reordered request.interval) :=
    FetchJob.readsAlike_reordered ⟨request, plan, maxRetries⟩
  obtain ⟨hresult, htranscript⟩ := hscripts.tracedFetch venue venue' hreads range maxRecords spacing
    spacing' world world'
  exact ⟨hresult, htranscript.calls_eq, htranscript.reports_eq⟩

/-- Answers in which the first page overshoots its minute and repeats bars, the call for the second
one fails at first, and the call for the third one is refused. -/
def overlappingScript (first second : List Int) : Script where
  answer
    | 0, _ => .page (.list (first.map Market.single.row))
    | 1, _ => .failed (.transient "busy")
    | 2, _ => .page (.list (second.map Market.single.row))
    | _, _ => .failed (.rejected (.integer 10001) .null)
  wishes _ := false

theorem Market.reordered_single {times times' : List Int} (h : times.Perm times') :
    Reordered .minutes1 (.list (times.map single.row)) (.list (times'.map single.row)) := by
  refine ⟨_, _, rfl, rfl, h.map single.row, ?_, ?_⟩
  · intro row hrow
    obtain ⟨t, -, rfl⟩ := List.mem_map.mp hrow
    exact ⟨single.candle t, rfl⟩
  · intro row hrow row' hrow' candle candle' hread hread' htime
    obtain ⟨t, -, rfl⟩ := List.mem_map.mp hrow
    obtain ⟨t', -, rfl⟩ := List.mem_map.mp hrow'
    cases hread
    cases hread'
    exact congrArg single.row htime

theorem overlappingScript_alike {first first' second second' : List Int}
    (hfirst : first.Perm first') (hsecond : second.Perm second') :
    (overlappingScript first second).Alike (Reordered .minutes1)
      (overlappingScript first' second') where
  answers
    | 0, _ => .page (Market.reordered_single hfirst)
    | 1, _ => .failed _
    | 2, _ => .page (Market.reordered_single hsecond)
    | _ + 3, _ => .failed _
  wishes _ := rfl

theorem tracedFetch_eq_of_reordered_overlapping :
    let request : Request := ⟨"BTCUSDT", .minutes1, .linear, 1, by decide⟩
    let range : DateRange := ⟨0, 180000, by decide⟩
    let script := overlappingScript [60000, 0, 30000, 0, 60000] [90000, 60000]
    let script' := overlappingScript [0, 60000, 60000, 30000, 0] [60000, 90000]
    let ran := tracedFetch (Market.single.exchange.playing script) 1 request range 4
      ⟨.zero, none⟩ ()
    let ran' := tracedFetch (Market.single.busyAtFirst.playing script') 1 request range 4
      ⟨.zero, some .zero⟩ 0
    (ran.1 = ran'.1 ∧ ran.2.calls = ran'.2.calls ∧ ran.2.reports = ran'.2.reports) ∧
      ran.1.toOption.map (List.map openTime) = some [0, 30000, 60000, 90000] ∧
      ran.2.reports = [3, 4] := by
  refine ⟨?_, by decide +kernel, by decide +kernel⟩
  apply tracedFetch_eq_of_reordered
  exact overlappingScript_alike (by decide) (by decide)

end CandleHistory
