import CandleHistory.Proofs.Market
import CandleHistory.Proofs.ShownBars

/-!
What a fetch collects from an exchange whose bars lie no closer together than they are wide: all of
them that open in the range and nothing else, up to the cap. The pages of the chunks show all of
these bars.
-/

namespace CandleHistory

namespace FetchJob

variable {request : Request} {market : Market request.interval} {conduct : Conduct} {plan : Plan}
  {maxRetries : Int}

/-- A run in which every attempt can be announced collects the bars of the range. -/
theorem Run.of_market {fuel : Nat} {next : Option Int} {series : Series Candle}
    {before after : Transcript} {outcome : Except Stop (Series Candle)} {covered : Int}
    (h : Run conduct ⟨request, plan, maxRetries⟩ fuel next series before outcome after)
    (hanswers : ∀ call answer, conduct.answers call answer → market.Answers call answer)
    (hcalm : ∀ before, ¬ conduct.wishes before true)
    (hinterval : plan.interval = request.interval) (hrange : plan.range.InCalendar)
    (hjob : Announceable ⟨request, plan, maxRetries⟩)
    (hwithin : plan.Within fuel next) (hcovered : plan.Covered covered next)
    (hstart : plan.range.start ≤ covered) (hstop : covered ≤ plan.range.stop)
    (hkept : series.kept = (market.opens plan.range.start covered).map market.candle) :
    outcome.map Series.result =
      .ok (((market.opens plan.range.start plan.range.stop).take
        series.cap).map market.candle) := by
  obtain ⟨done, hgathered, hdone⟩ :=
    Listing.Gathered.of_kept hwithin hcovered hstart hstop hkept
  have hresult := h.of_listing hanswers hcalm hinterval hrange hjob (market.sparse plan.cap_pos)
    hwithin hgathered
  have hall : (market.opens plan.range.start plan.range.stop).filter
      (market.shown (done ++ (plan.take fuel next).1)) =
      market.opens plan.range.start plan.range.stop := by
    apply List.filter_eq_self.mpr
    intro t ht
    obtain ⟨⟨hfirst, hlast⟩, hopen⟩ := market.mem_opens.mp ht
    rw [Listing.shown_append, Bool.or_eq_true]
    rcases Int.lt_or_le t covered with hlt | hge
    · exact Or.inl (hdone t hopen hfirst hlt)
    · refine Or.inr (market.shown_iff.mpr ?_)
      cases next with
      | none =>
          have hend : covered = plan.range.stop := hcovered
          omega
      | some start =>
          obtain ⟨chunkStart, hchunk, hle, hlt, -⟩ :=
            Plan.exists_chunkAt_mem_take hwithin (Int.le_trans hcovered.1 hge) hlast
          exact ⟨_, hchunk, market.onPage_of_mem hinterval
            (market.mem_opens.mpr ⟨⟨hle, hlt⟩, hopen⟩)⟩
  rw [hresult, hall]

end FetchJob

variable {σ τ : Type} [TimeNumber τ]

/-- An uncancelled fetch from an exchange with certain bars hands out the candles of the bars that
open in the range, in ascending order and up to the cap, whatever the limit for one call is. The one
thing that can stop it is a number of attempts that has too many digits to be announced. -/
theorem fetch_eq_opens {request : Request} (market : Market request.interval)
    (venue : Venue τ (StateM σ))
    (hanswers : ∀ call world, market.Answers call (venue.call call world).1)
    (hcalm : ∀ world, (venue.cancelRequested world).1 = false)
    (range : DateRange) (hrange : range.InCalendar)
    (maxRecords : Int) (hrecords : 1 ≤ maxRecords) (maxRetries : Int) (spacing : Spacing τ)
    (world : σ) :
    (fetch venue maxRetries request range maxRecords spacing world).1.1 =
      if range.isEmpty = true ∨ (maxRetries + 1).natAbs < Number.integerBound then
        .ok (((market.opens range.start range.stop).take maxRecords.toNat).map market.candle)
      else .error (.broke .tooManyDigits) := by
  obtain ⟨plan, hplan, rfl, hinterval, -⟩ :=
    Plan.make_isOk range request.interval request.one_le_limit
  obtain ⟨series, hseries, hempty, hcap⟩ := Series.make_isOk Candle hrecords
  obtain ⟨outcome, after, hrun, hresult⟩ := venue.exists_run hplan hseries
    (Plan.announceable_of_make hplan hrange) maxRetries spacing world
  have hanswers : ∀ call answer, venue.conduct.answers call answer →
      market.Answers call answer := by
    rintro call _ ⟨world, rfl⟩
    exact hanswers call world
  have hcalm := venue.not_wishes_conduct hcalm
  rw [hresult]
  apply hrun.result_eq_ite hrange (Series.isFull_of_nil hempty) (hcalm [])
  · intro hrangeEmpty
    have hequal : plan.range.start = plan.range.stop := eq_of_beq hrangeEmpty
    rw [hequal, market.opens_self, List.take_nil, Series.result, hempty, List.take_nil]
    rfl
  · intro hjob
    have hkept : series.kept =
        (market.opens plan.range.start plan.range.start).map market.candle := by
      rw [hempty, market.opens_self]
      rfl
    rw [← hcap]
    exact hrun.of_market hanswers hcalm hinterval hrange hjob plan.within_first
      plan.covered_first (Int.le_refl _) plan.range.start_le_stop hkept

theorem fetch_eq_opens_single :
    (fetch Market.single.exchange 3 ⟨"BTCUSDT", .minutes1, .linear, 1, by decide⟩
      ⟨-1, 2, by decide⟩ 5 ⟨.zero, none⟩ ()).1.1 = .ok [Market.single.candle 0] := by
  have hopens : Market.single.opens (-1) 2 = [0] := by decide
  have hcount : ((3 : Int) + 1).natAbs < Number.integerBound :=
    Number.lt_integerBound_of_lt_twoPow (by decide)
  rw [fetch_eq_opens Market.single Market.single.exchange Market.single.exchange_answers
    (fun _ => rfl) ⟨-1, 2, by decide⟩ (by constructor <;> decide) 5 (by decide) 3,
    if_pos (Or.inr hcount), hopens]
  rfl

end CandleHistory
