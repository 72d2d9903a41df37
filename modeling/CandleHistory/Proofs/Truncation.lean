import CandleHistory.Proofs.FailingChunks
import CandleHistory.Proofs.Retries

/-!
Fetches from one exchange that differ in their caps. As long as there is room under the smaller cap,
the two make the same calls and hold the same records. From then on only the fetch with the larger
cap goes on, and whatever it merges comes after the records that both hold.
-/

namespace CandleHistory

/-- Where a call has a single answer, that is the final one, and the number of attempts is settled.
-/
theorem Attempts.calls_of_single {conduct : Conduct} {call : PageCall} {retries : Nat}
    (attempts : Attempts conduct call retries) {reply : PageAnswer}
    (h : ∀ answer, conduct.answers call answer → answer = reply) :
    attempts.final = reply ∧ attempts.events.calls =
      List.replicate (if reply.isTransient = true then retries + 1 else 1) call := by
  have hfinal := h _ (attempts.answered _ (List.mem_append_right _ List.mem_cons_self))
  refine ⟨hfinal, ?_⟩
  rw [attempts.calls_events]
  cases htransient : reply.isTransient with
  | true => rw [attempts.exhausted (hfinal ▸ htransient), if_pos rfl]
  | false =>
      rw [(attempts.of_steady htransient h).1, if_neg Bool.false_ne_true]
      rfl

namespace Series

/-- A series with room is no larger under a larger cap. -/
theorem room_of_cap_le {series wide : Series Candle} (hroom : series.isFull = false)
    (hkept : wide.kept = series.kept) (hcap : series.cap ≤ wide.cap) :
    wide.isFull = false ∧ wide.size = series.size := by
  have hshort := of_decide_eq_false hroom
  constructor
  · apply decide_eq_false
    rw [hkept]
    omega
  · unfold size
    rw [hkept]
    omega

/-- A full series hands out the first records of every series that begins with what it holds. -/
theorem result_eq_take_of_isFull {series wide : Series Candle} (hfull : series.isFull = true)
    (hkept : series.kept <+: wide.kept) (hcap : series.cap ≤ wide.cap) :
    series.result = wide.result.take series.cap := by
  obtain ⟨later, hlater⟩ := hkept
  have hlength : series.cap ≤ series.kept.length := of_decide_eq_true hfull
  unfold result
  rw [← hlater, List.take_take, Nat.min_eq_left hcap, List.take_append_of_le_length hlength]

/-- Series that hold the same hand out the same records, up to the smaller cap. -/
theorem result_eq_take {series wide : Series Candle} (hkept : wide.kept = series.kept)
    (hcap : series.cap ≤ wide.cap) : series.result = wide.result.take series.cap := by
  unfold result
  rw [hkept, List.take_take, Nat.min_eq_left hcap]

end Series

/-- What a run comes to, next to what a run with a larger cap comes to. Either the first one has
made the first calls of the second one and hands out its first records, or both end with the same
failure and after the same calls. -/
inductive Curtailed (calls calls' : List PageCall) (cap : Nat) :
    Except Stop (Series Candle) → Except Stop (Series Candle) → Prop
  | returned {final outcome'} :
      calls <+: calls' → (∀ final', outcome' = .ok final' → final.result = final'.result.take cap) →
      Curtailed calls calls' cap (.ok final) outcome'
  | failed {stop} : calls' = calls → Curtailed calls calls' cap (.error stop) (.error stop)

/-- Series that hold the same, after the same calls. -/
theorem Curtailed.of_kept_eq {calls calls' : List PageCall} {series wide : Series Candle}
    (hcalls : calls' = calls) (hkept : wide.kept = series.kept) (hcap : series.cap ≤ wide.cap) :
    Curtailed calls calls' series.cap (.ok series) (.ok wide) := by
  refine .returned (hcalls ▸ List.prefix_rfl) ?_
  rintro _ ⟨⟩
  exact Series.result_eq_take hkept hcap

namespace FetchJob

variable {job : FetchJob} {conduct narrow broad : Conduct}

/-- A run only adds to what its series holds, and never changes the cap. -/
theorem Run.kept_prefix {fuel : Nat} {next : Option Int} {series final : Series Candle}
    {before after : Transcript} {outcome : Except Stop (Series Candle)}
    (h : Run conduct job fuel next series before outcome after) (houtcome : outcome = .ok final) :
    series.kept <+: final.kept ∧ final.cap = series.cap := by
  induction h with
  | finished =>
      cases houtcome
      exact ⟨List.prefix_rfl, rfl⟩
  | spent =>
      cases houtcome
      exact ⟨List.prefix_rfl, rfl⟩
  | full hfull =>
      cases houtcome
      exact ⟨List.prefix_rfl, rfl⟩
  | cancelled hfull hwish => cases houtcome
  | failed hfull hwish hpage => cases houtcome
  | unreadable hfull hwish hpage hread => cases houtcome
  | absorbed hfull hwish hpage hread hrun ih =>
      obtain ⟨hlater, hcap⟩ := ih houtcome
      exact ⟨(List.prefix_append _ _).trans hlater, hcap⟩

theorem Run.calls_prefix {fuel : Nat} {next : Option Int} {series : Series Candle}
    {before after : Transcript} {outcome : Except Stop (Series Candle)}
    (h : Run conduct job fuel next series before outcome after) : before.calls <+: after.calls :=
  h.prefix.filterMap _

section Compare

variable {fuel : Nat} {next : Option Int} {series wide : Series Candle}
  {before before' after after' : Transcript} {outcome outcome' : Except Stop (Series Candle)}

/-- If the attempts for a chunk end up with the same answer after the same calls, and the runs that
follow on them compare, then so do the runs that begin with the attempts. -/
theorem Aftermath.curtailed {start : Int}
    {few : Attempts narrow (job.pageCall (job.plan.chunkAt start)) job.maxRetries.toNat}
    {many : Attempts broad (job.pageCall (job.plan.chunkAt start)) job.maxRetries.toNat}
    (h : Aftermath narrow job fuel start series before few outcome after)
    (h' : Aftermath broad job fuel start wide before' many outcome' after')
    (hfinal : many.final = few.final) (hattempts : many.events.calls = few.events.calls)
    (hcalls : before'.calls = before.calls) (hsize : wide.size = series.size)
    (hrest : ∀ {candles : List Candle} {middle middle' : Transcript},
      Run narrow job fuel (job.plan.after? start) (series.add candles) middle outcome after →
      Run broad job fuel (job.plan.after? start) (wide.add candles) middle' outcome' after' →
      middle'.calls = middle.calls →
      Curtailed after.calls after'.calls series.cap outcome outcome') :
    Curtailed after.calls after'.calls series.cap outcome outcome' := by
  have hbetween : (before' ++ many.events).calls = (before ++ few.events).calls := by
    rw [Transcript.calls_append, Transcript.calls_append, hcalls, hattempts]
  cases h with
  | stopped hstop houtcome hafter =>
      cases h' with
      | stopped hstop' houtcome' hafter' =>
          rw [hfinal, hsize, hstop] at hstop'
          cases hstop'
          rw [houtcome, houtcome']
          refine .failed ?_
          rw [hafter, hafter', hbetween]
      | merged hcandles' hrun' =>
          rw [hfinal, hsize, hstop] at hcandles'
          cases hcandles'
  | merged hcandles hrun =>
      cases h' with
      | stopped hstop' houtcome' hafter' =>
          rw [hfinal, hsize, hcandles] at hstop'
          cases hstop'
      | merged hcandles' hrun' =>
          rw [hfinal, hsize, hcandles] at hcandles'
          cases hcandles'
          refine hrest hrun hrun' ?_
          rw [Transcript.calls_append _ [_], Transcript.calls_append _ [_], hbetween]
          rfl

/-- A run, compared with a run from the same point that has the same answers and a larger cap. -/
theorem Run.curtailed {answer : PageCall → PageAnswer}
    (hrun : Run narrow job fuel next series before outcome after)
    (hrun' : Run broad job fuel next wide before' outcome' after')
    (hnarrow : ∀ call reply, narrow.answers call reply → reply = answer call)
    (hbroad : ∀ call reply, broad.answers call reply → reply = answer call)
    (hnarrowCalm : ∀ before, ¬ narrow.wishes before true)
    (hbroadCalm : ∀ before, ¬ broad.wishes before true)
    (hcalls : before'.calls = before.calls) (hkept : wide.kept = series.kept)
    (hcap : series.cap ≤ wide.cap) :
    Curtailed after.calls after'.calls series.cap outcome outcome' := by
  induction fuel generalizing next series wide before before' with
  | zero =>
      cases next with
      | none =>
          obtain ⟨rfl, rfl⟩ := hrun.of_none
          obtain ⟨rfl, rfl⟩ := hrun'.of_none
          exact .of_kept_eq hcalls hkept hcap
      | some start =>
          cases hrun
          cases hrun'
          exact .of_kept_eq hcalls hkept hcap
  | succ fuel ih =>
      cases next with
      | none =>
          obtain ⟨rfl, rfl⟩ := hrun.of_none
          obtain ⟨rfl, rfl⟩ := hrun'.of_none
          exact .of_kept_eq hcalls hkept hcap
      | some start =>
          cases hroom : series.isFull with
          | true =>
              -- From here on only the other run goes on.
              obtain ⟨rfl, rfl⟩ := hrun.of_full hroom
              refine .returned (hcalls ▸ hrun'.calls_prefix) fun final' hfinal' => ?_
              obtain ⟨hlater, hwide⟩ := hrun'.kept_prefix hfinal'
              exact Series.result_eq_take_of_isFull hroom (hkept ▸ hlater) (hwide ▸ hcap)
          | false =>
              obtain ⟨hroom', hsize⟩ := Series.room_of_cap_le hroom hkept hcap
              rcases job.announcement_cases (job.plan.chunkAt start) with
                hannounced | ⟨fault, hfault⟩
              · obtain ⟨few, hchunk⟩ := hrun.exists_attempts hroom hnarrowCalm hannounced
                obtain ⟨many, hchunk'⟩ := hrun'.exists_attempts hroom' hbroadCalm hannounced
                obtain ⟨hfew, hfewCalls⟩ := few.calls_of_single (hnarrow _)
                obtain ⟨hmany, hmanyCalls⟩ := many.calls_of_single (hbroad _)
                refine hchunk.curtailed hchunk' (hmany.trans hfew.symm)
                  (hmanyCalls.trans hfewCalls.symm) hcalls hsize ?_
                intro candles middle middle' hrest hrest' hmiddle
                have hadd : (wide.add candles).kept = (series.add candles).kept := by
                  rw [kept_add_eq_extend, kept_add_eq_extend, hkept]
                change Curtailed after.calls after'.calls (series.add candles).cap outcome outcome'
                exact ih hrest hrest' hmiddle hadd hcap
              · obtain ⟨rfl, rfl⟩ := hrun.of_unannounced hroom (hnarrowCalm _) (hfault 1)
                obtain ⟨rfl, rfl⟩ := hrun'.of_unannounced hroom' (hbroadCalm _) (hfault 1)
                exact .failed hcalls

end Compare

end FetchJob

variable {σ σ' τ τ' : Type} [TimeNumber τ] [TimeNumber τ']

/-- A cap only cuts off. Let two exchanges give every call the same answer, and let nobody cancel.
If a fetch with the larger cap hands out a series, one with the smaller cap hands out its first
records. The calls of the latter are the first calls of the former, and if the latter fails, so does
the former, in the same way and after the same calls. -/
theorem tracedFetch_take (answer : PageCall → PageAnswer)
    (narrow : Venue τ (StateM σ)) (hnarrow : ∀ call world, (narrow.call call world).1 = answer call)
    (hnarrowCalm : ∀ world, (narrow.cancelRequested world).1 = false)
    (broad : Venue τ' (StateM σ')) (hbroad : ∀ call world, (broad.call call world).1 = answer call)
    (hbroadCalm : ∀ world, (broad.cancelRequested world).1 = false)
    (maxRetries : Int) (request : Request) (range : DateRange) (cap cap' : Int)
    (hcap : 1 ≤ cap) (hcap' : cap ≤ cap') (spacing : Spacing τ) (spacing' : Spacing τ')
    (world : σ) (world' : σ') :
    let short := tracedFetch narrow.recorded maxRetries request range cap spacing world
    let long := tracedFetch broad.recorded maxRetries request range cap' spacing' world'
    (∀ candles, long.1 = .ok candles → short.1 = .ok (candles.take cap.toNat)) ∧
      short.2.calls <+: long.2.calls ∧
      ∀ stop, short.1 = .error stop → long.1 = .error stop ∧ long.2.calls = short.2.calls := by
  intro short long
  obtain ⟨series, hseries, hempty, hseriesCap⟩ := Series.make_isOk Candle hcap
  obtain ⟨wide, hwide, hwideEmpty, hwideCap⟩ := Series.make_isOk Candle (hcap.trans hcap')
  obtain ⟨plan, hplan, -, -, -⟩ := Plan.make_isOk range request.interval request.one_le_limit
  by_cases hopens : plan.Announceable
  · obtain ⟨outcome, hrun, hresult⟩ := narrow.recorded_records.tracedFetch
      hplan hseries hopens maxRetries spacing world
    obtain ⟨outcome', hrun', hresult'⟩ := broad.recorded_records.tracedFetch
      hplan hwide hopens maxRetries spacing' world'
    have hcaps : series.cap ≤ wide.cap := by omega
    have hcurtailed : Curtailed short.2.calls long.2.calls series.cap outcome outcome' := by
      apply hrun.curtailed hrun'
      case hnarrow =>
        rintro call _ ⟨world, rfl⟩
        exact hnarrow call world
      case hbroad =>
        rintro call _ ⟨world, rfl⟩
        exact hbroad call world
      case hnarrowCalm => exact narrow.not_wishes_conduct hnarrowCalm
      case hbroadCalm => exact broad.not_wishes_conduct hbroadCalm
      case hcalls => rfl
      case hkept => rw [hempty, hwideEmpty]
      case hcap => exact hcaps
    have hshort : short.1 = outcome.map Series.result := hresult
    have hlong : long.1 = outcome'.map Series.result := hresult'
    rw [hshort, hlong, ← hseriesCap]
    cases hcurtailed with
    | @returned final outcome' hcalls hfinal =>
        refine ⟨fun candles hcandles => ?_, hcalls, nofun⟩
        cases outcome' with
        | error stop => cases hcandles
        | ok final' =>
            cases hcandles
            exact congrArg Except.ok (hfinal final' rfl)
    | failed hcalls =>
        refine ⟨nofun, hcalls ▸ List.prefix_rfl, ?_⟩
        rintro _ ⟨⟩
        exact ⟨rfl, hcalls⟩
  · have hunbegun : Unbegun request range cap .tooManyDigits := .announcement hplan hseries hopens
    have hunbegun' : Unbegun request range cap' .tooManyDigits := .announcement hplan hwide hopens
    have hshort : short = (.error (.broke .tooManyDigits), []) :=
      hunbegun.tracedFetch_eq narrow.recorded_records maxRetries spacing world
    have hlong : long = (.error (.broke .tooManyDigits), []) :=
      hunbegun'.tracedFetch_eq broad.recorded_records maxRetries spacing' world'
    rw [hshort, hlong]
    exact ⟨nofun, List.prefix_rfl, fun stop hstop => ⟨hstop, rfl⟩⟩

/-- The page of the first minute shows three bars in no order, two of them twice and some not in
that minute; a later page adds another bar, and the minute after that is never to be had. -/
def overshootingAnswers (call : PageCall) : PageAnswer :=
  if call.start = 0 then
    .page (.list ([60000, 0, 30000, 0, 60000].map Market.single.row))
  else if call.start = 60000 then .page (.list [Market.single.row 60000, Market.single.row 90000])
  else .failed (.transient "busy")

theorem tracedFetch_take_overshooting :
    let request : Request := ⟨"BTCUSDT", .minutes1, .linear, 1, by decide⟩
    let venue := Venue.steady overshootingAnswers
    let range : DateRange := ⟨0, 240000, by decide⟩
    let short := tracedFetch venue.recorded 1 request range 2 ⟨.zero, none⟩ ()
    let long := tracedFetch venue.recorded 1 request range 4 ⟨.zero, none⟩ ()
    ((∀ candles, long.1 = .ok candles → short.1 = .ok (candles.take 2)) ∧
      short.2.calls <+: long.2.calls ∧
      ∀ stop, short.1 = .error stop → long.1 = .error stop ∧ long.2.calls = short.2.calls) ∧
    long.1.toOption.map (List.map openTime) = some [0, 30000, 60000, 90000] ∧
    short.1.toOption.map (List.map openTime) = some [0, 30000] := by
  refine ⟨?_, by decide +kernel, by decide +kernel⟩
  apply tracedFetch_take overshootingAnswers
  case hnarrow => exact fun _ _ => rfl
  case hnarrowCalm => exact fun _ => rfl
  case hbroad => exact fun _ _ => rfl
  case hbroadCalm => exact fun _ => rfl
  case hcap => decide
  case hcap' => decide

end CandleHistory
