import CandleHistory.Proofs.FailingChunks
import CandleHistory.Proofs.Retries

/-!
How the calls of a fetch follow its plan, whatever the exchange answers and whoever cancels. Chunk
after chunk is asked for in the order of the plan, each with no more calls than there are attempts,
and only while there is room in the series. A series that comes of it holds nothing but what the
exchange has shown.
-/

namespace CandleHistory

/-- Calls that are made one after another, each of them once or some more times in a row, but not
more often than a budget allows. -/
inductive Repeated (budget : Nat) : List PageCall → List PageCall → Prop
  | nil : Repeated budget [] []
  | cons {call asked made repeats} :
      repeats < budget → Repeated budget asked made →
      Repeated budget (call :: asked) (List.replicate (repeats + 1) call ++ made)

namespace Repeated

variable {budget : Nat} {asked made : List PageCall}

theorem length_le (h : Repeated budget asked made) : made.length ≤ asked.length * budget := by
  induction h with
  | nil => exact Nat.zero_le _
  | cons hfew hmade ih =>
      rw [List.length_append, List.length_replicate, List.length_cons, Nat.succ_mul]
      omega

theorem subset (h : Repeated budget asked made) : made ⊆ asked := by
  induction h with
  | nil => exact List.Subset.refl _
  | cons hfew hmade ih =>
      intro call hcall
      rcases List.mem_append.mp hcall with hrepeat | hlater
      · rw [List.eq_of_mem_replicate hrepeat]
        exact List.mem_cons_self
      · exact List.mem_cons_of_mem _ (ih hlater)

/-- Without repetitions, the calls are those that were asked for. -/
theorem destutter_eq (h : Repeated budget asked made) (hdistinct : asked.Pairwise (· ≠ ·)) :
    made.destutter (· ≠ ·) = asked := by
  induction h with
  | nil => rfl
  | @cons call asked made repeats hfew hmade ih =>
      obtain ⟨hother, hrest⟩ := List.pairwise_cons.mp hdistinct
      have hnext : made.head? ≠ some call := by
        intro hhead
        exact hother call (hmade.subset (List.mem_of_head? hhead)) rfl
      rw [destutter_replicate_append repeats hnext, ih hrest]

end Repeated

/-- Every call was made while fewer records than a cap had been merged. -/
def Transcript.CallsWithRoom (interval : Interval) (cap : Nat) (transcript : Transcript) : Prop :=
  ∀ (earlier : Transcript) call answer, earlier ++ [.called call answer] <+: transcript →
    (earlier.collected interval).length < cap

namespace Transcript.CallsWithRoom

variable {interval : Interval} {cap : Nat} {transcript : Transcript}

theorem nil : CallsWithRoom interval cap [] := by
  intro earlier call answer hbegins
  exact absurd (List.prefix_nil.mp hbegins)
    (List.append_ne_nil_of_right_ne_nil _ (List.cons_ne_nil _ _))

theorem append_called (h : CallsWithRoom interval cap transcript)
    (hroom : (transcript.collected interval).length < cap) (call : PageCall)
    (answer : PageAnswer) : CallsWithRoom interval cap (transcript ++ [.called call answer]) := by
  intro earlier other reply hbegins
  rcases List.prefix_concat_iff.mp hbegins with heq | hearlier
  · obtain ⟨rfl, -⟩ := List.append_singleton_inj.mp heq
    exact hroom
  · exact h earlier other reply hearlier

theorem append_reported (h : CallsWithRoom interval cap transcript) (held : Nat) :
    CallsWithRoom interval cap (transcript ++ [.reported held]) := by
  intro earlier call answer hbegins
  rcases List.prefix_concat_iff.mp hbegins with heq | hearlier
  · cases (List.append_singleton_inj.mp heq).2
  · exact h earlier call answer hearlier

end Transcript.CallsWithRoom

/-- A candle is what some row of some page in a transcript is read as. -/
def Transcript.Shows (interval : Interval) (transcript : Transcript) (candle : Candle) : Prop :=
  ∃ call page rows, .called call (.page page) ∈ transcript ∧ page.elements? = some rows ∧
    ∃ row ∈ rows, Row.read interval row = .ok candle

namespace Transcript

variable {interval : Interval}

theorem shows_of_mem_candles {event : Event} {candle : Candle}
    (h : candle ∈ event.candles interval) : Shows interval [event] candle := by
  cases event with
  | reported held => cases h
  | called call answer =>
      cases answer with
      | failed reason => cases h
      | broke fault => cases h
      | page page =>
          change candle ∈ pageCandles interval page at h
          unfold pageCandles at h
          split at h
          case h_1 => cases h
          case h_2 rows helements =>
            split at h
            case h_1 candles hcandles =>
              exact ⟨call, page, rows, List.mem_cons_self, helements,
                Row.exists_read_of_mem hcandles h⟩
            all_goals cases h

/-- All records that have been merged are among those that were shown. -/
theorem shows_of_mem_collected {transcript : Transcript} {candle : Candle}
    (h : candle ∈ transcript.collected interval) : transcript.Shows interval candle := by
  induction transcript using List.reverseRecOn with
  | nil => cases h
  | append_singleton transcript event ih =>
      rw [collected_append_event] at h
      rcases List.mem_append.mp h with hold | hnew
      · obtain ⟨call, page, rows, hevent, hrows⟩ := ih hold
        exact ⟨call, page, rows, List.mem_append_left _ hevent, hrows⟩
      · obtain ⟨call, page, rows, hevent, hrows⟩ := shows_of_mem_candles (mem_of_mem_mergePage hnew)
        exact ⟨call, page, rows, List.mem_append_right _ hevent, hrows⟩

end Transcript

namespace FetchJob

variable {conduct : Conduct} {job : FetchJob}

/-- The page of a chunk is asked for some times in a row, at least once if it is had. -/
theorem PageRun.exists_repeats {chunk : Chunk} {held retries number : Nat}
    {before after : Transcript} {result : Except Stop Value}
    (h : PageRun conduct job chunk held retries number before result after) :
    ∃ repeats, after.calls = before.calls ++ List.replicate repeats (job.pageCall chunk) ∧
      repeats ≤ retries + 1 ∧ ∀ page, result = .ok page → 0 < repeats := by
  have hnever (retries : Nat) (before : Transcript) (stop : Stop) :
      ∃ repeats, before.calls = before.calls ++ List.replicate repeats (job.pageCall chunk) ∧
        repeats ≤ retries + 1 ∧
        ∀ page : Value, (.error stop : Except Stop Value) = .ok page → 0 < repeats :=
    ⟨0, (List.append_nil _).symm, Nat.zero_le _, nofun⟩
  have honce (retries : Nat) (before : Transcript) (answer : PageAnswer)
      (result : Except Stop Value) :
      ∃ repeats, Transcript.calls (before ++ [.called (job.pageCall chunk) answer]) =
          before.calls ++ List.replicate repeats (job.pageCall chunk) ∧
        repeats ≤ retries + 1 ∧ ∀ page, result = .ok page → 0 < repeats :=
    ⟨1, Transcript.calls_append _ _, Nat.le_add_left _ _, fun _ _ => Nat.one_pos⟩
  induction h with
  | cancelled hnumber hwish => exact hnever _ _ _
  | unannounced hwish hfault => exact hnever _ _ _
  | answered hattempt => exact honce _ _ _ _
  | broke hattempt => exact honce _ _ _ _
  | refused hattempt htransient => exact honce _ _ _ _
  | exhausted hattempt htransient => exact honce _ _ _ _
  | retried hattempt htransient hrun ih =>
      obtain ⟨repeats, hcalls, hfew, -⟩ := ih
      refine ⟨repeats + 1, ?_, Nat.succ_le_succ hfew, fun _ _ => Nat.succ_pos _⟩
      rw [hcalls, Transcript.calls_append, List.append_assoc]
      rfl

/-- The chunks that a run asks for are the next ones of the plan. It leaves none out if it ends
without a failure and with room in the series. -/
theorem Run.exists_asked {fuel : Nat} {next : Option Int} {series : Series Candle}
    {before after : Transcript} {outcome : Except Stop (Series Candle)}
    (h : Run conduct job fuel next series before outcome after) :
    ∃ asked left made, (job.plan.take fuel next).1 = asked ++ left ∧
      after.calls = before.calls ++ made ∧
      Repeated job.budget (asked.map job.pageCall) made ∧
      ∀ final, outcome = .ok final → final.isFull = false → left = [] := by
  -- The chunk at which a run stops with an error may have been called for, or not even that.
  have hchunk {fuel : Nat} {start : Int} {series : Series Candle} {before between : Transcript}
      {stop : Stop} {result : Except Stop Value}
      (hpage : PageRun conduct job (job.plan.chunkAt start) series.size job.maxRetries.toNat 1
        before result between) :
      ∃ asked left made, (job.plan.take (fuel + 1) (some start)).1 = asked ++ left ∧
        between.calls = before.calls ++ made ∧
        Repeated job.budget (asked.map job.pageCall) made ∧
        ∀ final, (.error stop : Except Stop (Series Candle)) = .ok final →
          final.isFull = false → left = [] := by
    obtain ⟨repeats, hcalls, hfew, -⟩ := hpage.exists_repeats
    cases repeats with
    | zero => exact ⟨[], _, [], rfl, hcalls, .nil, nofun⟩
    | succ repeats =>
        have hrepeated : Repeated job.budget [job.pageCall (job.plan.chunkAt start)]
            (List.replicate (repeats + 1) (job.pageCall (job.plan.chunkAt start)) ++ []) :=
          .cons hfew .nil
        rw [List.append_nil] at hrepeated
        exact ⟨[_], _, _, rfl, hcalls, hrepeated, nofun⟩
  induction h with
  | finished => exact ⟨[], [], [], Plan.take_none, (List.append_nil _).symm, .nil, fun _ _ _ => rfl⟩
  | spent => exact ⟨[], [], [], rfl, (List.append_nil _).symm, .nil, fun _ _ _ => rfl⟩
  | full hfull =>
      refine ⟨[], _, [], rfl, (List.append_nil _).symm, .nil, ?_⟩
      rintro final ⟨⟩ hroom
      rw [hfull] at hroom
      cases hroom
  | cancelled hfull hwish => exact ⟨[], _, [], rfl, (List.append_nil _).symm, .nil, nofun⟩
  | failed hfull hwish hpage => exact hchunk hpage
  | unreadable hfull hwish hpage hread => exact hchunk hpage
  | @absorbed fuel start series before page candles between result after hfull hwish hpage hread
      hrun ih =>
      obtain ⟨asked, left, made, htake, hcalls, hrepeated, hleft⟩ := ih
      obtain ⟨repeats, hbetween, hfew, hpos⟩ := hpage.exists_repeats
      obtain ⟨more, rfl⟩ : ∃ more, repeats = more + 1 :=
        ⟨repeats - 1, (Nat.succ_pred_eq_of_pos (hpos page rfl)).symm⟩
      refine ⟨job.plan.chunkAt start :: asked, left, _, ?_, ?_, .cons hfew hrepeated, hleft⟩
      · rw [Plan.take_succ, htake, List.cons_append]
      · rw [hcalls, Transcript.calls_append, Transcript.calls_reported, hbetween, List.append_nil,
          List.append_assoc]

/-- While a page is fetched nothing is merged, so there is room for every call if there was room in
the beginning. -/
theorem PageRun.callsWithRoom {chunk : Chunk} {held retries number : Nat}
    {before after : Transcript} {result : Except Stop Value} {interval : Interval} {cap : Nat}
    (h : PageRun conduct job chunk held retries number before result after)
    (hroom : (before.collected interval).length < cap)
    (hbefore : before.CallsWithRoom interval cap) : after.CallsWithRoom interval cap := by
  induction h with
  | cancelled hnumber hwish => exact hbefore
  | unannounced hwish hfault => exact hbefore
  | answered hattempt => exact hbefore.append_called hroom _ _
  | broke hattempt => exact hbefore.append_called hroom _ _
  | refused hattempt htransient => exact hbefore.append_called hroom _ _
  | exhausted hattempt htransient => exact hbefore.append_called hroom _ _
  | retried hattempt htransient hrun ih =>
      apply ih
      · rw [Transcript.collected_append_event]
        exact (congrArg List.length (extend_nil _)).trans_lt hroom
      · exact hbefore.append_called hroom _ _

theorem Run.callsWithRoom {fuel : Nat} {next : Option Int} {series : Series Candle}
    {before after : Transcript} {outcome : Except Stop (Series Candle)}
    (h : Run conduct job fuel next series before outcome after)
    (hkept : series.kept = before.collected job.request.interval)
    (hbefore : before.CallsWithRoom job.request.interval series.cap) :
    after.CallsWithRoom job.request.interval series.cap := by
  have hroom {series : Series Candle} {before : Transcript} (hfull : series.isFull = false)
      (hkept : series.kept = before.collected job.request.interval) :
      (before.collected job.request.interval).length < series.cap := by
    rw [← hkept]
    exact Nat.lt_of_not_le (of_decide_eq_false hfull)
  induction h with
  | finished => exact hbefore
  | spent => exact hbefore
  | full hfull => exact hbefore
  | cancelled hfull hwish => exact hbefore
  | failed hfull hwish hpage => exact hpage.callsWithRoom (hroom hfull hkept) hbefore
  | unreadable hfull hwish hpage hread => exact hpage.callsWithRoom (hroom hfull hkept) hbefore
  | absorbed hfull hwish hpage hread hrun ih =>
      apply ih (hpage.kept_add hread hkept)
      exact (hpage.callsWithRoom (hroom hfull hkept) hbefore).append_reported _

end FetchJob

/-- What it means that a fetch follows its plan. Without repetitions its calls are those for the
first chunks of the plan, and no chunk is asked for more often than there are attempts. A call lies
in the range and is made only while fewer records than the cap are held. A series is in strictly
ascending order, no longer than the cap, made of candles that were shown, and shorter than the cap
only if all chunks were asked for. -/
structure FollowsPlan (job : FetchJob) (cap : Nat)
    (run : Except Stop (List Candle) × Transcript) : Prop where
  calls_le : run.2.calls.length ≤ job.plan.chunks.length * (max 1 job.attempts).toNat
  calls_prefix : run.2.calls.destutter (· ≠ ·) <+: job.plan.chunks.map job.pageCall
  calls_inside : ∀ call ∈ run.2.calls, job.plan.range.start ≤ call.start ∧
    call.start ≤ call.last ∧ call.last < job.plan.range.stop ∧ call.limit = job.plan.cap
  room : run.2.CallsWithRoom job.request.interval cap
  ascending : ∀ candles, run.1 = .ok candles → Ascending candles
  length_le : ∀ candles, run.1 = .ok candles → candles.length ≤ cap
  shown : ∀ candles, run.1 = .ok candles →
    ∀ candle ∈ candles, run.2.Shows job.request.interval candle
  complete : ∀ candles, run.1 = .ok candles → candles.length < cap →
    run.2.calls.destutter (· ≠ ·) = job.plan.chunks.map job.pageCall

/-- A fetch that ends before its first call follows any plan. -/
theorem followsPlan_of_unbegun (job : FetchJob) (cap : Nat) (fault : Fault) :
    FollowsPlan job cap (.error (.broke fault), []) where
  calls_le := Nat.zero_le _
  calls_prefix := List.nil_prefix
  calls_inside := List.forall_mem_nil _
  room := .nil
  ascending := nofun
  length_le := nofun
  shown := nofun
  complete := nofun

namespace FetchJob

variable {conduct : Conduct} {job : FetchJob}

theorem pageCalls_pairwise_ne (job : FetchJob) :
    (job.plan.chunks.map job.pageCall).Pairwise (· ≠ ·) := by
  apply List.pairwise_map.mpr
  refine (job.plan.take_pairwise _ _).imp fun hlt heq => ?_
  have hstart := congrArg PageCall.start heq
  exact absurd hstart (Int.ne_of_lt hlt)

theorem Run.followsPlan {series : Series Candle} {after : Transcript}
    {outcome : Except Stop (Series Candle)}
    (h : Run conduct job job.plan.range.length job.plan.first? series [] outcome after)
    (hempty : series.kept = []) :
    FollowsPlan job series.cap (outcome.map Series.result, after) := by
  obtain ⟨asked, left, made, htake, hcalls, hrepeated, hleft⟩ := h.exists_asked
  have hchunks : job.plan.chunks.map job.pageCall =
      asked.map job.pageCall ++ left.map job.pageCall := by
    unfold Plan.chunks
    rw [htake, List.map_append]
  obtain rfl : after.calls = made := hcalls
  have hbegins : asked.map job.pageCall <+: job.plan.chunks.map job.pageCall :=
    hchunks ▸ List.prefix_append _ _
  have hdistinct := job.pageCalls_pairwise_ne.sublist hbegins.sublist
  have hcollapsed := hrepeated.destutter_eq hdistinct
  have hkept : ∀ final, outcome = .ok final →
      final.kept = after.collected job.request.interval ∧ final.cap = series.cap :=
    fun final => h.kept_of_ok hempty
  have hresult : ∀ candles, outcome.map Series.result = .ok candles → ∃ final,
      outcome = .ok final ∧ candles = (after.collected job.request.interval).take series.cap := by
    intro candles hcandles
    cases outcome with
    | error stop => cases hcandles
    | ok final =>
        obtain ⟨hheld, hcap⟩ := hkept final rfl
        cases hcandles
        exact ⟨final, rfl, by rw [Series.result, hheld, hcap]⟩
  constructor
  case calls_le =>
    have hfew := hrepeated.length_le
    have hasked := hbegins.length_le
    have hbudget : (max 1 job.attempts).toNat = job.budget := by
      unfold attempts budget
      omega
    rw [List.length_map] at hfew hasked
    rw [List.length_map] at hasked
    rw [hbudget]
    exact hfew.trans (Nat.mul_le_mul_right _ hasked)
  case calls_prefix =>
    rw [hcollapsed]
    exact hbegins
  case calls_inside =>
    intro call hcall
    obtain ⟨chunk, hchunk, rfl⟩ := List.mem_map.mp (hbegins.subset (hrepeated.subset hcall))
    obtain ⟨hfirst, horder, hlast, hlimit⟩ := Plan.inside_of_mem_take job.plan.within_first hchunk
    refine ⟨hfirst, ?_, ?_, hlimit⟩
    · change chunk.start ≤ chunk.stop - 1
      omega
    · change chunk.stop - 1 < job.plan.range.stop
      omega
  case room => exact h.callsWithRoom hempty .nil
  case ascending =>
    intro candles hcandles
    obtain ⟨final, -, rfl⟩ := hresult candles hcandles
    exact List.Pairwise.sublist (List.take_sublist _ _) (Transcript.collected_ascending after)
  case length_le =>
    intro candles hcandles
    obtain ⟨final, -, rfl⟩ := hresult candles hcandles
    exact List.length_take_le _ _
  case shown =>
    intro candles hcandles candle hmem
    obtain ⟨final, -, rfl⟩ := hresult candles hcandles
    exact Transcript.shows_of_mem_collected (List.mem_of_mem_take hmem)
  case complete =>
    intro candles hcandles hshort
    obtain ⟨final, hfinal, rfl⟩ := hresult candles hcandles
    obtain ⟨hheld, hcap⟩ := hkept final hfinal
    have hroom : final.isFull = false := by
      rw [List.length_take] at hshort
      apply decide_eq_false
      rw [hheld, hcap]
      omega
    rw [hcollapsed, hchunks, hleft final hfinal hroom, List.map_nil, List.append_nil]

end FetchJob

variable {σ τ : Type} [TimeNumber τ]

/-- Every fetch follows its plan, whatever the exchange answers, whoever cancels and whenever. -/
theorem tracedFetch_followsPlan (request : Request) (venue : Venue τ (StateM σ))
    (range : DateRange) (maxRecords : Int) (hrecords : 1 ≤ maxRecords)
    (maxRetries : Int) (spacing : Spacing τ) (world : σ) :
    ∃ plan, Plan.make range request.interval request.limit = .ok plan ∧
      FollowsPlan ⟨request, plan, maxRetries⟩ maxRecords.toNat
        (tracedFetch venue.recorded maxRetries request range maxRecords spacing world) := by
  obtain ⟨plan, hplan, rfl, -, -⟩ := Plan.make_isOk range request.interval request.one_le_limit
  obtain ⟨series, hseries, hempty, hcap⟩ := Series.make_isOk Candle hrecords
  refine ⟨plan, hplan, ?_⟩
  by_cases hopens : plan.Announceable
  · obtain ⟨outcome, hrun, hresult⟩ :=
      venue.recorded_records.tracedFetch hplan hseries hopens maxRetries spacing world
    have hfollows := hrun.followsPlan hempty
    rw [← hresult, hcap] at hfollows
    exact hfollows
  · have hunbegun : Unbegun request plan.range maxRecords .tooManyDigits :=
      .announcement hplan hseries hopens
    rw [hunbegun.tracedFetch_eq venue.recorded_records]
    exact followsPlan_of_unbegun _ _ _

/-- A page of bars in no order, one of them twice and none in the range, then an error that passes,
then a page with a bar that lies before those that are held, and one with a bar of the range. -/
def wildAnswers : Nat → PageAnswer
  | 0 =>
      .page (.list [Market.single.row 900000, Market.single.row (-60000), Market.single.row 900000])
  | 1 => .failed (.transient "busy")
  | 2 => .page (.list [Market.single.row 60000])
  | _ => .page (.list [Market.single.row 960000])

theorem tracedFetch_followsPlan_wild :
    let request : Request := ⟨"BTCUSDT", .minutes1, .linear, 1, by decide⟩
    let run := tracedFetch (Venue.inTurn wildAnswers).recorded 1 request ⟨0, 180000, by decide⟩ 5
      ⟨.zero, none⟩ 0
    (∃ plan, Plan.make ⟨0, 180000, by decide⟩ .minutes1 1 = .ok plan ∧
      FollowsPlan ⟨request, plan, 1⟩ 5 run) ∧
    run.2.calls.map PageCall.start = [0, 60000, 60000, 120000] ∧
    run.1.toOption.map (List.map openTime) = some [-60000, 900000, 960000] := by
  refine ⟨?_, by decide +kernel, by decide +kernel⟩
  exact tracedFetch_followsPlan ⟨"BTCUSDT", .minutes1, .linear, 1, by decide⟩
    (Venue.inTurn wildAnswers) ⟨0, 180000, by decide⟩ 5 (by decide) 1 ⟨.zero, none⟩ 0

end CandleHistory
