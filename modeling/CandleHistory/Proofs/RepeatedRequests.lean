import CandleHistory.Proofs.Cancellation
import CandleHistory.Proofs.OutcomeSequence
import CandleHistory.Proofs.ServedSeries
import Mathlib

/-!
How often the program sends the request for a chunk. Its world may be any world, but for the
network, which gives the outcomes of a sequence one after another. A request is sent again as long
as its outcomes pass and attempts are left, and it is the last of its outcomes that decides what
comes of the fetch.
-/

namespace CandleHistory

namespace Client

theorem ensureOpen_address (client : Client) : client.ensureOpen.address = client.address := by
  unfold ensureOpen
  split <;> rfl

theorem request_eq_of_address {client other : Client} (h : client.address = other.address)
    (query : KlineQuery) : client.request query = other.request query := by
  unfold request
  rw [h]

/-- Requests for calls with different starts differ. -/
theorem start_eq_of_request_eq {client : Client} {call other : PageCall}
    (h : client.request (Program.query call) = client.request (Program.query other)) :
    call.start = other.start := by
  have hparameters := congrArg HttpRequest.parameters h
  simp only [request, KlineQuery.parameters, Program.query, List.cons.injEq, Prod.mk.injEq]
    at hparameters
  exact Int.repr_injective hparameters.2.2.2.1.2

end Client

namespace Program

variable {σ α : Type}

/-- Does something, and leaves a list of requests beside it alone. -/
def besideRequests (act : StateM σ α) : StateM (σ × List HttpRequest) α :=
  fun state => ((act state.1).1, (act state.1).2, state.2)

/-- The world with another network, which answers one request after another with the outcomes of a
sequence and keeps all requests. Nobody wishes to cancel in it. -/
def World.withOutcomes (world : World (StateM σ)) (outcomes : Nat → Reply) :
    World (StateM (σ × List HttpRequest)) where
  now := besideRequests world.now
  sleep seconds := besideRequests (world.sleep seconds)
  send request := fun state =>
    ({ reply := outcomes state.2.length }, state.1, state.2 ++ [request])
  wallTime := besideRequests world.wallTime
  print text := besideRequests (world.print text)
  complain text := besideRequests (world.complain text)
  logLine line := besideRequests (world.logLine line)

section Outcomes

variable (world : World (StateM σ)) (outcomes : Nat → Reply) (threshold : Nat)

theorem log_withOutcomes (record : LogRecord) (state : σ × List HttpRequest) :
    ((world.withOutcomes outcomes).log threshold record state).2.2 = state.2 := by
  unfold World.log
  split <;> rfl

theorem forM_log_withOutcomes (records : List LogRecord) (memory : Memory)
    (state : σ × List HttpRequest) :
    let logged := (records.forM fun record =>
      (liftM ((world.withOutcomes outcomes).log threshold record) :
        StateT Memory (StateM (σ × List HttpRequest)) Unit)) memory state
    logged.1.2 = memory ∧ logged.2.2 = state.2 := by
  induction records generalizing state with
  | nil => exact ⟨rfl, rfl⟩
  | cons record records ih =>
      obtain ⟨hmemory, hsent⟩ := ih ((world.withOutcomes outcomes).log threshold record state).2
      exact ⟨hmemory, hsent.trans (log_withOutcomes world outcomes threshold record state)⟩

/-- A call for a page sends one request, reads the next outcome and leaves a session open. -/
theorem callPage_withOutcomes (call : PageCall) (memory : Memory) (state : σ × List HttpRequest) :
    let reply := callPage (world.withOutcomes outcomes) threshold call memory state
    reply.1.1 = (outcomes state.2.length).read.result ∧
      reply.1.2 = { memory with client := memory.client.ensureOpen } ∧
      reply.2.2 = state.2 ++ [memory.client.ensureOpen.request (query call)] := by
  refine ⟨callPage_result _ _ _ _ _, ?_⟩
  exact forM_log_withOutcomes world outcomes threshold _ _ _

end Outcomes

/-- What a transcript has to do with the state of such a world: the requests are those for its
calls, its answers are read off the outcomes, and nobody wishes to cancel. -/
structure Follows (client : Client) (outcomes : Nat → Reply)
    (state : Memory × σ × List HttpRequest) (transcript : Transcript) : Prop where
  calm : state.1.cancelRequested = false
  address : state.1.client.address = client.address
  sent : state.2.2 = transcript.calls.map fun call => client.request (query call)
  reads : transcript.Reads outcomes

/-- The second of two computations does what the first one does, with a transcript beside it that
follows. -/
def following (σ : Type) (client : Client) (outcomes : Nat → Reply) :
    Coupling (StateM (Memory × σ × List HttpRequest))
      (StateM ((Memory × σ × List HttpRequest) × Transcript)) where
  rel plain noted := ∀ state transcript, Follows client outcomes state transcript →
    (noted (state, transcript)).1 = (plain state).1 ∧
      (noted (state, transcript)).2.1 = (plain state).2 ∧
      Follows client outcomes (plain state).2 (noted (state, transcript)).2.2
  pure _ _ _ h := ⟨rfl, rfl, h⟩
  bind {_ _ x y f g} hxy hfg state transcript h := by
    obtain ⟨hvalue, hstate, hfollows⟩ := hxy state transcript h
    have hnext := hfg (x state).1 (x state).2 (y (state, transcript)).2.2 hfollows
    have hbetween : (y (state, transcript)).2 =
        ((x state).2, (y (state, transcript)).2.2) := Prod.ext hstate rfl
    have hsecond : (y >>= g) (state, transcript) =
        g (x state).1 ((x state).2, (y (state, transcript)).2.2) := by
      rw [← hvalue, ← hbetween]
      rfl
    rw [hsecond]
    exact hnext

section Following

variable (world : World (StateM σ)) (outcomes : Nat → Reply) (threshold : Nat) (client : Client)

/-- What leaves the memory and the requests alone is followed by events without a call. -/
theorem following_silent {act : StateM (Memory × σ × List HttpRequest) α}
    (h : ∀ state, (act state).2.1 = state.1 ∧ (act state).2.2.2 = state.2.2) {events : Transcript}
    (hevents : events.calls = []) :
    (following σ client outcomes).rel act (Transcript.noting (fun _ => events) act) := by
  intro state transcript hfollows
  obtain ⟨hmemory, hsent⟩ := h state
  refine ⟨rfl, rfl, ?_⟩
  constructor
  case calm => exact hmemory ▸ hfollows.calm
  case address => exact hmemory ▸ hfollows.address
  case sent =>
    change (act state).2.2.2 = (transcript ++ events).calls.map _
    rw [hsent, hfollows.sent, Transcript.calls_append, hevents, List.append_nil]
  case reads => exact hfollows.reads.append_of_calls_eq_nil hevents

theorem following_call (call : PageCall) :
    (following σ client outcomes).rel
      (jointly (callPage (world.withOutcomes outcomes) threshold call))
      (Transcript.noting (fun answer => [.called call answer])
        (jointly (callPage (world.withOutcomes outcomes) threshold call))) := by
  intro state transcript hfollows
  obtain ⟨hresult, hmemory, hsent⟩ :=
    callPage_withOutcomes world outcomes threshold call state.1 state.2
  have hlength : state.2.2.length = transcript.calls.length := by
    rw [hfollows.sent, List.length_map]
  refine ⟨rfl, rfl, ?_⟩
  constructor
  case calm =>
    change (callPage (world.withOutcomes outcomes) threshold call state.1
      state.2).1.2.cancelRequested = false
    rw [hmemory]
    exact hfollows.calm
  case address =>
    change (callPage (world.withOutcomes outcomes) threshold call state.1
      state.2).1.2.client.address = _
    rw [hmemory]
    exact state.1.client.ensureOpen_address.trans hfollows.address
  case sent =>
    change (callPage (world.withOutcomes outcomes) threshold call state.1 state.2).2.2 =
      (transcript ++ [_]).calls.map _
    have hopen : state.1.client.ensureOpen.address = client.address :=
      state.1.client.ensureOpen_address.trans hfollows.address
    rw [hsent, hfollows.sent, Transcript.calls_append, List.map_append,
      Client.request_eq_of_address hopen]
    rfl
  case reads =>
    change Transcript.Reads outcomes (transcript ++ [.called call
      (callPage (world.withOutcomes outcomes) threshold call state.1 state.2).1.1])
    rw [hresult, hlength]
    exact hfollows.reads.append_called call

/-- A fetch in such a world is followed by its transcript when it is left alone. -/
theorem jointVenue_followed (level : Level) :
    (jointVenue (world.withOutcomes outcomes) threshold level).Coupled
      (following σ client outcomes)
      (jointVenue (world.withOutcomes outcomes) threshold level).leftAlone where
  now := following_silent outcomes client (fun _ => ⟨rfl, rfl⟩) rfl
  sleep _ := following_silent outcomes client (fun _ => ⟨rfl, rfl⟩) rfl
  log record := following_silent outcomes client
    (fun state => ⟨rfl, log_withOutcomes world outcomes threshold record state.2⟩) rfl
  call := following_call world outcomes threshold client
  cancelRequested _ _ hfollows := ⟨hfollows.calm.symm, rfl, hfollows⟩
  report _ := following_silent outcomes client
    (fun state => ⟨rfl, log_withOutcomes world outcomes threshold _ state.2⟩) rfl

end Following

/-- What the last outcome of the requests for a chunk means for the fetch. If it passes, there are
no attempts left, and the fetch aborts with it; if it refuses the request, the fetch aborts with its
code. In both cases nothing more is sent. If it is neither, it is at most a row that makes the fetch
abort before more is sent. -/
structure Decides (final : Reply) (result : Except Stop (List Candle)) (later : List HttpRequest) :
    Prop where
  passing : final.isPassing = true →
    later = [] ∧ ∃ message held, result = .error (.aborted (.transient message) held)
  refused : final.isPassing = false → ∀ code, final.refusalCode? = some code →
    later = [] ∧ ∃ message held, result = .error (.aborted (.rejected code message) held)
  delivered : final.isPassing = false → final.refusalCode? = none → later = [] →
    ∀ reason held, result = .error (.aborted reason held) → ∃ fault, reason = .malformed fault

/-- A request is sent some times one after another and never again: once more than its outcomes
pass, as far as the budget allows. The last of its outcomes decides. -/
def RepeatedWhilePassing (outcomes : Nat → Reply) (budget : Nat)
    (result : Except Stop (List Candle)) (requests : List HttpRequest) (request : HttpRequest) :
    Prop :=
  ∃ earlier later count, count = min budget (1 + leadingPassing outcomes earlier.length budget) ∧
    requests = earlier ++ List.replicate count request ++ later ∧
    request ∉ earlier ∧ request ∉ later ∧
    Decides (outcomes (earlier.length + count - 1)) result later

section Repetition

variable {client : Client} {outcomes : Nat → Reply} {conduct : Conduct} {job : FetchJob}

/-- The final answer to attempts is the reading of an outcome, and what it does is what the outcome
decides. -/
theorem decides_of_reads (hplain : ∀ number, (outcomes number).Plain) {fuel : Nat}
    {next : Option Int} {series : Series Candle} {after : Transcript}
    {outcome : Except Stop (Series Candle)}
    (h : FetchJob.Run conduct job fuel next series [] outcome after) {call : PageCall}
    {earlier later : Transcript} (attempts : Attempts conduct call job.maxRetries.toNat)
    (hafter : after = earlier ++ attempts.events ++ later)
    {number : Nat} (hfinal : attempts.final = (outcomes number).read.result)
    (hends : ∀ reason, attempts.final = .failed reason →
      later = [] ∧ ∃ held, outcome = .error (.aborted reason held)) :
    Decides (outcomes number) (outcome.map Series.result)
      (later.calls.map fun call => client.request (query call)) := by
  have hfailed {reason : PageError} (hreason : (outcomes number).read.result = .failed reason) :
      (later.calls.map fun call => client.request (query call)) = [] ∧
        ∃ held, outcome.map Series.result = .error (.aborted reason held) := by
    obtain ⟨rfl, held, rfl⟩ := hends reason (hfinal.trans hreason)
    exact ⟨rfl, held, rfl⟩
  constructor
  case passing =>
    intro hpassing
    rw [← Reply.read_isTransient] at hpassing
    obtain ⟨message, hmessage⟩ := PageAnswer.exists_of_isTransient hpassing
    obtain ⟨hlater, held, hresult⟩ := hfailed hmessage
    exact ⟨hlater, message, held, hresult⟩
  case refused =>
    intro hpassing code hcode
    have hsettles := Reply.read_settles (hplain number) hpassing
    rw [hcode] at hsettles
    obtain ⟨message, hmessage⟩ := hsettles
    obtain ⟨hlater, held, hresult⟩ := hfailed hmessage
    exact ⟨hlater, message, held, hresult⟩
  case delivered =>
    intro hpassing hcode hlater reason held hresult
    have hsettles := Reply.read_settles (hplain number) hpassing
    rw [hcode] at hsettles
    obtain ⟨rows, hrows⟩ := hsettles
    cases outcome with
    | ok series => cases hresult
    | error stop =>
        cases hresult
        -- The attempts have ended with a page, so it is no failed call that the run ends with.
        rcases h.of_aborted rfl with hmalformed | ⟨front, other, hlast⟩
        · exact hmalformed
        · exact absurd (hafter.symm.trans hlast)
            (attempts.not_ends_with_failure (hfinal.trans hrows) (List.map_eq_nil_iff.mp hlater)
              _ _ _)

/-- The requests of a run that is followed by its transcript. -/
theorem repeatedWhilePassing_of_run (hplain : ∀ number, (outcomes number).Plain)
    (hcalm : ∀ before, ¬ conduct.wishes before true) {series : Series Candle}
    {after : Transcript} {outcome : Except Stop (Series Candle)}
    (h : FetchJob.Run conduct job job.plan.range.length job.plan.first? series [] outcome after)
    (hreads : after.Reads outcomes) {call : PageCall} (hcall : call ∈ after.calls) :
    (∃ chunk ∈ job.plan.chunks, call = job.pageCall chunk) ∧
      RepeatedWhilePassing outcomes job.budget (outcome.map Series.result)
        (after.calls.map fun call => client.request (query call))
        (client.request (query call)) := by
  refine ⟨h.exists_chunk hcall, ?_⟩
  obtain ⟨earlier, later, attempts, hafter, hbefore, hbehind, hends⟩ :=
    h.exists_attempts_of_mem hcalm nofun hcall List.not_mem_nil
  rw [hafter] at hreads
  have hother {calls : List PageCall} (hdiffer : ∀ other ∈ calls, other.start ≠ call.start) :
      client.request (query call) ∉ calls.map fun call => client.request (query call) := by
    intro hmem
    obtain ⟨other, hin, heq⟩ := List.mem_map.mp hmem
    exact hdiffer other hin (Client.start_eq_of_request_eq heq)
  refine ⟨earlier.calls.map fun call => client.request (query call),
    later.calls.map fun call => client.request (query call), attempts.failures.length + 1,
    ?_, ?_, ?_, ?_, ?_⟩
  · rw [List.length_map]
    exact attempts.length_of_reads hreads
  · rw [hafter, Transcript.calls_append, Transcript.calls_append, attempts.calls_events,
      List.map_append, List.map_append, List.map_replicate]
  · exact hother fun other hin => (hbefore other hin).ne
  · exact hother fun other hin => (hbehind other hin).ne'
  · rw [List.length_map]
    exact decides_of_reads hplain h attempts hafter (attempts.final_of_reads hreads) hends

end Repetition

section Fetch

variable (world : World (StateM σ)) (outcomes : Nat → Reply) (threshold : Nat) (level : Level)
  (client : Client) (maxRetries : Int) (request : Request) (range : DateRange) (maxRecords : Int)
  (spacing : Spacing Number.Binary64) (state : σ)

/-- What a fetch comes to if its requests have given outcomes, and the requests that it has sent. -/
def fetchWithOutcomes : Except Stop (List Candle) × List HttpRequest :=
  let reply := fetch (venue (world.withOutcomes outcomes) threshold level) maxRetries request range
    maxRecords spacing ⟨client, false⟩ (state, [])
  (reply.1.1.1, reply.2.2)

/-- Such a fetch next to one that keeps a transcript. -/
theorem fetchWithOutcomes_followed :
    let fetched := fetchWithOutcomes world outcomes threshold level client maxRetries request range
      maxRecords spacing state
    let run := tracedFetch (jointVenue (world.withOutcomes outcomes) threshold level).leftAlone
      maxRetries request range maxRecords spacing (⟨client, false⟩, state, [])
    run.1 = fetched.1 ∧ fetched.2 = (run.2.calls.map fun call => client.request (query call)) ∧
      run.2.Reads outcomes := by
  intro fetched run
  have hjoint := (joining (σ × List HttpRequest)).fetch
    (jointVenue_coupled (world.withOutcomes outcomes) threshold level) maxRetries request range
    maxRecords spacing
  have hfollowed := (following σ client outcomes).fetch
    (jointVenue_followed world outcomes threshold client level) maxRetries request range maxRecords
    spacing (⟨client, false⟩, state, []) [] ⟨rfl, rfl, rfl, rfl⟩
  rw [hjoint] at hfollowed
  obtain ⟨hresult, -, hfollows⟩ := hfollowed
  exact ⟨congrArg Prod.fst hresult, hfollows.sent, hfollows.reads⟩

/-- Exactly the outcomes that pass are followed by another attempt. Whatever the outcomes of the
requests are, and whatever else goes on in the world, every request that a fetch sends is for a
chunk of its plan, and it is sent again as long as its outcomes pass and the budget lasts. -/
theorem fetchWithOutcomes_repeatsPassing (hplain : ∀ number, (outcomes number).Plain) :
    let fetched := fetchWithOutcomes world outcomes threshold level client maxRetries request range
      maxRecords spacing state
    ∀ sent ∈ fetched.2,
      (∃ plan, Plan.make range request.interval request.limit = .ok plan ∧
        ∃ chunk ∈ plan.chunks,
          sent = client.request (query (FetchJob.pageCall ⟨request, plan, maxRetries⟩ chunk))) ∧
      RepeatedWhilePassing outcomes (max 1 (maxRetries + 1)).toNat fetched.1 fetched.2 sent := by
  intro fetched sent hsent
  obtain ⟨hresult, hrequests, hreads⟩ := fetchWithOutcomes_followed world outcomes threshold level
    client maxRetries request range maxRecords spacing state
  rw [hrequests] at hsent ⊢
  obtain ⟨call, hcall, rfl⟩ := List.mem_map.mp hsent
  rcases begins_or_unbegun request range maxRecords with
    ⟨plan, series, hplan, hseries, hopens⟩ | ⟨fault, hunbegun⟩
  · let joint := jointVenue (world.withOutcomes outcomes) threshold level
    obtain ⟨outcome, hrun, houtcome⟩ := joint.leftAlone_records.tracedFetch hplan hseries hopens
      maxRetries spacing (⟨client, false⟩, state, [])
    obtain ⟨⟨chunk, hchunk, heq⟩, hrepeated⟩ :=
      repeatedWhilePassing_of_run hplain joint.not_wishes_freeConduct hrun hreads hcall
    have hbudget : (max 1 (maxRetries + 1)).toNat =
        FetchJob.budget ⟨request, plan, maxRetries⟩ := by
      change (max 1 (maxRetries + 1)).toNat = maxRetries.toNat + 1
      omega
    refine ⟨⟨plan, hplan, chunk, hchunk,
      congrArg (fun call => client.request (query call)) heq⟩, ?_⟩
    rw [hbudget, ← hresult, houtcome]
    exact hrepeated
  · let joint := jointVenue (world.withOutcomes outcomes) threshold level
    rw [hunbegun.tracedFetch_eq joint.leftAlone_records] at hcall
    cases hcall

end Fetch

/-- A world in which time stands still and no connection lasts. -/
def World.still : World (StateM Unit) where
  now := pure .zero
  sleep _ := pure ()
  send _ := pure { reply := .lost "the time is up" }
  wallTime := pure default
  print _ := pure ()
  complain _ := pure ()
  logLine _ := pure ()

/-- A timeout, a server error, an object that says that there are too many requests, with a number
that is no integer by its kind, then a page, and then a refusal without a document. -/
def roughOutcomes : Nat → Reply
  | 0 => .lost "the time is up"
  | 1 => .response 503 (.undecodable "no document")
  | 2 => .response 200 (.decoded (.object [("retCode", .real (.ofInt 10006))]))
  | 3 => .response 200
      (.decoded (.object [("retCode", .integer 0), ("result", .object [("list", .list [])])]))
  | _ => .response 404 (.undecodable "no document")

theorem fetchWithOutcomes_repeatsPassing_rough :
    let client := Client.make Settings.testnetAddress Client.defaultTimeout
    let request : Request := ⟨"BTCUSDT", .minutes1, .linear, 1, by decide⟩
    let range : DateRange := ⟨0, 180000, by decide⟩
    let fetched := fetchWithOutcomes World.still roughOutcomes 50 .info client 3 request range 5
      ⟨.zero, none⟩ ()
    (∀ sent ∈ fetched.2,
      (∃ plan, Plan.make range request.interval request.limit = .ok plan ∧
        ∃ chunk ∈ plan.chunks,
          sent = client.request (query (FetchJob.pageCall ⟨request, plan, 3⟩ chunk))) ∧
      RepeatedWhilePassing roughOutcomes 4 fetched.1 fetched.2 sent) ∧
    fetched.2.length = 5 ∧
    (match fetched.1 with
      | .error (.aborted (.rejected code _) held) => code.equalsInt 404 && held == 0
      | _ => false) = true := by
  intro client request range fetched
  have hplain : ∀ number, (roughOutcomes number).Plain := by
    intro number
    rcases number with _ | _ | _ | _ | number
    · exact trivial
    · exact trivial
    · rfl
    · rfl
    · exact trivial
  refine ⟨?_, by decide +kernel, by decide +kernel⟩
  exact fetchWithOutcomes_repeatsPassing World.still roughOutcomes 50 .info client 3 request range 5
    ⟨.zero, none⟩ () hplain

end Program

end CandleHistory
