import CandleHistory.Proofs.RunningTotals
import CandleHistory.Proofs.Succeeds

/-!
Reports are one-way. Whether a report fails makes no difference to the fetch that made it, and a
fetch that makes none at all has the same calls and comes to the same. A failed report is noted in
the log, and the log is kept where the world cannot look at it. The one report that does make a
difference is one whose failure cannot be put in words: it cuts the fetch off.
-/

namespace CandleHistory

variable {σ τ α : Type}

/-- An action on the world beside which a log is kept. -/
def besideLog (act : StateM σ α) : StateM (σ × List LogRecord) α :=
  fun state => ((act state.1).1, (act state.1).2, state.2)

namespace Venue

/-- The venue whose log is kept beside the world. -/
def logged (venue : Venue τ (StateM σ)) : Venue τ (StateM (σ × List LogRecord)) where
  now := besideLog venue.now
  sleep delay := besideLog (venue.sleep delay)
  log record := fun state => ((), state.1, state.2 ++ [record])
  call call := besideLog (venue.call call)
  cancelRequested := besideLog venue.cancelRequested
  report held := besideLog (venue.report held)

/-- The venue with a transcript, at which it depends on what has happened so far whether a report
fails, and for which reason. What the report does to the world is left to the venue. -/
def failing (fails : Transcript → Nat → Option String) (venue : Venue τ (StateM σ)) :
    Venue τ (StateM (σ × Transcript)) :=
  { venue.recorded with
    report := fun held state =>
      (fails state.2 held, (venue.report held state.1).2, state.2 ++ [.reported held]) }

/-- What is left of the answers to reports without the failures that cannot be put in words. -/
def worded (fails : Transcript → Nat → Option (Except Fault String)) (before : Transcript)
    (held : Nat) : Option String :=
  (fails before held).bind Except.toOption

/-- The fault of a report that failed in a way that cannot be put in words. -/
def unworded (fails : Transcript → Nat → Option (Except Fault String)) (before : Transcript)
    (held : Nat) : Option Fault :=
  match fails before held with
  | some (.error fault) => some fault
  | _ => none

/-- The venue with a transcript, at which it depends on what has happened so far whether a report
fails, and whether the reason can be put in words. If it cannot, that is a fault. -/
def breaking (fails : Transcript → Nat → Option (Except Fault String))
    (venue : Venue τ (StateM σ)) : Venue τ (ExceptT Fault (StateM (σ × Transcript))) where
  now := liftM venue.recorded.now
  sleep delay := liftM (venue.recorded.sleep delay)
  log record := liftM (venue.recorded.log record)
  call call := liftM (venue.recorded.call call)
  cancelRequested := liftM venue.recorded.cancelRequested
  report held := fun state =>
    let after := ((venue.report held state.1).2, state.2 ++ [.reported held])
    match fails state.2 held with
    | none => (.ok none, after)
    | some (.ok reason) => (.ok (some reason), after)
    | some (.error fault) => (.error fault, after)

/-- The venue at which a report does nothing to the world. -/
def unmoved (venue : Venue τ (StateM σ)) : Venue τ (StateM σ) :=
  { venue with report := fun _ => pure none }

/-- The venue with a transcript, at which nobody takes reports. -/
def unwatched (venue : Venue τ (StateM σ)) : Venue τ (StateM (σ × Transcript)) :=
  { venue.recorded with report := fun _ => pure none }

end Venue

/-- Whether something was a call. -/
def Event.isCall : Event → Bool
  | called .. => true
  | reported _ => false

/-- A transcript without its reports. -/
def Transcript.unreported (transcript : Transcript) : Transcript := transcript.filter Event.isCall

/-- Two computations that do the same to the world and hand on the same, whatever their logs hold. A
view of the transcript of the first one is the transcript of the second one. -/
def overlooking (σ : Type) (view : Transcript → Transcript) :
    Coupling (StateM ((σ × List LogRecord) × Transcript))
      (StateM ((σ × List LogRecord) × Transcript)) where
  rel watched other := ∀ world log log' before,
    let reply := watched ((world, log), before)
    let reply' := other ((world, log'), view before)
    reply'.1 = reply.1 ∧ reply'.2.1.1 = reply.2.1.1 ∧ reply'.2.2 = view reply.2.2
  pure _ _ _ _ _ := ⟨rfl, rfl, rfl⟩
  bind {_ _ x y f g} hxy hfg world log log' before := by
    obtain ⟨hvalue, hworld, hview⟩ := hxy world log log' before
    have hstate : (y ((world, log'), view before)).2 =
        (((x ((world, log), before)).2.1.1, (y ((world, log'), view before)).2.1.2),
          view (x ((world, log), before)).2.2) := by
      rw [← hworld, ← hview]
    have hnext : (y >>= g) ((world, log'), view before) =
        g (x ((world, log), before)).1 (((x ((world, log), before)).2.1.1,
          (y ((world, log'), view before)).2.1.2), view (x ((world, log), before)).2.2) := by
      rw [← hvalue, ← hstate]
      rfl
    rw [hnext]
    exact hfg _ _ _ _ _

section Overlooking

variable {view : Transcript → Transcript} (venue : Venue τ (StateM σ))

/-- A quiet operation that does not look at the log is related to itself. -/
theorem overlooking_besideLog (act : StateM σ α) :
    (overlooking σ view).rel (Transcript.noting (fun _ => []) (besideLog act))
      (Transcript.noting (fun _ => []) (besideLog act)) := by
  intro world log log' before
  refine ⟨rfl, rfl, ?_⟩
  change view before ++ [] = view (before ++ [])
  rw [List.append_nil, List.append_nil]

theorem overlooking_log (record : LogRecord) :
    (overlooking σ view).rel (venue.logged.recorded.log record)
      (venue.logged.recorded.log record) := by
  intro world log log' before
  refine ⟨rfl, rfl, ?_⟩
  change view before ++ [] = view (before ++ [])
  rw [List.append_nil, List.append_nil]

theorem overlooking_call (hview : ∀ before call answer,
      view (before ++ [.called call answer]) = view before ++ [.called call answer])
    (call : PageCall) :
    (overlooking σ view).rel (venue.logged.recorded.call call)
      (venue.logged.recorded.call call) :=
  fun _ _ _ before => ⟨rfl, rfl, (hview before call _).symm⟩

/-- What a fetch makes of a report that may fail: it does to the world what the report does, and is
noted as one in the transcript. -/
theorem reportHeld_failing (fails : Transcript → Nat → Option String) (held : Nat)
    (world : σ) (log : List LogRecord) (before : Transcript) :
    ∃ log', FetchJob.reportHeld (venue.logged.failing fails) held ((world, log), before) =
      ((), ((venue.report held world).2, log'), before ++ [Event.reported held]) := by
  have hreport {β : Type} (next : Option String → StateM ((σ × List LogRecord) × Transcript) β) :
      ((venue.logged.failing fails).report held >>= next) ((world, log), before) =
        next (fails before held)
          (((venue.report held world).2, log), before ++ [Event.reported held]) := rfl
  unfold FetchJob.reportHeld
  rw [hreport]
  cases fails before held with
  | none => exact ⟨log, rfl⟩
  | some reason =>
      let grown := log ++ [⟨.warning, .fetch, s!"[FETCH] Progress sink error: {reason}"⟩]
      exact ⟨grown, congrArg (fun after => ((), ((venue.report held world).2, grown), after))
        (List.append_nil (before ++ [Event.reported held]))⟩

/-- Venues that differ only in which reports fail, and why. -/
theorem failing_attuned (fails fails' : Transcript → Nat → Option String) :
    (venue.logged.failing fails).Attuned (overlooking σ id) (venue.logged.failing fails') where
  now := overlooking_besideLog venue.now
  sleep delay := overlooking_besideLog (venue.sleep delay)
  log := overlooking_log venue
  call := overlooking_call venue fun _ _ _ => rfl
  cancelRequested := overlooking_besideLog venue.cancelRequested
  reportHeld held := by
    intro world log log' before
    obtain ⟨after, hafter⟩ := reportHeld_failing venue fails held world log before
    obtain ⟨after', hafter'⟩ := reportHeld_failing venue fails' held world log' (id before)
    dsimp only
    rw [hafter, hafter']
    exact ⟨rfl, rfl, rfl⟩

/-- A venue with reports that do nothing to the world, and one without reports. -/
theorem unwatched_attuned (fails : Transcript → Nat → Option String) :
    (venue.unmoved.logged.failing fails).Attuned (overlooking σ Transcript.unreported)
      venue.unmoved.logged.unwatched where
  now := overlooking_besideLog venue.now
  sleep delay := overlooking_besideLog (venue.sleep delay)
  log := overlooking_log venue.unmoved
  call := overlooking_call venue.unmoved fun _ _ _ => List.filter_append _ _
  cancelRequested := overlooking_besideLog venue.cancelRequested
  reportHeld held := by
    intro world log log' before
    obtain ⟨after, hafter⟩ := reportHeld_failing venue.unmoved fails held world log before
    dsimp only
    rw [hafter]
    refine ⟨rfl, rfl, ?_⟩
    change before.unreported = Transcript.unreported (before ++ [.reported held])
    unfold Transcript.unreported
    rw [List.filter_append]
    exact (List.append_nil _).symm

end Overlooking

section CutOff

/-- After a transcript, nothing has been reported that breaks a fetch. -/
def Transcript.Unbroken (breaks : Transcript → Nat → Option Fault)
    (before after : Transcript) : Prop :=
  before <+: after ∧ ∀ earlier held, before <+: earlier → earlier ++ [.reported held] <+: after →
    breaks earlier held = none

/-- What comes of a computation that may be cut off, next to what comes of the one that goes on,
from a given transcript on. Either it is the same, or there is a first report that breaks it; then
the fault of that report comes of it, and the report is the last thing that happens. -/
inductive CutOff (breaks : Transcript → Nat → Option Fault) (before : Transcript) (value : α)
    (whole : Transcript) : Except Fault α → Transcript → Prop
  | spared : Transcript.Unbroken breaks before whole →
      CutOff breaks before value whole (.ok value) whole
  | broken {earlier : Transcript} {held : Nat} {fault : Fault} :
      Transcript.Unbroken breaks before earlier → breaks earlier held = some fault →
      earlier ++ [.reported held] <+: whole →
      CutOff breaks before value whole (.error fault) (earlier ++ [.reported held])

variable {breaks : Transcript → Nat → Option Fault} {before between after whole : Transcript}

theorem Transcript.Unbroken.refl (before : Transcript) : Unbroken breaks before before := by
  refine ⟨List.prefix_rfl, fun earlier held hbefore hearlier => ?_⟩
  have hlonger := hbefore.length_le
  have hshorter := hearlier.length_le
  rw [List.length_append, List.length_singleton] at hshorter
  omega

theorem Transcript.Unbroken.trans (h : Unbroken breaks before between)
    (h' : Unbroken breaks between after) : Unbroken breaks before after := by
  refine ⟨h.1.trans h'.1, fun earlier held hbefore hearlier => ?_⟩
  rcases List.prefix_or_prefix_of_prefix hearlier h'.1 with hinside | hbeyond
  · exact h.2 earlier held hbefore hinside
  · rcases List.prefix_concat_iff.mp hbeyond with hlast | hlater
    · exact h.2 earlier held hbefore (hlast ▸ List.prefix_rfl)
    · exact h'.2 earlier held hlater hearlier

/-- Only a report can break a fetch. -/
theorem Transcript.Unbroken.concat {event : Event}
    (h : ∀ held, event = .reported held → breaks before held = none) :
    Unbroken breaks before (before ++ [event]) := by
  refine ⟨List.prefix_append _ _, fun earlier held hbefore hearlier => ?_⟩
  rcases List.prefix_concat_iff.mp hearlier with hlast | hinside
  · obtain ⟨rfl, hevent⟩ := List.append_singleton_inj.mp hlast
    exact h held hevent.symm
  · exact (Unbroken.refl before).2 earlier held hbefore hinside

theorem CutOff.prefix {value : α} {reply : Except Fault α}
    (h : CutOff breaks before value whole reply after) : before <+: whole := by
  cases h with
  | spared hunbroken => exact hunbroken.1
  | broken hunbroken _ hwhole => exact hunbroken.1.trans ((List.prefix_append _ _).trans hwhole)

theorem CutOff.map {β : Type} {value : α} {reply : Except Fault α} (f : α → β)
    (h : CutOff breaks before value whole reply after) :
    CutOff breaks before (f value) whole (reply.map f) after := by
  cases h with
  | spared hunbroken => exact .spared hunbroken
  | broken hunbroken hfault hwhole => exact .broken hunbroken hfault hwhole

theorem CutOff.after_unbroken {value : α} {reply : Except Fault α}
    (hbefore : Transcript.Unbroken breaks before between)
    (h : CutOff breaks between value whole reply after) :
    CutOff breaks before value whole reply after := by
  cases h with
  | spared hunbroken => exact .spared (hbefore.trans hunbroken)
  | broken hunbroken hfault hwhole => exact .broken (hbefore.trans hunbroken) hfault hwhole

/-- A computation, and one that does the same until it is cut off. -/
def cuttingOff (σ : Type) (breaks : Transcript → Nat → Option Fault) :
    Coupling (StateM (σ × Transcript)) (ExceptT Fault (StateM (σ × Transcript))) where
  rel whole cut := ∀ world before,
    let reply := whole (world, before)
    let reply' := cut.run (world, before)
    CutOff breaks before reply.1 reply.2.2 reply'.1 reply'.2.2 ∧
      ∀ value, reply'.1 = .ok value → reply'.2.1 = reply.2.1
  pure _ _ before := ⟨.spared (.refl before), fun _ _ => rfl⟩
  bind {_ _ x y f g} hxy hfg world before := by
    obtain ⟨hcut, hworld⟩ := hxy world before
    let first := x (world, before)
    obtain ⟨hrest, hend⟩ := hfg first.1 first.2.1 first.2.2
    rcases hy : y.run (world, before) with ⟨reply, after⟩
    rw [hy] at hcut hworld
    generalize htranscript : after.2 = transcript at hcut
    cases hcut with
    | spared hunbroken =>
        have hafter : after = first.2 := Prod.ext (hworld _ rfl) htranscript
        rw [run_bind_of_ok hy, hafter]
        exact ⟨hrest.after_unbroken hunbroken, hend⟩
    | broken hunbroken hfault hwhole =>
        rw [run_bind_of_error hy]
        refine ⟨?_, nofun⟩
        change CutOff breaks before _ _ _ after.2
        rw [htranscript]
        exact .broken hunbroken hfault (hwhole.trans hrest.prefix)

variable (venue : Venue τ (StateM σ)) (fails : Transcript → Nat → Option (Except Fault String))

/-- An operation that leaves no trace in the transcript does not cut anything off. -/
theorem cuttingOff_noting (act : StateM σ α) :
    (cuttingOff σ breaks).rel (Transcript.noting (fun _ => []) act)
      (liftM (Transcript.noting (fun _ => []) act)) := by
  intro world before
  have hsame : Transcript.Unbroken breaks before (before ++ []) := by
    rw [List.append_nil]
    exact .refl before
  exact ⟨.spared hsame, fun _ _ => rfl⟩

/-- A venue at which some reports fail for reasons in words, and one at which others break the
fetch. -/
theorem breaking_coupled :
    (venue.failing (Venue.worded fails)).Coupled (cuttingOff σ (Venue.unworded fails))
      (venue.breaking fails) where
  now := cuttingOff_noting venue.now
  sleep delay := cuttingOff_noting (venue.sleep delay)
  log record := cuttingOff_noting (venue.log record)
  call call world before := ⟨.spared (.concat nofun), fun _ _ => rfl⟩
  cancelRequested := cuttingOff_noting venue.cancelRequested
  report held := by
    intro world before
    have hspared (h : Venue.unworded fails before held = none) :
        Transcript.Unbroken (Venue.unworded fails) before (before ++ [.reported held]) := by
      apply Transcript.Unbroken.concat
      rintro _ ⟨⟩
      exact h
    unfold Venue.failing Venue.breaking Venue.worded
    dsimp only [ExceptT.run]
    cases hfails : fails before held with
    | none =>
        refine ⟨.spared (hspared ?_), fun _ _ => rfl⟩
        rw [Venue.unworded, hfails]
    | some answer =>
        cases answer with
        | ok reason =>
            refine ⟨.spared (hspared ?_), fun _ _ => rfl⟩
            rw [Venue.unworded, hfails]
        | error fault =>
            refine ⟨.broken (.refl before) ?_ List.prefix_rfl, nofun⟩
            rw [Venue.unworded, hfails]

end CutOff

variable [TimeNumber τ]

/-- Fetches from venues of which one is seen through a view of the other one's transcript. -/
theorem tracedFetch_of_attuned {view : Transcript → Transcript} (hnil : view [] = [])
    {venue venue' : Venue τ (StateM ((σ × List LogRecord) × Transcript))}
    (h : venue.Attuned (overlooking σ view) venue') (maxRetries : Int) (request : Request)
    (range : DateRange) (maxRecords : Int) (spacing : Spacing τ) (world : σ × List LogRecord) :
    let run := tracedFetch venue maxRetries request range maxRecords spacing world
    tracedFetch venue' maxRetries request range maxRecords spacing world = (run.1, view run.2) := by
  have hfetch := (overlooking σ view).fetch_of_attuned h maxRetries request range maxRecords spacing
  obtain ⟨hvalue, -, hview⟩ := hfetch world.1 world.2 world.2 []
  rw [hnil] at hvalue hview
  have hresult := congrArg Prod.fst hvalue
  exact Prod.ext hresult hview

/-- What a fetch that a report may break comes to, and the transcript. -/
def breakableFetch (venue : Venue τ (ExceptT Fault (StateM (σ × Transcript)))) (maxRetries : Int)
    (request : Request) (range : DateRange) (maxRecords : Int) (spacing : Spacing τ) (world : σ) :
    Except Fault (Except Stop (List Candle)) × Transcript :=
  let reply := (fetch venue maxRetries request range maxRecords spacing).run (world, [])
  (reply.1.map Prod.fst, reply.2.2)

/-- A fetch with reports that may break it is cut off by the first one that does. -/
theorem fetch_cutOff (venue : Venue τ (StateM σ))
    (fails : Transcript → Nat → Option (Except Fault String)) (maxRetries : Int)
    (request : Request) (range : DateRange) (maxRecords : Int) (spacing : Spacing τ)
    (world : σ × List LogRecord) :
    let undisturbed := tracedFetch (venue.logged.failing fun _ _ => none) maxRetries request range
      maxRecords spacing world
    let broken := breakableFetch (venue.logged.breaking fails) maxRetries request range maxRecords
      spacing world
    CutOff (Venue.unworded fails) [] undisturbed.1 undisturbed.2 broken.1 broken.2 := by
  intro undisturbed broken
  have hfailing : undisturbed = tracedFetch (venue.logged.failing (Venue.worded fails)) maxRetries
      request range maxRecords spacing world :=
    tracedFetch_of_attuned rfl (failing_attuned venue (Venue.worded fails) fun _ _ => none)
      maxRetries request range maxRecords spacing world
  obtain ⟨hcut, -⟩ := (cuttingOff (σ × List LogRecord) (Venue.unworded fails)).fetch
    (breaking_coupled venue.logged fails) maxRetries request range maxRecords spacing world []
  rw [hfailing]
  exact hcut.map Prod.fst

/-- The reports of a fetch can be relied on, and they do no harm. Whoever answers, reports or
cancels: after every page that is merged the number of records held is reported, and the last report
is the number of records that the fetch ends with. Which reports fail, and why, makes no difference
to what is called, answered and reported and to what the fetch comes to; and if reports do nothing
to the world, a fetch without them differs in nothing else. Only a failure that cannot be put in
words cuts the fetch off, right after the report. -/
theorem tracedFetch_reportsProgress (request : Request) (venue : Venue τ (StateM σ))
    (range : DateRange) (maxRecords : Int) (hrecords : 1 ≤ maxRecords) (maxRetries : Int)
    (spacing : Spacing τ) (world : σ) :
    (∃ plan, Plan.make range request.interval request.limit = .ok plan ∧
      ReportsProgress ⟨request, plan, maxRetries⟩ maxRecords.toNat
        (tracedFetch venue.recorded maxRetries request range maxRecords spacing world)) ∧
    (∀ (fails : Transcript → Nat → Option String) (log : List LogRecord),
      tracedFetch (venue.logged.failing fails) maxRetries request range maxRecords spacing
          (world, log) =
        tracedFetch (venue.logged.failing fun _ _ => none) maxRetries request range maxRecords
          spacing (world, log) ∧
      let watched := tracedFetch (venue.unmoved.logged.failing fails) maxRetries request range
        maxRecords spacing (world, log)
      tracedFetch venue.unmoved.logged.unwatched maxRetries request range maxRecords spacing
        (world, log) = (watched.1, watched.2.unreported)) ∧
    ∀ (fails : Transcript → Nat → Option (Except Fault String)) (log : List LogRecord),
      let undisturbed := tracedFetch (venue.logged.failing fun _ _ => none) maxRetries request range
        maxRecords spacing (world, log)
      let broken := breakableFetch (venue.logged.breaking fails) maxRetries request range maxRecords
        spacing (world, log)
      CutOff (Venue.unworded fails) [] undisturbed.1 undisturbed.2 broken.1 broken.2 := by
  refine ⟨?_, fun fails log => ?_, fun fails log => ?_⟩
  · obtain ⟨plan, hplan, rfl, -, -⟩ := Plan.make_isOk range request.interval request.one_le_limit
    obtain ⟨series, hseries, hempty, hcap⟩ := Series.make_isOk Candle hrecords
    refine ⟨plan, hplan, ?_⟩
    by_cases hopens : plan.Announceable
    · obtain ⟨outcome, hrun, hresult⟩ :=
        venue.recorded_records.tracedFetch hplan hseries hopens maxRetries spacing world
      have hreports := hrun.reportsProgress hempty
      rw [← hresult, hcap] at hreports
      exact hreports
    · have hunbegun : Unbegun request plan.range maxRecords .tooManyDigits :=
        .announcement hplan hseries hopens
      rw [hunbegun.tracedFetch_eq venue.recorded_records]
      exact reportsProgress_of_unbegun _ _ _
  · have hfailing := tracedFetch_of_attuned rfl (failing_attuned venue fails fun _ _ => none)
      maxRetries request range maxRecords spacing (world, log)
    have hunwatched := tracedFetch_of_attuned rfl (unwatched_attuned venue fails)
      maxRetries request range maxRecords spacing (world, log)
    exact ⟨hfailing.symm, hunwatched⟩
  · exact fetch_cutOff venue fails maxRetries request range maxRecords spacing (world, log)

/-- Only the second report fails. -/
def secondFails (before : Transcript) (_ : Nat) : Option String :=
  if before.reports.length = 1 then some "disk full" else none

/-- The second report fails in a way that cannot be put in words. -/
def secondBreaks (before : Transcript) (_ : Nat) : Option (Except Fault String) :=
  if before.reports.length = 1 then some (.error (.foreign "no words")) else none

theorem tracedFetch_reportsProgress_wild :
    let request : Request := ⟨"BTCUSDT", .minutes1, .linear, 1, by decide⟩
    let range : DateRange := ⟨0, 180000, by decide⟩
    let venue := Venue.inTurn wildAnswers
    let run := tracedFetch venue.recorded 1 request range 5 ⟨.zero, none⟩ 0
    let watched := tracedFetch (venue.unmoved.logged.failing secondFails) 1 request range 5
      ⟨.zero, none⟩ (0, [])
    let undisturbed := tracedFetch (venue.logged.failing fun _ _ => none) 1 request range 5
      ⟨.zero, none⟩ (0, [])
    let broken := breakableFetch (venue.logged.breaking secondBreaks) 1 request range 5
      ⟨.zero, none⟩ (0, [])
    ((∃ plan, Plan.make range .minutes1 1 = .ok plan ∧ ReportsProgress ⟨request, plan, 1⟩ 5 run) ∧
      tracedFetch (venue.logged.failing secondFails) 1 request range 5 ⟨.zero, none⟩ (0, []) =
        tracedFetch (venue.logged.failing fun _ _ => none) 1 request range 5 ⟨.zero, none⟩ (0, []) ∧
      tracedFetch venue.unmoved.logged.unwatched 1 request range 5 ⟨.zero, none⟩ (0, []) =
        (watched.1, watched.2.unreported) ∧
      CutOff (Venue.unworded secondBreaks) [] undisturbed.1 undisturbed.2 broken.1 broken.2) ∧
    run.2.reports = [2, 2, 3] ∧ recordsAtEnd run.1 = some 3 ∧ broken.2.reports = [2, 2] := by
  intro request range venue run watched undisturbed broken
  obtain ⟨hreports, hharmless, hcutOff⟩ := tracedFetch_reportsProgress request venue range 5
    (by decide) 1 ⟨.zero, none⟩ 0
  obtain ⟨hfailing, hunwatched⟩ := hharmless secondFails []
  refine ⟨⟨hreports, hfailing, hunwatched, hcutOff secondBreaks []⟩, ?_, ?_, ?_⟩
  · decide +kernel
  · decide +kernel
  · decide +kernel

end CandleHistory
