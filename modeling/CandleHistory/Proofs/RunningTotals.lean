import CandleHistory.Proofs.PlannedCalls

/-!
What the reports of a fetch say. Whenever a page was had and merged, the number of records that are
held from then on is reported, and nothing else is. The reports therefore never go down, they stay
within the cap, and the last of them is the number of records that the fetch ends with, whether it
hands them out or is stopped.
-/

namespace CandleHistory

/-- The number of records that were held when a fetch was stopped. A fault does not tell it. -/
def Stop.records? : Stop → Option Nat
  | .aborted _ records => some records
  | .cancelled records => some records
  | .broke _ => none

/-- The candles of a page that can be read. -/
def readablePage? (interval : Interval) (page : Value) : Option (List Candle) :=
  match page.elements? with
  | none => none
  | some rows =>
    match Row.readAll interval rows with
    | .ok candles => some candles
    | .refused _ => none
    | .infiniteStart => none

/-- The candles that an event brings, if a page was had and can be read. -/
def Event.merged? (interval : Interval) : Event → Option (List Candle)
  | .called _ (.page page) => readablePage? interval page
  | .called _ (.failed _) => none
  | .called _ (.broke _) => none
  | .reported _ => none

/-- A call that brings nothing to merge. -/
def Event.IsVain (interval : Interval) (event : Event) : Prop :=
  (∃ call answer, event = .called call answer) ∧ event.merged? interval = none

/-- The call whose page is merged, if an event is one. -/
def Event.mergedCall? (interval : Interval) (event : Event) : Option PageCall :=
  (event.merged? interval).bind fun _ => event.call?

namespace Transcript

/-- The calls whose pages were merged. -/
def mergedCalls (interval : Interval) (transcript : Transcript) : List PageCall :=
  transcript.filterMap (Event.mergedCall? interval)

/-- A transcript in which every page that was merged is followed by the number of records that are
held then, up to a cap, and nothing is reported otherwise. Some records are held before. -/
inductive Told (interval : Interval) (cap : Nat) : List Candle → Transcript → Prop
  | nil {kept} : Told interval cap kept []
  | vain {kept event rest} :
      event.IsVain interval → Told interval cap kept rest → Told interval cap kept (event :: rest)
  | merged {kept event candles rest} :
      event.merged? interval = some candles → Told interval cap (extend kept candles) rest →
      Told interval cap kept
        (event :: .reported (min (extend kept candles).length cap) :: rest)

end Transcript

namespace Event

variable {interval : Interval} {event : Event}

theorem exists_call_of_merged? {candles : List Candle} (h : event.merged? interval = some candles) :
    ∃ call answer, event = .called call answer := by
  cases event with
  | called call answer => exact ⟨call, answer, rfl⟩
  | reported held => cases h

theorem isVain_of_failed {call : PageCall} {reason : PageError} :
    IsVain interval (.called call (.failed reason)) :=
  ⟨⟨_, _, rfl⟩, rfl⟩

theorem isVain_of_broke {call : PageCall} {fault : Fault} :
    IsVain interval (.called call (.broke fault)) :=
  ⟨⟨_, _, rfl⟩, rfl⟩

theorem IsVain.mergedCall? (h : event.IsVain interval) : event.mergedCall? interval = none := by
  unfold Event.mergedCall?
  rw [h.2]
  rfl

theorem IsVain.report? (h : event.IsVain interval) : event.report? = none := by
  obtain ⟨⟨call, answer, rfl⟩, -⟩ := h
  rfl

end Event

namespace Transcript

variable {interval : Interval} {cap : Nat} {kept : List Candle} {first transcript rest : Transcript}

theorem reports_of_vain (h : ∀ event ∈ first, event.IsVain interval) : first.reports = [] :=
  List.filterMap_eq_nil_iff.mpr fun event hevent => (h event hevent).report?

theorem mergedCalls_of_vain (h : ∀ event ∈ first, event.IsVain interval) :
    first.mergedCalls interval = [] :=
  List.filterMap_eq_nil_iff.mpr fun event hevent => (h event hevent).mergedCall?

theorem mergedCalls_append (first second : Transcript) :
    mergedCalls interval (first ++ second) =
      first.mergedCalls interval ++ second.mergedCalls interval :=
  List.filterMap_append

theorem mergedCalls_merged {call : PageCall} {answer : PageAnswer} {candles : List Candle}
    {held : Nat} (h : (Event.called call answer).merged? interval = some candles) :
    mergedCalls interval [.called call answer, .reported held] = [call] := by
  have hcall : (Event.called call answer).mergedCall? interval = some call := by
    unfold Event.mergedCall?
    rw [h]
    rfl
  have hreport : (Event.reported held).mergedCall? interval = none := rfl
  unfold mergedCalls
  rw [List.filterMap_cons_some hcall, List.filterMap_cons_none hreport, List.filterMap_nil]

theorem Told.append_of_vain (h : ∀ event ∈ first, event.IsVain interval)
    (hrest : Told interval cap kept rest) : Told interval cap kept (first ++ rest) := by
  induction first with
  | nil => exact hrest
  | cons event events ih =>
      obtain ⟨hevent, hevents⟩ := List.forall_mem_cons.mp h
      exact .vain hevent (ih hevents)

/-- As many pages were merged as there are reports. -/
theorem Told.length_reports (h : Told interval cap kept transcript) :
    transcript.reports.length = (transcript.mergedCalls interval).length := by
  induction h with
  | nil => rfl
  | @vain kept event rest hevent hrest ih =>
      have hvain : ∀ other ∈ [event], other.IsVain interval := by
        rintro other hother
        rw [List.mem_singleton.mp hother]
        exact hevent
      rw [← List.singleton_append, reports_append, mergedCalls_append, reports_of_vain hvain,
        mergedCalls_of_vain hvain]
      exact ih
  | @merged kept event candles rest hmerged hrest ih =>
      obtain ⟨call, answer, rfl⟩ := Event.exists_call_of_merged? hmerged
      change (_ :: rest.reports).length =
        (mergedCalls interval ([.called call answer, .reported _] ++ rest)).length
      rw [mergedCalls_append, mergedCalls_merged hmerged, List.length_append, List.length_cons, ih,
        Nat.add_comm]
      rfl

/-- Every report is a number from what was held in the beginning up to the cap. -/
theorem Told.bounds (h : Told interval cap kept transcript) :
    ∀ held ∈ transcript.reports, min kept.length cap ≤ held ∧ held ≤ cap := by
  induction h with
  | nil => exact nofun
  | vain hevent hrest ih =>
      obtain ⟨⟨call, answer, rfl⟩, -⟩ := hevent
      exact ih
  | @merged kept event candles rest hmerged hrest ih =>
      obtain ⟨call, answer, rfl⟩ := Event.exists_call_of_merged? hmerged
      have hgrown : kept.length ≤ (extend kept candles).length :=
        (List.prefix_append _ _).length_le
      have hthis : min kept.length cap ≤ min (extend kept candles).length cap ∧
          min (extend kept candles).length cap ≤ cap := by omega
      refine List.forall_mem_cons.mpr ⟨hthis, fun held hheld => ?_⟩
      obtain ⟨hlower, hupper⟩ := ih held hheld
      exact ⟨hthis.1.trans hlower, hupper⟩

/-- The reports never go down. -/
theorem Told.reports_pairwise_le (h : Told interval cap kept transcript) :
    transcript.reports.Pairwise (· ≤ ·) := by
  induction h with
  | nil => exact .nil
  | vain hevent hrest ih =>
      obtain ⟨⟨call, answer, rfl⟩, -⟩ := hevent
      exact ih
  | merged hmerged hrest ih =>
      obtain ⟨call, answer, rfl⟩ := Event.exists_call_of_merged? hmerged
      exact .cons (fun held hheld => (hrest.bounds held hheld).1) ih

end Transcript

namespace FetchJob

variable {conduct : Conduct} {job : FetchJob}

theorem readablePage?_of_readPage {held : Nat} {page : Value} {candles : List Candle}
    (h : job.readPage held page = .ok candles) :
    readablePage? job.request.interval page = some candles := by
  unfold readPage at h
  unfold readablePage?
  cases helements : page.elements? with
  | none =>
      rw [helements] at h
      cases h
  | some rows =>
      rw [helements] at h
      dsimp only at h ⊢
      cases hrows : Row.readAll job.request.interval rows with
      | ok read =>
          rw [hrows] at h
          cases h
          rfl
      | refused reason =>
          rw [hrows] at h
          cases h
      | infiniteStart =>
          rw [hrows] at h
          cases h

/-- A page that cannot be read ends the run with the number of records held before, if it tells one.
-/
theorem unreadable_of_readPage {held : Nat} {page : Value} {stop : Stop}
    (h : job.readPage held page = .error stop) :
    readablePage? job.request.interval page = none ∧
      ∀ records, stop.records? = some records → records = held := by
  unfold readPage at h
  unfold readablePage?
  cases helements : page.elements? with
  | none =>
      rw [helements] at h
      cases h
      exact ⟨rfl, nofun⟩
  | some rows =>
      rw [helements] at h
      dsimp only at h ⊢
      cases hrows : Row.readAll job.request.interval rows with
      | ok read =>
          rw [hrows] at h
          cases h
      | refused reason =>
          rw [hrows] at h
          cases h
          refine ⟨rfl, ?_⟩
          rintro records ⟨⟩
          rfl
      | infiniteStart =>
          rw [hrows] at h
          cases h
          exact ⟨rfl, nofun⟩

/-- What a page that was had leaves in the transcript at the end of its attempts. -/
def pageEvents (call : PageCall) : Except Stop Value → Transcript
  | .ok page => [.called call (.page page)]
  | .error _ => []

/-- Before its page is had, a chunk only meets calls that bring nothing. -/
theorem PageRun.exists_vain {chunk : Chunk} {held retries number : Nat}
    {before after : Transcript} {result : Except Stop Value} (interval : Interval)
    (h : PageRun conduct job chunk held retries number before result after) :
    ∃ failures : Transcript, (∀ event ∈ failures, event.IsVain interval) ∧
      after = before ++ (failures ++ pageEvents (job.pageCall chunk) result) := by
  have hlast {event : Event} (hevent : event.IsVain interval) :
      ∀ other ∈ [event], other.IsVain interval := by
    intro other hother
    rw [List.mem_singleton.mp hother]
    exact hevent
  induction h with
  | cancelled hnumber hwish => exact ⟨[], List.forall_mem_nil _, (List.append_nil _).symm⟩
  | unannounced hwish hfault => exact ⟨[], List.forall_mem_nil _, (List.append_nil _).symm⟩
  | answered hattempt => exact ⟨[], List.forall_mem_nil _, rfl⟩
  | broke hattempt => exact ⟨[_], hlast Event.isVain_of_broke, rfl⟩
  | refused hattempt htransient => exact ⟨[_], hlast Event.isVain_of_failed, rfl⟩
  | exhausted hattempt htransient => exact ⟨[_], hlast Event.isVain_of_failed, rfl⟩
  | @retried retries number before reason result after hattempt htransient hrun ih =>
      obtain ⟨failures, hvain, hafter⟩ := ih
      refine ⟨.called (job.pageCall chunk) (.failed reason) :: failures, ?_, ?_⟩
      · exact List.forall_mem_cons.mpr ⟨Event.isVain_of_failed, hvain⟩
      · rw [hafter, List.append_assoc]
        rfl

/-- A chunk is given up with the number of records held before, if that is told. -/
theorem PageRun.records_eq {chunk : Chunk} {held retries number records : Nat}
    {before after : Transcript} {result : Except Stop Value} {stop : Stop}
    (h : PageRun conduct job chunk held retries number before result after)
    (hresult : result = .error stop) (hrecords : stop.records? = some records) :
    records = held := by
  induction h with
  | cancelled hnumber hwish =>
      cases hresult
      exact (Option.some.inj hrecords).symm
  | unannounced hwish hfault =>
      cases hresult
      cases hrecords
  | answered hattempt => cases hresult
  | broke hattempt =>
      cases hresult
      cases hrecords
  | refused hattempt htransient =>
      cases hresult
      exact (Option.some.inj hrecords).symm
  | exhausted hattempt htransient =>
      cases hresult
      exact (Option.some.inj hrecords).symm
  | retried hattempt htransient hrun ih => exact ih hresult

/-- The number of records that a run ends with: those that its series would hand out, or those that
were held when it was stopped. -/
def heldAtEnd : Except Stop (Series Candle) → Option Nat
  | .ok series => some series.size
  | .error stop => stop.records?

/-- What a run adds to its transcript: reports that tell what was merged, of which the last one is
the number of records that the run ends with, and calls of which those for the first chunks are
merged. -/
theorem Run.exists_told {fuel : Nat} {next : Option Int} {series : Series Candle}
    {before after : Transcript} {outcome : Except Stop (Series Candle)}
    (h : Run conduct job fuel next series before outcome after) :
    ∃ events : Transcript, after = before ++ events ∧
      events.Told job.request.interval series.cap series.kept ∧
      events.mergedCalls job.request.interval <+: (job.plan.take fuel next).1.map job.pageCall ∧
      ∀ records, heldAtEnd outcome = some records →
        records = events.reports.getLastD series.size := by
  have hstart {series : Series Candle} {before : Transcript} {asked : List PageCall}
      {outcome : Except Stop (Series Candle)}
      (hheld : ∀ records, heldAtEnd outcome = some records → records = series.size) :
      ∃ events : Transcript, before = before ++ events ∧
        events.Told job.request.interval series.cap series.kept ∧
        events.mergedCalls job.request.interval <+: asked ∧
        ∀ records, heldAtEnd outcome = some records →
          records = events.reports.getLastD series.size :=
    ⟨[], (List.append_nil _).symm, .nil, List.nil_prefix, hheld⟩
  have hgiven {series : Series Candle} {before failures : Transcript} {asked : List PageCall}
      {stop : Stop} (hvain : ∀ event ∈ failures, event.IsVain job.request.interval)
      (hheld : ∀ records, stop.records? = some records → records = series.size) :
      ∃ events : Transcript, before ++ failures = before ++ events ∧
        events.Told job.request.interval series.cap series.kept ∧
        events.mergedCalls job.request.interval <+: asked ∧
        ∀ records, heldAtEnd (.error stop) = some records →
          records = events.reports.getLastD series.size := by
    refine ⟨failures, rfl, ?_, ?_, ?_⟩
    · rw [← List.append_nil failures]
      exact Transcript.Told.nil.append_of_vain hvain
    · rw [Transcript.mergedCalls_of_vain hvain]
      exact List.nil_prefix
    · rw [Transcript.reports_of_vain hvain]
      exact hheld
  induction h with
  | finished => exact hstart fun records hrecords => (Option.some.inj hrecords).symm
  | spent => exact hstart fun records hrecords => (Option.some.inj hrecords).symm
  | full hfull => exact hstart fun records hrecords => (Option.some.inj hrecords).symm
  | cancelled hfull hwish => exact hstart fun records hrecords => (Option.some.inj hrecords).symm
  | failed hfull hwish hpage =>
      obtain ⟨failures, hvain, rfl⟩ := hpage.exists_vain job.request.interval
      rw [pageEvents, List.append_nil]
      exact hgiven hvain fun records => hpage.records_eq rfl
  | unreadable hfull hwish hpage hread =>
      obtain ⟨failures, hvain, rfl⟩ := hpage.exists_vain job.request.interval
      obtain ⟨hnone, hheld⟩ := unreadable_of_readPage hread
      refine hgiven ?_ hheld
      rw [pageEvents, List.forall_mem_append]
      refine ⟨hvain, fun event hevent => ?_⟩
      rw [List.mem_singleton.mp hevent]
      exact ⟨⟨_, _, rfl⟩, hnone⟩
  | @absorbed fuel start series before page candles between result after hfull hwish hpage hread
      hrun ih =>
      obtain ⟨failures, hvain, rfl⟩ := hpage.exists_vain job.request.interval
      obtain ⟨events, hafter, htold, hcalls, hheld⟩ := ih
      let call := job.pageCall (job.plan.chunkAt start)
      have hmerged : (Event.called call (.page page)).merged? job.request.interval = some candles :=
        readablePage?_of_readPage hread
      let merging : Transcript := [.called call (.page page), .reported (series.add candles).size]
      refine ⟨failures ++ (merging ++ events), ?_, ?_, ?_, ?_⟩
      · rw [hafter]
        simp [pageEvents, merging, call]
      · exact .append_of_vain hvain (.merged hmerged htold)
      · rw [Transcript.mergedCalls_append, Transcript.mergedCalls_append,
          Transcript.mergedCalls_of_vain hvain, Transcript.mergedCalls_merged hmerged,
          Plan.take_succ]
        exact (List.prefix_cons_inj _).mpr hcalls
      · intro records hrecords
        rw [Transcript.reports_append, Transcript.reports_append, Transcript.reports_of_vain hvain,
          hheld records hrecords]
        change _ = (_ :: events.reports).getLastD series.size
        rw [List.getLastD_cons]

end FetchJob

/-- The number of records that a fetch ends with: those that it hands out, or those that were held
when it was stopped. A fault does not tell it. -/
def recordsAtEnd : Except Stop (List Candle) → Option Nat
  | .ok candles => some candles.length
  | .error stop => stop.records?

/-- What it means that the reports of a fetch can be relied on. After every page that is merged, and
only then, the number of records held is reported, and the pages that are merged are those of the
first chunks of the plan, in order. The reports never go down nor beyond the cap, and the last of
them is the number of records that the fetch ends with, which is zero if there was no report. -/
structure ReportsProgress (job : FetchJob) (cap : Nat)
    (run : Except Stop (List Candle) × Transcript) : Prop where
  told : run.2.Told job.request.interval cap []
  chunks : run.2.mergedCalls job.request.interval =
    (job.plan.chunks.take run.2.reports.length).map job.pageCall
  ascending : run.2.reports.Pairwise (· ≤ ·)
  le_cap : ∀ held ∈ run.2.reports, held ≤ cap
  last : ∀ records, recordsAtEnd run.1 = some records → run.2.reports.getLastD 0 = records

/-- A fetch that ends before its first call has nothing to report. -/
theorem reportsProgress_of_unbegun (job : FetchJob) (cap : Nat) (fault : Fault) :
    ReportsProgress job cap (.error (.broke fault), []) where
  told := .nil
  chunks := rfl
  ascending := .nil
  le_cap := List.forall_mem_nil _
  last := nofun

theorem FetchJob.Run.reportsProgress {conduct : Conduct} {job : FetchJob} {series : Series Candle}
    {after : Transcript} {outcome : Except Stop (Series Candle)}
    (h : Run conduct job job.plan.range.length job.plan.first? series [] outcome after)
    (hempty : series.kept = []) :
    ReportsProgress job series.cap (outcome.map Series.result, after) := by
  obtain ⟨events, hafter, htold, hcalls, hheld⟩ := h.exists_told
  obtain rfl : after = events := hafter
  rw [hempty] at htold
  constructor
  case told => exact htold
  case chunks =>
    have hasked := List.prefix_iff_eq_take.mp hcalls
    rw [← htold.length_reports, ← List.map_take] at hasked
    exact hasked
  case ascending => exact htold.reports_pairwise_le
  case le_cap => exact fun held hreport => (htold.bounds held hreport).2
  case last =>
    have hsize : series.size = 0 := by
      unfold Series.size
      rw [hempty]
      exact Nat.zero_min _
    have hend : recordsAtEnd (outcome.map Series.result) = heldAtEnd outcome := by
      cases outcome with
      | error stop => rfl
      | ok final =>
          change some final.result.length = some final.size
          rw [Series.result, List.length_take, Nat.min_comm]
          rfl
    intro records hrecords
    rw [hheld records (hend ▸ hrecords), hsize]

end CandleHistory
