import CandleHistory.Proofs.Attempts
import CandleHistory.Proofs.Listing
import CandleHistory.Proofs.Recording

/-!
What a fetch collects from an exchange that lists certain bars: those that the page of some chunk
shows. This asks for little of the bars. It may not be that a bar is left out of the page of one
chunk and shown again where the next one overlaps with it, since it would then come too late to be
merged.
-/

namespace CandleHistory

namespace Listing

variable {interval : Interval} (listing : Listing interval)

theorem length_opens_le_of_le {start stop stop' : Int} (h : stop ≤ stop') :
    (listing.opens start stop).length ≤ (listing.opens start stop').length := by
  rcases Int.lt_or_le stop start with hlt | hle
  · have hnone : listing.opens start stop = [] := by
      apply List.eq_nil_iff_forall_not_mem.mpr
      intro t ht
      have hrange := (listing.mem_opens.mp ht).1
      omega
    rw [hnone]
    exact Nat.zero_le _
  · rw [← listing.opens_append hle h, List.length_append]
    exact Nat.le_add_right _ _

theorem shown_append {first second : List Chunk} {t : Int} :
    listing.shown (first ++ second) t = (listing.shown first t || listing.shown second t) :=
  List.any_append

theorem shown_singleton {chunk : Chunk} {t : Int} :
    listing.shown [chunk] t = listing.onPage chunk t := Bool.or_false _

/-- A bar that no page shows lies in a chunk with so many later bars that its page has no room for
it. With more than one bar to a chunk, it lies a bar's width after the start of that chunk, unless
that is the first one. -/
theorem exists_crowded_of_not_shown {plan : Plan} {t : Int}
    (ht : t ∈ listing.opens plan.range.start plan.range.stop)
    (hmissed : listing.shown plan.chunks t = false) :
    ∃ first, first ≤ t ∧
      plan.cap ≤ (listing.opens (t + 1) (plan.chunkAt first).stop).length ∧
      (first = plan.range.start ∨ plan.cap = 1 ∨ first + plan.interval.width ≤ t) := by
  obtain ⟨⟨hstart, hstop⟩, -⟩ := listing.mem_opens.mp ht
  have hfirst : plan.first? = some plan.range.start := if_pos (by omega)
  have hwithin := plan.within_first
  rw [hfirst] at hwithin
  obtain ⟨first, hmem, hle, hlt, hplace⟩ := Plan.exists_chunkAt_mem_take hwithin hstart hstop
  refine ⟨first, hle, Nat.le_of_not_lt fun hfew => ?_, hplace⟩
  have hshown : listing.shown plan.chunks t = true := by
    apply listing.shown_iff.mpr
    rw [Plan.chunks, hfirst]
    exact ⟨_, hmem, listing.onPage_iff.mpr ⟨⟨hle, hlt⟩, hfew⟩⟩
  rw [hmissed] at hshown
  cases hshown

/-- Where a run has got to: the chunks that are done reach up to an instant, the kept records are
the candles of the bars that they show, and what the next chunk shares with them has been shown. -/
structure Gathered (plan : Plan) (next : Option Int) (covered : Int) (done : List Chunk)
    (kept : List Candle) : Prop where
  start_le : plan.range.start ≤ covered
  le_stop : covered ≤ plan.range.stop
  reaches : plan.Covered covered next
  done_le : ∀ chunk ∈ done, chunk.stop ≤ covered
  seen : ∀ start, next = some start → ∀ t, listing.isOpen t = true → start ≤ t → t < covered →
    listing.shown done t = true
  kept_eq : kept =
    ((listing.opens plan.range.start covered).filter (listing.shown done)).map listing.candle

namespace Gathered

variable {listing} {plan : Plan} {next : Option Int} {start covered : Int} {done : List Chunk}
  {kept : List Candle}

theorem first (listing : Listing interval) (plan : Plan) :
    listing.Gathered plan plan.first? plan.range.start [] [] where
  start_le := Int.le_refl _
  le_stop := plan.range.start_le_stop
  reaches := plan.covered_first
  done_le _ hchunk := nomatch hchunk
  seen start hstart t _ hle hlt := by
    have hwithin := plan.within_first start hstart
    omega
  kept_eq := by
    rw [listing.opens_self]
    rfl

/-- What is kept already may be all bars up to an instant, as if they were from the page of a chunk
of their own. -/
theorem of_kept {fuel : Nat} (hwithin : plan.Within fuel next)
    (hcovered : plan.Covered covered next) (hstart : plan.range.start ≤ covered)
    (hstop : covered ≤ plan.range.stop)
    (hkept : kept = (listing.opens plan.range.start covered).map listing.candle) :
    ∃ done, listing.Gathered plan next covered done kept ∧
      ∀ t, listing.isOpen t = true → plan.range.start ≤ t → t < covered →
        listing.shown done t = true := by
  have hshown : ∀ t, listing.isOpen t = true → plan.range.start ≤ t → t < covered →
      listing.shown [⟨plan.range.start, covered,
        (listing.opens plan.range.start covered).length⟩] t = true := by
    intro t hopen hle hlt
    have ht := listing.mem_opens.mpr ⟨⟨hle, hlt⟩, hopen⟩
    rw [shown_singleton]
    apply listing.onPage_iff.mpr
    refine ⟨⟨hle, hlt⟩, ?_⟩
    change (listing.opens (t + 1) covered).length < (listing.opens plan.range.start covered).length
    rw [listing.opens_eq_append_cons ht, List.length_append, List.length_cons]
    omega
  refine ⟨_, ⟨hstart, hstop, hcovered, ?_, ?_, ?_⟩, hshown⟩
  · intro chunk hchunk
    rw [List.mem_singleton.mp hchunk]
  · intro start hnext t hopen hle hlt
    obtain ⟨hfirst, -, -⟩ := hwithin start hnext
    exact hshown t hopen (Int.le_trans hfirst hle) hlt
  · rw [hkept, List.filter_eq_self.mpr]
    intro t ht
    obtain ⟨hrange, hopen⟩ := listing.mem_opens.mp ht
    exact hshown t hopen hrange.1 hrange.2

/-- Bars that the done chunks show open before the instant that they reach. -/
theorem lt_of_shown (h : listing.Gathered plan next covered done kept) {t : Int}
    (hshown : listing.shown done t = true) : t < covered := by
  obtain ⟨chunk, hchunk, hpage⟩ := listing.shown_iff.mp hshown
  exact Int.lt_of_lt_of_le (listing.onPage_iff.mp hpage).1.2 (h.done_le chunk hchunk)

/-- What chunks share is shown by the page of the first one. -/
theorem onPage_of_shared (hsparse : listing.Sparse plan.cap) (hinterval : plan.interval = interval)
    {later : Int} (hlater : plan.after? start = some later) {t : Int}
    (hopen : listing.isOpen t = true) (hle : later ≤ t) (hlt : t < (plan.chunkAt start).stop) :
    listing.onPage (plan.chunkAt start) t = true := by
  obtain ⟨hend, rfl⟩ := Plan.after?_eq_some hlater
  have hstop : (plan.chunkAt start).stop = start + plan.span := by
    rw [Plan.chunkAt_stop]
    omega
  apply listing.onPage_iff.mpr
  have hstart : start ≤ t := by omega
  refine ⟨⟨hstart, hlt⟩, ?_⟩
  change (listing.opens (t + 1) (plan.chunkAt start).stop).length < plan.cap
  rw [hstop] at hlt ⊢
  by_cases hcap : plan.cap = 1
  · have hnothing := Plan.step_eq_span hcap
    omega
  · have hoverlap := Plan.step_add_width hcap
    refine Nat.lt_of_le_of_lt (listing.length_opens_le_of_le ?_) (hsparse.resolve_left hcap t hopen)
    rw [← hinterval]
    omega

/-- With the page of the next chunk, the kept records are those of the chunks up to it. -/
theorem after {series : Series Candle}
    (h : listing.Gathered plan (some start) covered done series.kept)
    (hsparse : listing.Sparse plan.cap) (hinterval : plan.interval = interval)
    (hfirst : plan.range.start ≤ start) {times : List Int}
    (htimes : ∀ t, t ∈ times ↔
      listing.isOpen t = true ∧ listing.onPage (plan.chunkAt start) t = true) :
    listing.Gathered plan (plan.after? start) (plan.chunkAt start).stop
      (done ++ [plan.chunkAt start]) (series.add (times.map listing.candle)).kept := by
  obtain ⟨hle, hreach⟩ := h.reaches
  have hhas {bars : List Int} {chunks : List Chunk} {t : Int} :
      t ∈ bars.filter (listing.shown chunks) ↔ t ∈ bars ∧ listing.shown chunks t = true :=
    List.mem_filter
  constructor
  case start_le => exact Int.le_trans h.start_le hreach
  case le_stop => exact plan.chunkAt_stop_le start
  case reaches => exact plan.covered_after start
  case done_le =>
    intro chunk hchunk
    rcases List.mem_append.mp hchunk with hdone | hthis
    · exact Int.le_trans (h.done_le chunk hdone) hreach
    · rw [List.mem_singleton.mp hthis]
  case seen =>
    intro later hlater t hopen hge hlt
    rw [listing.shown_append, listing.shown_singleton,
      onPage_of_shared hsparse hinterval hlater hopen hge hlt, Bool.or_true]
  case kept_eq =>
    apply listing.kept_add h.kept_eq
    · exact fun t ht => listing.isOpen_of_mem_opens t (hhas.mp ht).1
    · exact fun t ht => ((htimes t).mp ht).1
    · exact (listing.opens_pairwise_lt _ _).filter _
    · exact (listing.opens_pairwise_lt _ _).filter _
    · intro t
      rw [hhas, hhas, htimes, listing.mem_opens, listing.mem_opens, listing.shown_append,
        listing.shown_singleton, Bool.or_eq_true]
      constructor
      · rintro ⟨⟨⟨hlower, -⟩, hopen⟩, hshown⟩
        -- What this page shows of the time before `covered` has been shown, and is held, already.
        rcases Int.lt_or_le t covered with hlt | hge
        · have hseen : listing.shown done t = true := by
            rcases hshown with hdone | hpage
            · exact hdone
            · exact h.seen start rfl t hopen (listing.onPage_iff.mp hpage).1.1 hlt
          exact Or.inl ⟨⟨⟨hlower, hlt⟩, hopen⟩, hseen⟩
        · have hpage : listing.onPage (plan.chunkAt start) t = true := by
            refine hshown.resolve_left fun hdone => ?_
            have hlt := h.lt_of_shown hdone
            omega
          refine Or.inr ⟨⟨hopen, hpage⟩, fun s hs => ?_⟩
          have hbefore := (listing.mem_opens.mp (hhas.mp hs).1).1.2
          omega
      · rintro (⟨⟨⟨hlower, hlt⟩, hopen⟩, hdone⟩ | ⟨⟨hopen, hpage⟩, -⟩)
        · exact ⟨⟨⟨hlower, Int.lt_of_lt_of_le hlt hreach⟩, hopen⟩, Or.inl hdone⟩
        · obtain ⟨hge, hlt⟩ := (listing.onPage_iff.mp hpage).1
          exact ⟨⟨⟨Int.le_trans hfirst hge, hlt⟩, hopen⟩, Or.inr hpage⟩

/-- What is kept is the beginning of what is shown in the end. -/
theorem kept_prefix (h : listing.Gathered plan next covered done kept) (fuel : Nat) :
    kept <+: ((listing.opens plan.range.start plan.range.stop).filter
      (listing.shown (done ++ (plan.take fuel next).1))).map listing.candle := by
  have hsame : ∀ t ∈ listing.opens plan.range.start covered,
      listing.shown done t = listing.shown (done ++ (plan.take fuel next).1) t := by
    intro t ht
    obtain ⟨⟨-, hlt⟩, hopen⟩ := listing.mem_opens.mp ht
    rw [listing.shown_append]
    cases hlater : listing.shown (plan.take fuel next).1 t with
    | false => rw [Bool.or_false]
    | true =>
        obtain ⟨chunk, hchunk, hpage⟩ := listing.shown_iff.mp hlater
        cases next with
        | none =>
            rw [Plan.take_none] at hchunk
            cases hchunk
        | some start =>
            have hstart := Plan.start_le_of_mem_take hchunk
            have hge := (listing.onPage_iff.mp hpage).1.1
            rw [h.seen start rfl t hopen (Int.le_trans hstart hge) hlt]
            rfl
  rw [h.kept_eq, List.filter_congr hsame, ← listing.opens_append h.start_le h.le_stop,
    List.filter_append, List.map_append]
  exact List.prefix_append _ _

/-- A series without room, or with which all chunks are done, hands out the first bars that are
shown in the end. -/
theorem result_eq {series : Series Candle}
    (h : listing.Gathered plan next covered done series.kept) (fuel : Nat)
    (hdone : next = none ∨ series.isFull = true) :
    series.result = (((listing.opens plan.range.start plan.range.stop).filter
      (listing.shown (done ++ (plan.take fuel next).1))).take series.cap).map listing.candle := by
  unfold Series.result
  rw [List.map_take]
  rcases hdone with rfl | hfull
  · have hstop : covered = plan.range.stop := h.reaches
    rw [h.kept_eq, hstop, Plan.take_none, List.append_nil]
  · have hcap : series.cap ≤ series.kept.length := of_decide_eq_true hfull
    obtain ⟨rest, hrest⟩ := h.kept_prefix fuel
    rw [← hrest, List.take_append_of_le_length hcap]

end Gathered

end Listing

namespace FetchJob

variable {request : Request} {listing : Listing request.interval} {conduct : Conduct} {plan : Plan}
  {maxRetries : Int}

/-- The attempts for a chunk come to the candles of the bars that its page shows. -/
theorem exists_times_of_listing {start : Int} {retries : Nat}
    (hanswers : ∀ call answer, conduct.answers call answer → listing.Answers call answer)
    (attempts : Attempts conduct (pageCall ⟨request, plan, maxRetries⟩ (plan.chunkAt start))
      retries) (held : Nat) :
    ∃ times : List Int,
      chunkResult ⟨request, plan, maxRetries⟩ held attempts.final =
        .ok (times.map listing.candle) ∧
      ∀ t, t ∈ times ↔ listing.isOpen t = true ∧ listing.onPage (plan.chunkAt start) t = true := by
  have hanswer := hanswers _ _ (attempts.answered _ (List.mem_append_right _ List.mem_cons_self))
  obtain ⟨page, times, hpage, -, -⟩ := id hanswer
  rw [hpage] at hanswer ⊢
  exact listing.readPage_of_answers hanswer held

/-- A run in which every attempt can be announced hands out the bars that the pages show. -/
theorem Run.of_listing {fuel : Nat} {next : Option Int} {series : Series Candle}
    {before after : Transcript} {outcome : Except Stop (Series Candle)} {covered : Int}
    {done : List Chunk}
    (h : Run conduct ⟨request, plan, maxRetries⟩ fuel next series before outcome after)
    (hanswers : ∀ call answer, conduct.answers call answer → listing.Answers call answer)
    (hcalm : ∀ before, ¬ conduct.wishes before true)
    (hinterval : plan.interval = request.interval) (hrange : plan.range.InCalendar)
    (hjob : Announceable ⟨request, plan, maxRetries⟩) (hsparse : listing.Sparse plan.cap)
    (hwithin : plan.Within fuel next)
    (hgathered : listing.Gathered plan next covered done series.kept) :
    outcome.map Series.result =
      .ok ((((listing.opens plan.range.start plan.range.stop).filter
        (listing.shown (done ++ (plan.take fuel next).1))).take
          series.cap).map listing.candle) := by
  -- `Gathered` is carried from chunk to chunk, and it tells what is held where the run ends, be it
  -- for want of chunks or for want of room.
  induction fuel generalizing next series before covered done with
  | zero =>
      cases next with
      | none =>
          obtain ⟨rfl, -⟩ := h.of_none
          exact congrArg Except.ok (hgathered.result_eq 0 (Or.inl rfl))
      | some start => exact absurd hwithin.fuel_pos (Nat.lt_irrefl 0)
  | succ fuel ih =>
      cases next with
      | none =>
          obtain ⟨rfl, -⟩ := h.of_none
          exact congrArg Except.ok (hgathered.result_eq _ (Or.inl rfl))
      | some start =>
          cases hroom : series.isFull with
          | true =>
              obtain ⟨rfl, -⟩ := h.of_full hroom
              exact congrArg Except.ok (hgathered.result_eq _ (Or.inr hroom))
          | false =>
              obtain ⟨span, hspan⟩ := hwithin.spanText_isOk hrange
              obtain ⟨attempts, hchunk⟩ :=
                h.exists_attempts hroom hcalm (announcement_of_announceable hspan hjob)
              obtain ⟨times, hok, htimes⟩ :=
                exists_times_of_listing hanswers attempts series.size
              cases hchunk with
              | stopped hstopped =>
                  rw [hok] at hstopped
                  cases hstopped
              | merged hread hrun =>
                  rw [hok] at hread
                  cases hread
                  obtain ⟨hfirst, -, -⟩ := hwithin start rfl
                  have hresult := ih hrun hwithin.after
                    (hgathered.after hsparse hinterval hfirst htimes)
                  rw [Plan.take_succ, List.append_cons]
                  exact hresult

end FetchJob

variable {σ τ : Type} [TimeNumber τ]

/-- An uncancelled fetch hands out the candles of the bars that the pages of the chunks show, in
ascending order and up to the cap, unless the number of attempts has too many digits. -/
theorem fetch_eq_shown {request : Request} (listing : Listing request.interval)
    (venue : Venue τ (StateM σ))
    (hanswers : ∀ call world, listing.Answers call (venue.call call world).1)
    (hcalm : ∀ world, (venue.cancelRequested world).1 = false)
    (range : DateRange) (hrange : range.InCalendar)
    (hsparse : listing.Sparse request.limit.toNat)
    (maxRecords : Int) (hrecords : 1 ≤ maxRecords) (maxRetries : Int) (spacing : Spacing τ)
    (world : σ) :
    ∃ plan, Plan.make range request.interval request.limit = .ok plan ∧
      (fetch venue maxRetries request range maxRecords spacing world).1.1 =
        if range.isEmpty = true ∨ (maxRetries + 1).natAbs < Number.integerBound then
          .ok ((((listing.opens range.start range.stop).filter (listing.shown plan.chunks)).take
            maxRecords.toNat).map listing.candle)
        else .error (.broke .tooManyDigits) := by
  obtain ⟨plan, hplan, rfl, hinterval, hcap⟩ :=
    Plan.make_isOk range request.interval request.one_le_limit
  obtain ⟨series, hseries, hnothing, hseriesCap⟩ := Series.make_isOk Candle hrecords
  obtain ⟨outcome, after, hrun, hresult⟩ := venue.exists_run hplan hseries
    (Plan.announceable_of_make hplan hrange) maxRetries spacing world
  have hanswers : ∀ call answer, venue.conduct.answers call answer →
      listing.Answers call answer := by
    rintro call _ ⟨world, rfl⟩
    exact hanswers call world
  have hcalm := venue.not_wishes_conduct hcalm
  refine ⟨plan, hplan, ?_⟩
  rw [hresult]
  apply hrun.result_eq_ite hrange (Series.isFull_of_nil hnothing) (hcalm [])
  · intro hempty
    have hequal : plan.range.start = plan.range.stop := eq_of_beq hempty
    rw [hequal, listing.opens_self, List.filter_nil, List.take_nil, Series.result, hnothing,
      List.take_nil]
    rfl
  · intro hjob
    have hgathered := Listing.Gathered.first listing plan
    rw [← hnothing] at hgathered
    rw [← hcap] at hsparse
    rw [← hseriesCap]
    exact hrun.of_listing hanswers hcalm hinterval hrange hjob hsparse plan.within_first hgathered

end CandleHistory
