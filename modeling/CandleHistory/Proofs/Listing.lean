import CandleHistory.Proofs.Chunks
import CandleHistory.Proofs.Merging
import CandleHistory.Proofs.Rows
import CandleHistory.Paging.Fetch
import Mathlib.Data.List.Sort

/-!
Exchanges that are described by the bars they list, wherever these bars lie. Such an exchange
answers a call with the newest bars between the two ends of the call, as many as the call asks for.
If a chunk has more of them, its page leaves the oldest out.
-/

namespace CandleHistory

/-- A venue that answers a call in a way that depends on nothing but the call. -/
def Venue.steady (answer : PageCall → PageAnswer) : Venue Number.Binary64 (StateM Unit) where
  now := pure .zero
  sleep _ := pure ()
  log _ := pure ()
  call call := pure (answer call)
  cancelRequested := pure false
  report _ := pure none

/-- What an exchange lists: the instants at which a bar opens, the row in which it is shown, and the
candle that the row is read as. -/
structure Listing (interval : Interval) where
  isOpen : Int → Bool
  row : Int → Value
  candle : Int → Candle
  reads : ∀ t, isOpen t = true → Row.read interval (row t) = .ok (candle t)
  openTime_candle : ∀ t, isOpen t = true → (candle t).openTime = t

namespace Listing

variable {interval : Interval} (listing : Listing interval)

/-- The instants from `start` up to `stop` at which a bar opens, in order. -/
def opens (start stop : Int) : List Int :=
  ((List.range (stop - start).toNat).map fun offset : Nat => start + (offset : Int)).filter
    listing.isOpen

theorem mem_opens {start stop t : Int} :
    t ∈ listing.opens start stop ↔ (start ≤ t ∧ t < stop) ∧ listing.isOpen t = true := by
  unfold opens
  rw [List.mem_filter, List.mem_map]
  constructor
  · rintro ⟨⟨offset, hoffset, rfl⟩, hopen⟩
    have hlt := List.mem_range.mp hoffset
    exact ⟨by omega, hopen⟩
  · rintro ⟨hrange, hopen⟩
    have hlt : (t - start).toNat < (stop - start).toNat := by omega
    exact ⟨⟨(t - start).toNat, List.mem_range.mpr hlt, by omega⟩, hopen⟩

theorem isOpen_of_mem_opens {start stop : Int} :
    ∀ t ∈ listing.opens start stop, listing.isOpen t = true :=
  fun _ ht => (listing.mem_opens.mp ht).2

theorem opens_pairwise_lt (start stop : Int) : (listing.opens start stop).Pairwise (· < ·) := by
  apply List.Pairwise.filter
  apply List.pairwise_map.mpr
  exact List.pairwise_lt_range.imp fun hlt => by omega

theorem opens_nodup (start stop : Int) : (listing.opens start stop).Nodup :=
  (listing.opens_pairwise_lt start stop).imp Int.ne_of_lt

/-- A list in order that has the bars of a window is the list of these bars. -/
theorem eq_opens {start stop : Int} {times : List Int} (hordered : times.Pairwise (· < ·))
    (hmem : ∀ t, t ∈ times ↔ (start ≤ t ∧ t < stop) ∧ listing.isOpen t = true) :
    times = listing.opens start stop :=
  hordered.eq_of_mem_iff (listing.opens_pairwise_lt start stop) fun {t} =>
    (hmem t).trans listing.mem_opens.symm

theorem opens_self (start : Int) : listing.opens start start = [] := by
  apply List.eq_nil_iff_forall_not_mem.mpr
  intro t ht
  have hrange := (listing.mem_opens.mp ht).1
  omega

theorem opens_append {start middle stop : Int} (hfirst : start ≤ middle) (hsecond : middle ≤ stop) :
    listing.opens start middle ++ listing.opens middle stop = listing.opens start stop := by
  apply listing.eq_opens
  · apply List.pairwise_append.mpr
    refine ⟨listing.opens_pairwise_lt _ _, listing.opens_pairwise_lt _ _, ?_⟩
    intro s hs t ht
    have hbefore := listing.mem_opens.mp hs
    have hafter := listing.mem_opens.mp ht
    omega
  · intro t
    rw [List.mem_append, listing.mem_opens, listing.mem_opens]
    constructor
    · rintro (⟨hrange, hopen⟩ | ⟨hrange, hopen⟩)
      · exact ⟨by omega, hopen⟩
      · exact ⟨by omega, hopen⟩
    · rintro ⟨hrange, hopen⟩
      rcases Int.lt_or_le t middle with hlt | hle
      · exact Or.inl ⟨by omega, hopen⟩
      · exact Or.inr ⟨by omega, hopen⟩

/-- A bar comes before those of its window that open later. -/
theorem opens_eq_append_cons {start stop t : Int} (ht : t ∈ listing.opens start stop) :
    listing.opens start stop = listing.opens start t ++ t :: listing.opens (t + 1) stop := by
  obtain ⟨hrange, hopen⟩ := listing.mem_opens.mp ht
  have hthis : [t] = listing.opens t (t + 1) := by
    apply listing.eq_opens (List.pairwise_singleton _ _)
    intro s
    rw [List.mem_singleton]
    constructor
    · rintro rfl
      exact ⟨by omega, hopen⟩
    · rintro ⟨hs, -⟩
      omega
  rw [← listing.opens_append hrange.1 (by omega : t ≤ stop),
    ← listing.opens_append (by omega : t ≤ t + 1) (by omega : t + 1 ≤ stop), ← hthis]
  rfl

theorem reverse_opens {start stop t : Int} (ht : t ∈ listing.opens start stop) :
    (listing.opens start stop).reverse =
      (listing.opens (t + 1) stop).reverse ++ t :: (listing.opens start t).reverse := by
  rw [listing.opens_eq_append_cons ht, List.reverse_append, List.reverse_cons, List.append_assoc]
  rfl

/-- The newest bars of a window are those after which few enough open. -/
theorem mem_newest {start stop t : Int} {limit : Nat} :
    t ∈ (listing.opens start stop).reverse.take limit ↔
      t ∈ listing.opens start stop ∧ (listing.opens (t + 1) stop).length < limit := by
  constructor
  · intro h
    have ht := List.mem_reverse.mp (List.mem_of_mem_take h)
    refine ⟨ht, Nat.lt_of_not_le fun hmany => ?_⟩
    -- Then the newest ones all open later.
    rw [listing.reverse_opens ht,
      List.take_append_of_le_length (by rw [List.length_reverse]; exact hmany)] at h
    have hlater := listing.mem_opens.mp (List.mem_reverse.mp (List.mem_of_mem_take h))
    omega
  · rintro ⟨ht, hfew⟩
    obtain ⟨rest, hrest⟩ : ∃ rest,
        limit = (listing.opens (t + 1) stop).reverse.length + (rest + 1) := by
      refine ⟨limit - (listing.opens (t + 1) stop).length - 1, ?_⟩
      rw [List.length_reverse]
      omega
    rw [listing.reverse_opens ht, hrest, List.take_length_add_append, List.take_succ_cons]
    exact List.mem_append_right _ List.mem_cons_self

/-- There is nothing to share between chunks of one bar; of more bars, there are never so many
within the width of a bar that the page of a chunk has no room for them and the one that they
follow. -/
def Sparse (cap : Nat) : Prop :=
  cap = 1 ∨ ∀ t, listing.isOpen t = true → (listing.opens (t + 1) (t + interval.width)).length < cap

/-- The exchange answers a call with the newest bars that open from the start of the call to its
last instant, in any order. -/
def Answers (call : PageCall) (answer : PageAnswer) : Prop :=
  ∃ (page : Value) (times : List Int), answer = .page page ∧
    page.elements? = some (times.map listing.row) ∧
    times.Perm ((listing.opens call.start (call.last + 1)).reverse.take call.limit)

/-- An exchange that shows the newest bars first. Nothing else goes on. -/
def exchange : Venue Number.Binary64 (StateM Unit) :=
  .steady fun call => .page (.list
    (((listing.opens call.start (call.last + 1)).reverse.take call.limit).map listing.row))

theorem exchange_answers (call : PageCall) (world : Unit) :
    listing.Answers call (listing.exchange.call call world).1 :=
  ⟨_, _, rfl, rfl, List.Perm.refl _⟩

theorem readAll_rows {times : List Int} (h : ∀ t ∈ times, listing.isOpen t = true) :
    Row.readAll interval (times.map listing.row) = .ok (times.map listing.candle) := by
  rw [Row.readAll_eq_ok_iff, List.forall₂_map_left_iff, List.forall₂_map_right_iff,
    List.forall₂_same]
  exact fun t ht => listing.reads t (h t ht)

/-- Whether the page of a chunk shows a bar: it does unless as many bars of the chunk open later as
the page may have. -/
def onPage (chunk : Chunk) (t : Int) : Bool :=
  chunk.start ≤ t && t < chunk.stop && (listing.opens (t + 1) chunk.stop).length < chunk.limit

/-- Whether one of some pages shows a bar. -/
def shown (chunks : List Chunk) (t : Int) : Bool := chunks.any fun chunk => listing.onPage chunk t

theorem onPage_iff {chunk : Chunk} {t : Int} :
    listing.onPage chunk t = true ↔ (chunk.start ≤ t ∧ t < chunk.stop) ∧
      (listing.opens (t + 1) chunk.stop).length < chunk.limit := by
  simp [onPage]

/-- The page shows the newest bars of the chunk. -/
theorem filter_onPage (chunk : Chunk) :
    (listing.opens chunk.start chunk.stop).filter (listing.onPage chunk) =
      ((listing.opens chunk.start chunk.stop).reverse.take chunk.limit).reverse := by
  apply List.Pairwise.eq_of_mem_iff (r := (· < ·))
  · exact (listing.opens_pairwise_lt _ _).filter _
  · apply List.pairwise_reverse.mpr
    apply List.Pairwise.sublist (List.take_sublist _ _)
    exact List.pairwise_reverse.mpr (listing.opens_pairwise_lt _ _)
  · intro t
    rw [List.mem_filter, List.mem_reverse, listing.mem_newest, listing.mem_opens,
      listing.onPage_iff]
    constructor
    · rintro ⟨hinside, -, hfew⟩
      exact ⟨hinside, hfew⟩
    · rintro ⟨hinside, hfew⟩
      exact ⟨hinside, hinside.1, hfew⟩

theorem shown_iff {chunks : List Chunk} {t : Int} :
    listing.shown chunks t = true ↔ ∃ chunk ∈ chunks, listing.onPage chunk t = true :=
  List.any_eq_true

/-- The page of a chunk is read as the candles of the bars that it shows. -/
theorem readPage_of_answers {request : Request} (listing : Listing request.interval) {plan : Plan}
    {maxRetries : Int} {chunk : Chunk} {page : Value}
    (h : listing.Answers (FetchJob.pageCall ⟨request, plan, maxRetries⟩ chunk) (.page page))
    (held : Nat) :
    ∃ times : List Int, FetchJob.readPage ⟨request, plan, maxRetries⟩ held page =
        .ok (times.map listing.candle) ∧
      ∀ t, t ∈ times ↔ listing.isOpen t = true ∧ listing.onPage chunk t = true := by
  obtain ⟨page', times, hpage, helements, hperm⟩ := h
  cases hpage
  have hlast : chunk.last + 1 = chunk.stop := by
    unfold Chunk.last
    omega
  have hmem (t : Int) : t ∈ times ↔ listing.isOpen t = true ∧ listing.onPage chunk t = true := by
    rw [hperm.mem_iff, onPage_iff]
    change t ∈ (listing.opens chunk.start (chunk.last + 1)).reverse.take chunk.limit ↔ _
    rw [hlast, mem_newest, mem_opens, and_comm (a := listing.isOpen t = true), and_right_comm]
  refine ⟨times, ?_, hmem⟩
  unfold FetchJob.readPage
  rw [helements]
  simp only [listing.readAll_rows fun t ht => ((hmem t).mp ht).1]

theorem times_candles {times : List Int} (h : ∀ t ∈ times, listing.isOpen t = true) :
    (times.map listing.candle).map openTime = times := by
  have hself : times.map (openTime ∘ listing.candle) = times.map id :=
    List.map_congr_left fun t ht => listing.openTime_candle t (h t ht)
  rw [List.map_map, hself, List.map_id]

section Add

variable {series : Series Candle} {held times : List Int}
  (hkept : series.kept = held.map listing.candle)
  (hheld : ∀ t ∈ held, listing.isOpen t = true) (htimes : ∀ t ∈ times, listing.isOpen t = true)

include hkept hheld

/-- In a series that holds the candles of some bars, a bar comes later if it opens after all of
them. -/
theorem later_iff (hordered : held.Pairwise (· < ·)) {t : Int} :
    Later series.tail? t ↔ ∀ s ∈ held, s < t := by
  have hopenTimes : series.kept.map openTime = held := by
    rw [hkept, listing.times_candles hheld]
  constructor
  · intro hlater s hs
    have hascending : Ascending series.kept := by
      apply List.pairwise_map.mp
      rw [hopenTimes]
      exact hordered
    rw [← hopenTimes] at hs
    obtain ⟨x, hx, rfl⟩ := List.mem_map.mp hs
    exact Series.lt_of_later hascending hx hlater
  · intro hbefore
    apply Series.later_of_lt
    intro x hx
    apply hbefore
    rw [← hopenTimes]
    exact List.mem_map_of_mem hx

include htimes

/-- A series that holds the candles of some bars, and is given those of others, only has records
that are the candles of their times. -/
theorem candle_openTime_add {x : Candle}
    (hx : x ∈ (series.add (times.map listing.candle)).kept) :
    listing.candle (openTime x) = x := by
  have hsource : ∃ t, listing.isOpen t = true ∧ listing.candle t = x := by
    rcases List.mem_append.mp hx with hold | hnew
    · rw [hkept] at hold
      obtain ⟨t, ht, rfl⟩ := List.mem_map.mp hold
      exact ⟨t, hheld t ht, rfl⟩
    · obtain ⟨t, ht, rfl⟩ := List.mem_map.mp (mem_of_mem_mergePage hnew)
      exact ⟨t, htimes t ht, rfl⟩
  obtain ⟨t, ht, rfl⟩ := hsource
  exact congrArg listing.candle (listing.openTime_candle t ht)

/-- It then holds the candles of the bars that it held, and of those others that open after all of
them. -/
theorem kept_add (hordered : held.Pairwise (· < ·)) {wanted : List Int}
    (hwantedOrdered : wanted.Pairwise (· < ·))
    (hwanted : ∀ t, t ∈ wanted ↔ t ∈ held ∨ t ∈ times ∧ ∀ s ∈ held, s < t) :
    (series.add (times.map listing.candle)).kept = wanted.map listing.candle := by
  have hascending : Ascending series.kept := by
    apply List.pairwise_map.mp
    rw [hkept, listing.times_candles hheld]
    exact hordered
  have hopenTimes : (series.add (times.map listing.candle)).kept.map openTime = wanted := by
    apply List.Pairwise.eq_of_mem_iff (r := (· < ·))
    · exact List.pairwise_map.mpr (Series.add_ascending hascending _)
    · exact hwantedOrdered
    · intro t
      rw [Series.mem_times_add, hkept, listing.times_candles hheld, listing.times_candles htimes,
        listing.later_iff hkept hheld hordered, hwanted]
  have hself : (series.add (times.map listing.candle)).kept.map (listing.candle ∘ openTime) =
      (series.add (times.map listing.candle)).kept.map id :=
    List.map_congr_left fun _ hx => listing.candle_openTime_add hkept hheld htimes hx
  calc (series.add (times.map listing.candle)).kept
      = (series.add (times.map listing.candle)).kept.map (listing.candle ∘ openTime) := by
        rw [hself, List.map_id]
    _ = ((series.add (times.map listing.candle)).kept.map openTime).map listing.candle := by
        rw [List.map_map]
    _ = wanted.map listing.candle := by rw [hopenTimes]

end Add

end Listing

end CandleHistory
