import CandleHistory.Proofs.CalendarMonths
import CandleHistory.Proofs.Market
import CandleHistory.Proofs.ShownBars

/-!
Fetches of the bars of calendar months. The chunks take every month to have thirty days, so a page
may be asked for more months than it has room for, and the oldest of them is then left out. With
four bars to a chunk, or more, this never happens. With two or three it can only happen to a month
that begins on the first day of the range, and with one only to a February.
-/

namespace CandleHistory

open Calendar

/-- The months that a fetch may leave out, given how many bars a call asks for and where the range
begins. -/
def MissableMonth (limit start t : Int) : Prop :=
  limit = 1 ∧ MonthBegins 2 t ∨ (limit = 2 ∨ limit = 3) ∧ t < start + 86400000

namespace Listing

variable {interval : Interval} (listing : Listing interval)
  (hmonths : ∀ t, listing.isOpen t = true ↔ ∃ month, MonthBegins month t)

include hmonths

theorem exists_number_of_isOpen {t : Int} (hopen : listing.isOpen t = true) :
    ∃ number, monthStart number = t := by
  obtain ⟨month, hbegins⟩ := (hmonths t).mp hopen
  obtain ⟨number, -, -, hstart⟩ := monthBegins_iff.mp hbegins
  exact ⟨number, hstart⟩

/-- After a month and before the one that comes some months later, fewer months begin than that. -/
theorem length_opens_lt_of_le {number count : Nat} (hcount : 0 < count) {stop : Int}
    (hstop : stop ≤ monthStart (number + count)) :
    (listing.opens (monthStart number + 1) stop).length < count := by
  have hbetween : listing.opens (monthStart number + 1) stop ⊆
      (List.range' (number + 1) (count - 1)).map monthStart := by
    intro t ht
    obtain ⟨⟨hafter, hbefore⟩, hopen⟩ := listing.mem_opens.mp ht
    obtain ⟨later, rfl⟩ := listing.exists_number_of_isOpen hmonths hopen
    have hlower : number < later := monthStart_lt_iff.mp (by omega)
    have hupper : later < number + count := monthStart_lt_iff.mp (by omega)
    exact List.mem_map_of_mem (List.mem_range'_1.mpr (by omega))
  have hlength := (List.subperm_of_subset (listing.opens_nodup _ _) hbetween).length_le
  rw [List.length_map, List.length_range'] at hlength
  omega

/-- At most one month begins within thirty days of another one. -/
theorem sparse_of_months (hinterval : interval = .month) {cap : Nat} (hcap : 0 < cap) :
    listing.Sparse cap := by
  rcases Nat.eq_or_lt_of_le (Nat.succ_le_of_lt hcap) with hone | hmore
  · exact Or.inl hone.symm
  · refine Or.inr fun t hopen => Nat.lt_of_lt_of_le (m := 2) ?_ hmore
    obtain ⟨number, rfl⟩ := listing.exists_number_of_isOpen hmonths hopen
    apply listing.length_opens_lt_of_le hmonths (by decide : 0 < 2)
    have hdays := thirty_mul_le_commonDays_succ (Nat.le_refl 2) number
    have htime := monthStart_add_le number 2
    have hwidth : (interval.width : Int) = 30 * 86400000 := by
      rw [hinterval]
      rfl
    omega

/-- Where some months begin after one, there is room for as many months without a leap day. -/
theorem add_commonDays_lt {number count : Nat} (hcount : 0 < count) {stop : Int}
    (hmany : count ≤ (listing.opens (monthStart number + 1) stop).length) :
    monthStart number + 86400000 * commonDays number count < stop := by
  refine Int.lt_of_not_ge fun hroom => ?_
  have hnext := monthStart_add_le number count
  have hfew := listing.length_opens_lt_of_le hmonths hcount (Int.le_trans hroom hnext)
  omega

/-- Only such months are not on the page of any chunk. -/
theorem missable_of_not_shown (hinterval : interval = .month) {plan : Plan}
    (hplan : plan.interval = interval) {t : Int}
    (ht : t ∈ listing.opens plan.range.start plan.range.stop)
    (hmissed : listing.shown plan.chunks t = false) :
    MissableMonth plan.cap plan.range.start t := by
  obtain ⟨month, hbegins⟩ := (hmonths t).mp (listing.isOpen_of_mem_opens t ht)
  obtain ⟨number, hnumber, hmonth, rfl⟩ := monthBegins_iff.mp hbegins
  obtain ⟨first, hle, hmany, hplace⟩ := listing.exists_crowded_of_not_shown ht hmissed
  have hshort := listing.add_commonDays_lt hmonths plan.cap_pos hmany
  have hwidth : plan.interval.width = 30 * 86400000 := by
    rw [hplan, hinterval]
    rfl
  have hend : (plan.chunkAt first).stop ≤ first + plan.cap * (30 * 86400000) := by
    rw [Plan.chunkAt_stop, Plan.span, hwidth]
    omega
  rw [hwidth] at hplace
  -- The months after this one, in the chunk, are shorter than the chunk takes as many months to be.
  have hpos := plan.cap_pos
  rcases Nat.lt_or_ge plan.cap 2 with hone | hseveral
  · have hcap : plan.cap = 1 := by omega
    have hlength : commonLength number < 30 := by
      rw [hcap, commonDays_one] at hshort
      rw [hcap] at hend
      omega
    exact Or.inl ⟨by omega, monthBegins_iff.mpr ⟨number, hnumber, eq_february hlength, rfl⟩⟩
  · have hdays := thirty_mul_le_commonDays_succ hseveral number
    rcases Nat.lt_or_ge plan.cap 4 with hfew | hmany
    · refine Or.inr ⟨by omega, ?_⟩
      omega
    · have hdays := thirty_mul_le_commonDays hmany number
      omega

/-- The months that begin from one month on and up to an instant, given the last one of them. -/
theorem opens_monthStart (first count : Nat) {stop : Int}
    (hcalendar : first + count < 12 * lastYear) (hlast : monthStart (first + count) < stop)
    (hnext : stop ≤ monthStart (first + count + 1)) :
    listing.opens (monthStart first) stop = (List.range' first (count + 1)).map monthStart := by
  symm
  apply listing.eq_opens
  · apply List.pairwise_map.mpr
    exact (List.pairwise_lt_range' _).imp fun hlt => monthStart_lt_iff.mpr hlt
  · intro t
    constructor
    · intro ht
      obtain ⟨number, hnumber, rfl⟩ := List.mem_map.mp ht
      obtain ⟨hlower, hupper⟩ := List.mem_range'_1.mp hnumber
      have hafter := monthStart_le_iff.mpr hlower
      have hbefore := monthStart_le_iff.mpr (by omega : number ≤ first + count)
      have hbegins : MonthBegins (number % 12 + 1) (monthStart number) :=
        monthBegins_iff.mpr ⟨number, by omega, rfl, rfl⟩
      exact ⟨⟨hafter, by omega⟩, (hmonths _).mpr ⟨_, hbegins⟩⟩
    · rintro ⟨⟨hafter, hbefore⟩, hopen⟩
      obtain ⟨number, rfl⟩ := listing.exists_number_of_isOpen hmonths hopen
      have hlower := monthStart_le_iff.mp hafter
      have hupper := monthStart_lt_iff.mp (Int.lt_of_lt_of_le hbefore hnext)
      exact List.mem_map_of_mem (List.mem_range'_1.mpr (by omega))

omit hmonths

/-- The exchange with the bars of all months of the calendar, which only differ in their times. -/
def months : Listing .month where
  isOpen t := decide (∃ number < 12 * lastYear, monthStart number = t)
  row := Market.single.row
  candle t := { Market.single.candle t with closeTime := t + 2592000000 }
  reads _ _ := rfl
  openTime_candle _ _ := rfl

theorem months_isOpen (t : Int) : months.isOpen t = true ↔ ∃ month, MonthBegins month t := by
  unfold months
  rw [decide_eq_true_iff]
  constructor
  · rintro ⟨number, hnumber, hstart⟩
    exact ⟨_, monthBegins_iff.mpr ⟨number, hnumber, rfl, hstart⟩⟩
  · rintro ⟨month, hbegins⟩
    obtain ⟨number, hnumber, -, hstart⟩ := monthBegins_iff.mp hbegins
    exact ⟨number, hnumber, hstart⟩

end Listing

variable {σ τ : Type} [TimeNumber τ]

/-- An uncancelled fetch from an exchange that lists the bars of the calendar months hands out the
months that the pages of the chunks show, in order and up to the cap. These are all months of the
range if a call asks for four bars or more. If it asks for one, a February may be missing, and if it
asks for two or three, a month that begins on the first day of the range. -/
theorem fetch_eq_shown_months {request : Request} (hinterval : request.interval = .month)
    (listing : Listing request.interval)
    (hmonths : ∀ t, listing.isOpen t = true ↔ ∃ month, MonthBegins month t)
    (venue : Venue τ (StateM σ))
    (hanswers : ∀ call world, listing.Answers call (venue.call call world).1)
    (hcalm : ∀ world, (venue.cancelRequested world).1 = false)
    (range : DateRange) (hrange : range.InCalendar)
    (maxRecords : Int) (hrecords : 1 ≤ maxRecords) (maxRetries : Int) (spacing : Spacing τ)
    (world : σ) :
    ∃ plan, Plan.make range request.interval request.limit = .ok plan ∧
      ((fetch venue maxRetries request range maxRecords spacing world).1.1 =
        if range.isEmpty = true ∨ (maxRetries + 1).natAbs < Number.integerBound then
          .ok ((((listing.opens range.start range.stop).filter (listing.shown plan.chunks)).take
            maxRecords.toNat).map listing.candle)
        else .error (.broke .tooManyDigits)) ∧
      ∀ t ∈ listing.opens range.start range.stop, listing.shown plan.chunks t = false →
        MissableMonth request.limit range.start t := by
  have hlimit := request.one_le_limit
  have hsparse := listing.sparse_of_months hmonths hinterval (by omega : 0 < request.limit.toNat)
  obtain ⟨plan, hplan, hresult⟩ := fetch_eq_shown listing venue hanswers hcalm range hrange
    hsparse maxRecords hrecords maxRetries spacing world
  refine ⟨plan, hplan, hresult, fun t ht hmissed => ?_⟩
  obtain ⟨plan', hplan', rfl, hsame, hcap⟩ := Plan.make_isOk range request.interval hlimit
  rw [hplan'] at hplan
  cases hplan
  have hmissable := listing.missable_of_not_shown hmonths hinterval hsame ht hmissed
  rw [hcap, Int.toNat_of_nonneg (by omega)] at hmissable
  exact hmissable

/-- Two bars are asked for, and three months begin within sixty days: the first one is lost. -/
theorem fetch_eq_shown_months_february :
    let request : Request := ⟨"BTCUSDT", .month, .linear, 2, by decide⟩
    let february : Int := 1675209600000
    let march : Int := 1677628800000
    let april : Int := 1680307200000
    let range : DateRange := ⟨february, 1680393600000, by decide⟩
    (fetch Listing.months.exchange 3 request range 10 ⟨.zero, none⟩ ()).1.1 =
        .ok [Listing.months.candle march, Listing.months.candle april] ∧
      Listing.months.opens range.start range.stop = [february, march, april] := by
  intro request february march april range
  have hopens : Listing.months.opens range.start range.stop = [february, march, april] :=
    Listing.months.opens_monthStart Listing.months_isOpen 24265 2 (by decide) (by decide)
      (by decide)
  let chunk : Chunk := ⟨range.start, range.stop, 2⟩
  have hpage : (Listing.months.opens range.start range.stop).filter (Listing.months.onPage chunk) =
      [march, april] := by
    have hnewest := Listing.months.filter_onPage chunk
    rw [hopens] at hnewest ⊢
    exact hnewest
  refine ⟨?_, hopens⟩
  have hinterval : request.interval = .month := rfl
  obtain ⟨plan, hplan, hresult, -⟩ := fetch_eq_shown_months hinterval
    Listing.months Listing.months_isOpen Listing.months.exchange Listing.months.exchange_answers
    (fun _ => rfl) range (by constructor <;> decide) 10 (by decide) 3 ⟨.zero, none⟩ ()
  have hcount : ((3 : Int) + 1).natAbs < Number.integerBound :=
    Number.lt_integerBound_of_lt_twoPow (by decide)
  have hsingle : plan.chunks = [chunk] := by
    cases hplan
    exact Plan.chunks_of_le_span (by decide) (by decide)
  have hshown : Listing.months.shown plan.chunks = Listing.months.onPage chunk := by
    rw [hsingle]
    funext t
    exact Listing.months.shown_singleton
  rw [hresult, if_pos (Or.inr hcount), hshown, hpage]
  rfl

end CandleHistory
