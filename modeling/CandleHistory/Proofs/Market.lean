import CandleHistory.Proofs.Listing

/-!
Exchanges that list bars which lie no closer together than they are wide. A chunk never has more of
them than a call may return, and what a page shows of its chunk is all there is.
-/

namespace CandleHistory

/-- A market lists bars that do not overlap. -/
structure Market (interval : Interval) extends Listing interval where
  spaced : ∀ s t, isOpen s = true → isOpen t = true → s < t → s + interval.width ≤ t

namespace Market

variable {interval : Interval} (market : Market interval)

/-- Numbers that lie a width apart in a window of some widths are no more than those widths. -/
private theorem length_le_of_spaced (width : Nat) (start : Int) {cap : Nat} {times : List Int}
    (hspaced : times.Pairwise fun s t : Int => s + width ≤ t)
    (hwindow : ∀ t ∈ times, start ≤ t ∧ t < start + (cap * width : Nat)) : times.length ≤ cap := by
  induction times generalizing start cap with
  | nil => exact Nat.zero_le _
  | cons x xs ih =>
      obtain ⟨hx, hxs⟩ := List.pairwise_cons.mp hspaced
      obtain ⟨hlower, hupper⟩ := hwindow x List.mem_cons_self
      cases cap with
      | zero =>
          rw [Nat.zero_mul] at hupper
          omega
      | succ cap =>
          apply Nat.succ_le_succ
          apply ih (x + width) hxs
          intro t ht
          have hafter := hx t ht
          have hbefore := (hwindow t (List.mem_cons_of_mem x ht)).2
          rw [Nat.succ_mul] at hbefore
          omega

/-- A window of some bars' width has no more bars than that. -/
theorem length_opens_le {start stop : Int} {cap : Nat}
    (hwindow : stop ≤ start + (cap * interval.width : Nat)) :
    (market.opens start stop).length ≤ cap := by
  apply length_le_of_spaced interval.width start
  · apply (market.opens_pairwise_lt start stop).imp_of_mem
    intro s t hs ht hlt
    exact market.spaced s t (market.isOpen_of_mem_opens s hs)
      (market.isOpen_of_mem_opens t ht) hlt
  · intro t ht
    obtain ⟨hrange, -⟩ := market.mem_opens.mp ht
    omega

/-- No bar opens before the one before it is over. -/
theorem sparse {cap : Nat} (hcap : 0 < cap) : market.Sparse cap := by
  refine Or.inr fun t hopen => ?_
  have hnone : market.opens (t + 1) (t + interval.width) = [] := by
    apply List.eq_nil_iff_forall_not_mem.mpr
    intro s hs
    obtain ⟨hrange, hs⟩ := market.mem_opens.mp hs
    have hspaced := market.spaced t s hopen hs (by omega)
    omega
  rw [hnone]
  exact hcap

/-- The page of a chunk shows all bars of the chunk. -/
theorem onPage_of_mem {plan : Plan} (hinterval : plan.interval = interval) {start t : Int}
    (ht : t ∈ market.opens start (plan.chunkAt start).stop) :
    market.onPage (plan.chunkAt start) t = true := by
  have hall : (market.opens start (plan.chunkAt start).stop).length ≤ plan.cap := by
    apply market.length_opens_le
    rw [Plan.chunkAt_stop, ← hinterval]
    exact Int.min_le_left _ _
  rw [market.opens_eq_append_cons ht, List.length_append, List.length_cons] at hall
  apply market.onPage_iff.mpr
  refine ⟨(market.mem_opens.mp ht).1, ?_⟩
  change (market.opens (t + 1) (plan.chunkAt start).stop).length < plan.cap
  omega

/-- The exchange of a market, but busy when it is called for the first time. The state counts the
calls. -/
def busyAtFirst (market : Market interval) : Venue Number.Binary64 (StateM Nat) where
  now := pure .zero
  sleep _ := pure ()
  log _ := pure ()
  call call count :=
    if count = 0 then (.failed (.transient "busy"), 1)
    else ((market.exchange.call call ()).1, count + 1)
  cancelRequested := pure false
  report _ := pure none

/-- The market with a single bar, which opens at the start of 1970. -/
def single : Market .minutes1 where
  isOpen t := t == 0
  row t := .list [.integer t, .text "1", .text "3", .text "1", .text "2", .text "5", .text "7"]
  candle t :=
    { openTime := t
      closeTime := t + 60000
      openPrice := .finite false 1 0
      highPrice := .finite false 3 0
      lowPrice := .finite false 1 0
      closePrice := .finite false 2 0
      volume := .finite false 5 0
      turnover := .finite false 7 0 }
  spaced s t hs ht hlt := by
    have hs := beq_iff_eq.mp hs
    have ht := beq_iff_eq.mp ht
    omega
  reads t _ := rfl
  openTime_candle _ _ := rfl

end Market

end CandleHistory
