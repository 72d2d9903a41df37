import CandleHistory.Paging.Plan

/-!
Where the chunks of a plan lie. Each starts after the one before it and no later than where the one
before it ends, and the range has room for as many of them as it has instants. Whether one can begin
to go through them is a matter of the digits of three numbers.
-/

namespace CandleHistory.Plan

variable {plan : Plan} {start next : Int} {fuel : Nat}

theorem make_isOk (range : DateRange) (interval : Interval) {cap : Int} (hcap : 1 ≤ cap) :
    ∃ plan, Plan.make range interval cap = .ok plan ∧ plan.range = range ∧
      plan.interval = interval ∧ plan.cap = cap.toNat := by
  have hpos : 0 < cap.toNat := by omega
  refine ⟨⟨range, interval, cap.toNat, hpos⟩, ?_, rfl, rfl, rfl⟩
  unfold Plan.make
  exact dif_pos hpos

/-- The ends of the range and the cap are short enough to be written. -/
def Announceable (plan : Plan) : Prop :=
  plan.range.start.natAbs < Number.integerBound ∧ plan.range.stop.natAbs < Number.integerBound ∧
    plan.cap < Number.integerBound

theorem openingMessage_of_announceable (h : plan.Announceable) :
    ∃ message, plan.openingMessage = .ok message := by
  obtain ⟨hstart, hstop, hcap⟩ := h
  have hcap' : (plan.cap : Int).natAbs < Number.integerBound := hcap
  unfold openingMessage
  rw [Number.integerText_of_lt hstart, Number.integerText_of_lt hstop,
    Number.integerText_of_lt hcap']
  exact ⟨_, rfl⟩

theorem openingMessage_of_not_announceable (h : ¬ plan.Announceable) :
    plan.openingMessage = .error .tooManyDigits := by
  unfold openingMessage
  by_cases hstart : plan.range.start.natAbs < Number.integerBound
  · by_cases hstop : plan.range.stop.natAbs < Number.integerBound
    · have hcap : ¬ (plan.cap : Int).natAbs < Number.integerBound :=
        fun hcap => h ⟨hstart, hstop, hcap⟩
      rw [Number.integerText_of_lt hstart, Number.integerText_of_lt hstop,
        Number.integerText_of_not_lt hcap]
      rfl
    · rw [Number.integerText_of_lt hstart, Number.integerText_of_not_lt hstop]
      rfl
  · rw [Number.integerText_of_not_lt hstart]
    rfl

theorem width_le_span (plan : Plan) : plan.interval.width ≤ plan.span :=
  Nat.le_mul_of_pos_left _ plan.cap_pos

theorem step_le_span (plan : Plan) : plan.step ≤ plan.span := by
  unfold step
  split
  · exact plan.width_le_span
  · exact Nat.mul_le_mul_right _ (Nat.sub_le _ _)

/-- With one bar to a chunk, the next one starts where this one ends. -/
theorem step_eq_span (h : plan.cap = 1) : plan.step = plan.span := by
  unfold step span
  rw [if_pos h, h, Nat.one_mul]

/-- With more than one bar to a chunk, the next one starts a bar's width before this one ends. -/
theorem step_add_width (h : plan.cap ≠ 1) : plan.step + plan.interval.width = plan.span := by
  have hwidth := plan.width_le_span
  unfold step span at *
  rw [if_neg h, Nat.sub_mul, Nat.one_mul]
  exact Nat.sub_add_cancel hwidth

theorem chunkAt_stop (plan : Plan) (start : Int) :
    (plan.chunkAt start).stop = min (start + plan.span) plan.range.stop := rfl

theorem start_lt_stop (h : plan.range.isEmpty = false) : plan.range.start < plan.range.stop := by
  have horder := plan.range.start_le_stop
  have hne := ne_of_beq_false h
  omega

theorem first?_of_isEmpty (h : plan.range.isEmpty = true) : plan.first? = none := by
  have hequal : plan.range.start = plan.range.stop := eq_of_beq h
  apply if_neg
  omega

theorem first?_of_nonempty (h : plan.range.isEmpty = false) :
    plan.first? = some plan.range.start := if_pos (start_lt_stop h)

/-- A range with an instant has room for a chunk. -/
theorem exists_length_eq (h : plan.range.isEmpty = false) :
    ∃ fuel, plan.range.length = fuel + 1 := by
  have hlt := start_lt_stop h
  refine ⟨plan.range.length - 1, ?_⟩
  unfold DateRange.length
  omega

theorem after?_eq_some (h : plan.after? start = some next) :
    start + plan.span < plan.range.stop ∧ next = start + plan.step := by
  unfold after? at h
  rw [chunkAt_stop] at h
  split at h
  · cases h
    omega
  · cases h

theorem after?_eq_none (h : plan.after? start = none) : plan.range.stop ≤ start + plan.span := by
  unfold after? at h
  rw [chunkAt_stop] at h
  split at h
  · cases h
  · omega

/-- The next chunk starts later than the one before it. -/
theorem lt_of_after? (h : plan.after? start = some next) : start < next := by
  obtain ⟨-, rfl⟩ := after?_eq_some h
  have hstep := plan.step_pos
  omega

/-- The next chunk, if there is one, starts in the range, and some fuel is enough for all chunks
from it on. -/
def Within (plan : Plan) (fuel : Nat) (next : Option Int) : Prop :=
  ∀ start, next = some start →
    plan.range.start ≤ start ∧ start < plan.range.stop ∧ plan.range.stop ≤ start + fuel

theorem within_first (plan : Plan) : plan.Within plan.range.length plan.first? := by
  intro start hfirst
  unfold first? at hfirst
  split at hfirst
  · cases hfirst
    unfold DateRange.length
    omega
  · cases hfirst

theorem Within.after (h : plan.Within (fuel + 1) (some start)) :
    plan.Within fuel (plan.after? start) := by
  intro next hnext
  obtain ⟨hlower, -, hfuel⟩ := h start rfl
  obtain ⟨hend, rfl⟩ := after?_eq_some hnext
  have hpos := plan.step_pos
  have hstep := plan.step_le_span
  omega

/-- Fuel that is enough for all chunks is not used up while there is one left. -/
theorem Within.fuel_pos (h : plan.Within fuel (some start)) : 0 < fuel := by
  obtain ⟨-, hupper, hfuel⟩ := h start rfl
  omega

theorem chunkAt_stop_le (plan : Plan) (start : Int) :
    (plan.chunkAt start).stop ≤ plan.range.stop := by
  rw [chunkAt_stop]
  omega

theorem chunkAt_start_lt_stop (h : start < plan.range.stop) :
    (plan.chunkAt start).start < (plan.chunkAt start).stop := by
  have hwidth := plan.interval.width_pos
  have hspan := plan.width_le_span
  have hstart : (plan.chunkAt start).start = start := rfl
  rw [chunkAt_stop, hstart]
  omega

/-- The chunks before the next one reach up to an instant: the next one starts no later and does not
end before it. When there is no next chunk, they reach the end of the range. -/
def Covered (plan : Plan) (covered : Int) : Option Int → Prop
  | none => covered = plan.range.stop
  | some start => start ≤ covered ∧ covered ≤ (plan.chunkAt start).stop

theorem covered_first (plan : Plan) : plan.Covered plan.range.start plan.first? := by
  have horder := plan.range.start_le_stop
  unfold first?
  split
  case isTrue hlt =>
    have hstop := chunkAt_start_lt_stop hlt
    exact ⟨Int.le_refl _, Int.le_of_lt hstop⟩
  case isFalse hge =>
    change plan.range.start = plan.range.stop
    omega

theorem covered_after (plan : Plan) (start : Int) :
    plan.Covered (plan.chunkAt start).stop (plan.after? start) := by
  cases hnext : plan.after? start with
  | none =>
      have hreach := after?_eq_none hnext
      change (plan.chunkAt start).stop = plan.range.stop
      rw [chunkAt_stop]
      omega
  | some next =>
      obtain ⟨hend, rfl⟩ := after?_eq_some hnext
      have hstep := plan.step_le_span
      change start + plan.step ≤ (plan.chunkAt start).stop ∧
        (plan.chunkAt start).stop ≤ (plan.chunkAt (start + plan.step)).stop
      rw [chunkAt_stop, chunkAt_stop]
      omega

theorem take_none {fuel : Nat} : (plan.take fuel none).1 = [] := by
  cases fuel <;> rfl

theorem take_succ (plan : Plan) (fuel : Nat) (start : Int) :
    (plan.take (fuel + 1) (some start)).1 =
      plan.chunkAt start :: (plan.take fuel (plan.after? start)).1 := rfl

/-- A range that is no longer than a chunk may be is a single chunk. -/
theorem chunks_of_le_span (hnonempty : plan.range.isEmpty = false)
    (hspan : plan.range.stop ≤ plan.range.start + plan.span) :
    plan.chunks = [⟨plan.range.start, plan.range.stop, plan.cap⟩] := by
  obtain ⟨fuel, hlength⟩ := exists_length_eq hnonempty
  have hstop : (plan.chunkAt plan.range.start).stop = plan.range.stop := Int.min_eq_right hspan
  have hlast : plan.after? plan.range.start = none := by
    apply if_neg
    omega
  rw [chunks, first?_of_nonempty hnonempty, hlength, take_succ, hlast, take_none, ← hstop]
  rfl

theorem start_le_of_mem_take {chunk : Chunk} (h : chunk ∈ (plan.take fuel (some start)).1) :
    start ≤ chunk.start := by
  induction fuel generalizing start with
  | zero => cases h
  | succ fuel ih =>
      rw [take_succ] at h
      rcases List.mem_cons.mp h with rfl | hlater
      · exact Int.le_refl _
      · cases hnext : plan.after? start with
        | none =>
            rw [hnext, take_none] at hlater
            cases hlater
        | some next =>
            rw [hnext] at hlater
            exact Int.le_trans (Int.le_of_lt (lt_of_after? hnext)) (ih hlater)

/-- Each chunk starts later than the one before it. -/
theorem take_pairwise (plan : Plan) (fuel : Nat) (next : Option Int) :
    (plan.take fuel next).1.Pairwise fun first second => first.start < second.start := by
  induction fuel generalizing next with
  | zero => cases next <;> exact List.Pairwise.nil
  | succ fuel ih =>
      cases next with
      | none => exact List.Pairwise.nil
      | some start =>
          rw [take_succ]
          refine List.pairwise_cons.mpr ⟨fun chunk hchunk => ?_, ih _⟩
          cases hnext : plan.after? start with
          | none =>
              rw [hnext, take_none] at hchunk
              cases hchunk
          | some next =>
              rw [hnext] at hchunk
              exact Int.lt_of_lt_of_le (lt_of_after? hnext) (start_le_of_mem_take hchunk)

/-- The chunks lie in the range, and none of them is empty. -/
theorem inside_of_mem_take {next? : Option Int} (h : plan.Within fuel next?) {chunk : Chunk}
    (hchunk : chunk ∈ (plan.take fuel next?).1) :
    plan.range.start ≤ chunk.start ∧ chunk.start < chunk.stop ∧
      chunk.stop ≤ plan.range.stop ∧ chunk.limit = plan.cap := by
  induction fuel generalizing next? with
  | zero => cases next? <;> cases hchunk
  | succ fuel ih =>
      cases next? with
      | none => cases hchunk
      | some start =>
          obtain ⟨hlower, hupper, -⟩ := h start rfl
          rw [take_succ] at hchunk
          rcases List.mem_cons.mp hchunk with rfl | hlater
          · exact ⟨hlower, chunkAt_start_lt_stop hupper, plan.chunkAt_stop_le start, rfl⟩
          · exact ih h.after hlater

/-- Every instant from the start of a chunk on lies in that chunk or in a later one, and some chunk
has it and a bar's width before it, unless it is only in the first one or neighbours share nothing.
-/
theorem exists_chunkAt_mem_take (h : plan.Within fuel (some start)) {t : Int} (hge : start ≤ t)
    (hlt : t < plan.range.stop) :
    ∃ first, plan.chunkAt first ∈ (plan.take fuel (some start)).1 ∧
      first ≤ t ∧ t < (plan.chunkAt first).stop ∧
      (first = start ∨ plan.cap = 1 ∨ first + plan.interval.width ≤ t) := by
  induction fuel generalizing start with
  | zero => exact absurd h.fuel_pos (Nat.lt_irrefl 0)
  | succ fuel ih =>
      rw [take_succ]
      rcases Int.lt_or_le t (plan.chunkAt start).stop with hinside | hbeyond
      · exact ⟨start, List.mem_cons_self, hge, hinside, Or.inl rfl⟩
      · have hspan : start + plan.span ≤ t := by
          rw [chunkAt_stop] at hbeyond
          omega
        have hnext : plan.after? start = some (start + plan.step) := by
          apply if_pos
          omega
        have hstep := plan.step_le_span
        obtain ⟨first, hmem, hle, hstop, hplace⟩ := ih (hnext ▸ h.after) (by omega)
        refine ⟨first, ?_, hle, hstop, Or.inr ?_⟩
        · rw [hnext]
          exact List.mem_cons_of_mem _ hmem
        · rcases hplace with hfirst | hrest
          · by_cases hcap : plan.cap = 1
            · exact Or.inl hcap
            · have hoverlap := step_add_width hcap
              exact Or.inr (by omega)
          · exact hrest

end CandleHistory.Plan
