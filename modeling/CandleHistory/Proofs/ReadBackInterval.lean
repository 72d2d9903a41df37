import CandleHistory.Number.Shortest
import CandleHistory.Proofs.DoubleGrid

/-!
The interval of the quotients that are rounded to a given magnitude. Inside a binade it reaches half
a step to both sides, and its ends belong to it if the significand is even. At the start of a binade
the steps below are half as long, so the quotients just below are rounded on a finer grid and are
carried up to the magnitude.
-/

namespace CandleHistory.Number.Binary64

/-- Whether the quotient `n / d` lies in an interval of magnitudes. -/
def ReadBack.Contains (interval : ReadBack) (n d : Nat) : Prop :=
  if interval.closed then interval.low * d ≤ 4 * n ∧ 4 * n ≤ interval.high * d
  else interval.low * d < 4 * n ∧ 4 * n < interval.high * d

variable {n d m p : Nat}

theorem Fits.closed_readBack (h : Fits m p) : (readBack (m * twoPow p)).closed = (m % 2 == 0) := by
  unfold readBack
  dsimp only
  rw [h.droppedPlaces_eq, Nat.mul_div_cancel m (twoPow_pos p)]

theorem Fits.high_readBack (h : Fits m p) :
    (readBack (m * twoPow p)).high = 4 * (m * twoPow p) + 2 * twoPow p := by
  unfold readBack
  dsimp only
  rw [h.droppedPlaces_eq]

theorem low_readBack_carry (p : Nat) :
    (readBack (twoPow 52 * twoPow (p + 1))).low =
      4 * (twoPow 52 * twoPow (p + 1)) - twoPow (p + 1) := by
  have hstep : 1 < twoPow (p + 1) := twoPow_lt (Nat.succ_pos p)
  unfold readBack
  dsimp only
  rw [(fits_carry p).droppedPlaces_eq, if_pos ⟨rfl, hstep⟩]

theorem Fits.low_readBack (h : Fits m p) (hinside : ¬ (m = twoPow 52 ∧ 0 < p)) :
    (readBack (m * twoPow p)).low = 4 * (m * twoPow p) - 2 * twoPow p := by
  have hne : ¬ (m * twoPow p = twoPow 52 * twoPow p ∧ 1 < twoPow p) := by
    rintro ⟨heq, hstep⟩
    refine hinside ⟨Nat.eq_of_mul_eq_mul_right (twoPow_pos p) heq, Nat.pos_of_ne_zero ?_⟩
    rintro rfl
    exact Nat.lt_irrefl _ hstep
  unfold readBack
  dsimp only
  rw [h.droppedPlaces_eq, if_neg hne]

/-- Inside a binade the interval is that of the quotients that are rounded to the significand. -/
theorem Fits.contains_readBack_iff (h : Fits m p) (hm : 0 < m)
    (hinside : ¬ (m = twoPow 52 ∧ 0 < p)) :
    (readBack (m * twoPow p)).Contains n d ↔ IsRounded n (d * twoPow p) m := by
  have hregroup (k : Nat) : k * twoPow p * d = k * (d * twoPow p) := by ac_rfl
  have hsteps : d * twoPow p ≤ m * (d * twoPow p) := Nat.le_mul_of_pos_left _ hm
  unfold ReadBack.Contains
  rw [h.closed_readBack, h.high_readBack, h.low_readBack hinside, Nat.sub_mul, Nat.add_mul,
    Nat.mul_assoc 4, hregroup, hregroup]
  generalize d * twoPow p = step at hsteps ⊢
  constructor
  · intro hcontains
    split at hcontains
    case isTrue heven =>
      have hmEven : m % 2 = 0 := beq_iff_eq.mp heven
      exact ⟨by omega, by omega, fun _ => hmEven⟩
    case isFalse hodd => exact ⟨by omega, by omega, by omega⟩
  · rintro ⟨hle, hge, heven⟩
    split
    case isTrue => omega
    case isFalse hodd =>
      have hmOdd : m % 2 ≠ 0 := fun hmEven => hodd (beq_iff_eq.mpr hmEven)
      have hlow : 2 * (m * step) ≠ 2 * n + step := fun htie => hmOdd (heven (Or.inl htie))
      have hhigh : 2 * n ≠ 2 * (m * step) + step := fun htie => hmOdd (heven (Or.inr htie))
      omega

/-- At the start of a binade the interval is half as long below the magnitude as above it. -/
theorem contains_readBack_carry_iff :
    (readBack (twoPow 52 * twoPow (p + 1))).Contains n d ↔
      4 * (twoPow 52 * (d * twoPow (p + 1))) ≤ 4 * n + d * twoPow (p + 1) ∧
        2 * n ≤ 2 * (twoPow 52 * (d * twoPow (p + 1))) + d * twoPow (p + 1) := by
  have hregroup (k : Nat) : k * twoPow (p + 1) * d = k * (d * twoPow (p + 1)) := by ac_rfl
  have hsteps : d * twoPow (p + 1) ≤ twoPow 52 * (d * twoPow (p + 1)) :=
    Nat.le_mul_of_pos_left _ (twoPow_pos 52)
  have heven : (twoPow 52 % 2 == 0) = true := by decide
  unfold ReadBack.Contains
  rw [(fits_carry p).closed_readBack, (fits_carry p).high_readBack, low_readBack_carry,
    if_pos heven,
    Nat.sub_mul, Nat.add_mul, Nat.mul_assoc 4, hregroup, hregroup, Nat.mul_comm (twoPow (p + 1)) d]
  generalize d * twoPow (p + 1) = step at hsteps ⊢
  omega

/-- A quotient that is rounded to a magnitude lies in the interval of the magnitude. -/
theorem Fits.contains_of_roundsTo (h : Fits m p) (hm : 0 < m) {q k : Nat}
    (hrounds : RoundsTo n d q k) (heq : k * twoPow q = m * twoPow p) :
    (readBack (m * twoPow p)).Contains n d := by
  rcases hrounds.fits_or_eq with hfits | rfl
  · -- the quotient is in the binade of the magnitude
    have hplaces : q = p := by rw [← hfits.droppedPlaces_eq, heq, h.droppedPlaces_eq]
    subst hplaces
    obtain rfl := Nat.eq_of_mul_eq_mul_right (twoPow_pos q) heq
    by_cases hstart : k = twoPow 52 ∧ 0 < q
    · obtain ⟨rfl, hq⟩ := hstart
      obtain ⟨p, rfl⟩ : ∃ p, q = p + 1 := ⟨q - 1, by omega⟩
      have hge := hrounds.ge hq
      have hle := hrounds.rounded.add_le
      rw [Nat.mul_comm] at hge
      rw [contains_readBack_carry_iff]
      omega
    · exact (h.contains_readBack_iff hm hstart).mpr hrounds.rounded
  · -- the quotient is in the binade below and is rounded up to the magnitude
    rw [twoPow_carry] at heq
    have hplaces : q + 1 = p := by rw [← (fits_carry q).droppedPlaces_eq, heq, h.droppedPlaces_eq]
    subst hplaces
    obtain rfl := Nat.eq_of_mul_eq_mul_right (twoPow_pos (q + 1)) heq
    have hlt := hrounds.lt
    have hle := hrounds.rounded.le_add
    have hstep : d * twoPow (q + 1) = 2 * (d * twoPow q) := by
      rw [twoPow_succ, Nat.mul_left_comm]
    have hcarry : twoPow 52 * (2 * (d * twoPow q)) = twoPow 53 * (d * twoPow q) := by
      rw [Nat.mul_left_comm, ← Nat.mul_assoc, ← twoPow_succ]
    rw [Nat.mul_comm] at hlt
    rw [contains_readBack_carry_iff, hstep, hcarry]
    omega

/-- A quotient in the interval of a magnitude is rounded to it. -/
theorem Fits.roundsTo_of_contains (h : Fits m p) (hd : 0 < d) (hm : 0 < m)
    (hcontains : (readBack (m * twoPow p)).Contains n d) :
    ∃ q k, RoundsTo n d q k ∧ k * twoPow q = m * twoPow p := by
  have hdouble : twoPow 53 = 2 * twoPow 52 := twoPow_succ 52
  have hlarge : 2 ≤ twoPow 52 := by decide
  by_cases hstart : m = twoPow 52 ∧ 0 < p
  · obtain ⟨rfl, hp⟩ := hstart
    obtain ⟨q, rfl⟩ : ∃ q, p = q + 1 := ⟨p - 1, by omega⟩
    obtain ⟨hlow, hhigh⟩ := contains_readBack_carry_iff.mp hcontains
    have hstep : d * twoPow (q + 1) = 2 * (d * twoPow q) := by
      rw [twoPow_succ, Nat.mul_left_comm]
    have hcarry : twoPow 52 * (2 * (d * twoPow q)) = twoPow 53 * (d * twoPow q) := by
      rw [Nat.mul_left_comm, ← Nat.mul_assoc, ← twoPow_succ]
    have hpos : 0 < d * twoPow q := Nat.mul_pos hd (twoPow_pos q)
    have hhalf : twoPow 53 * (d * twoPow q) = 2 * (twoPow 52 * (d * twoPow q)) := by
      rw [hdouble, Nat.mul_assoc]
    have hgrown : 2 * (d * twoPow q) ≤ twoPow 52 * (d * twoPow q) := Nat.mul_le_mul_right _ hlarge
    rw [hstep, hcarry] at hlow hhigh
    rcases Nat.lt_or_ge n (twoPow 53 * (d * twoPow q)) with hbelow | habove
    · refine ⟨q, twoPow 53, ⟨hd, ?_, fun _ => ?_, ?_, ?_, fun _ => by decide⟩, twoPow_carry q⟩
      · rwa [Nat.mul_comm]
      · rw [Nat.mul_comm]
        omega
      · omega
      · omega
    · refine ⟨q + 1, twoPow 52, ⟨hd, ?_, fun _ => ?_, ?_, ?_, fun _ => by decide⟩, rfl⟩
      · rw [hstep, Nat.mul_comm, hdouble, Nat.mul_assoc, hcarry]
        omega
      · rwa [hstep, Nat.mul_comm, hcarry]
      · rw [hstep, hcarry]
        omega
      · rwa [hstep, hcarry]
  · have hrounded := (h.contains_readBack_iff hm hstart).mp hcontains
    have hpos : 0 < d * twoPow p := Nat.mul_pos hd (twoPow_pos p)
    have hle := hrounded.le_add
    have hge := hrounded.add_le
    refine ⟨p, m, ⟨hd, ?_, fun hp => ?_, hrounded⟩, rfl⟩
    · have hnext := Nat.mul_le_mul_right (d * twoPow p) h.lt
      rw [Nat.succ_mul] at hnext
      rw [Nat.mul_comm]
      omega
    · have hnext : (twoPow 52 + 1) * (d * twoPow p) ≤ m * (d * twoPow p) := by
        apply Nat.mul_le_mul_right
        have hm52 := h.ge hp
        have hne : m ≠ twoPow 52 := fun heq => hstart ⟨heq, hp⟩
        omega
      rw [Nat.succ_mul] at hnext
      rw [Nat.mul_comm]
      omega

/-- The quotients that are rounded to a magnitude are those in its interval. -/
theorem nearestUnits_eq_iff {units : Nat} (hunits : OnGrid units) (hpos : 0 < units) (hd : 0 < d) :
    nearestUnits n d = units ↔ (readBack units).Contains n d := by
  have hscaled := significand_mul_twoPow hunits
  have hfits := hunits.fits
  have hm : 0 < significand units := by
    apply Nat.pos_of_ne_zero
    intro hzero
    rw [hzero, Nat.zero_mul] at hscaled
    omega
  rw [← hscaled]
  constructor
  · intro heq
    obtain ⟨k, hrounds⟩ := exists_roundsTo n hd
    exact hfits.contains_of_roundsTo hm hrounds (hrounds.eq.symm.trans heq)
  · intro hcontains
    obtain ⟨q, k, hrounds, heq⟩ := hfits.roundsTo_of_contains hd hm hcontains
    exact hrounds.eq.trans heq

end CandleHistory.Number.Binary64
