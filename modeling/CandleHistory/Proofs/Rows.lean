import CandleHistory.Market.Candle
import Mathlib.Data.List.Forall2

/-!
The rows of a page. They are all read exactly if each of them is, and otherwise the first one that
is not decides.
-/

namespace CandleHistory

namespace Row

variable {interval : Interval} {rows : List Value} {candles : List Candle}

theorem readAll_eq_ok_iff : readAll interval rows = .ok candles ↔
    List.Forall₂ (fun row candle => read interval row = .ok candle) rows candles := by
  constructor
  · intro h
    induction rows generalizing candles with
    | nil =>
        cases h
        exact .nil
    | cons row rows ih =>
        unfold readAll at h
        split at h
        case h_1 first hfirst =>
          split at h
          case h_1 others hothers =>
            cases h
            exact .cons hfirst (ih hothers)
          all_goals cases h
        all_goals cases h
  · intro h
    induction h with
    | nil => rfl
    | cons hfirst _ ih => rw [readAll, hfirst, ih]

theorem exists_readAll (h : ∀ row ∈ rows, ∃ candle, read interval row = .ok candle) :
    ∃ candles, readAll interval rows = .ok candles := by
  induction rows with
  | nil => exact ⟨[], rfl⟩
  | cons row rows ih =>
      obtain ⟨⟨candle, hcandle⟩, hothers⟩ := List.forall_mem_cons.mp h
      obtain ⟨candles, hcandles⟩ := ih hothers
      exact ⟨candle :: candles, by rw [readAll, hcandle, hcandles]⟩

theorem exists_read_of_mem {candle : Candle} (h : readAll interval rows = .ok candles)
    (hmem : candle ∈ candles) : ∃ row ∈ rows, read interval row = .ok candle := by
  replace h := readAll_eq_ok_iff.mp h
  induction h with
  | nil => cases hmem
  | @cons row _ _ _ hfirst _ ih =>
      rcases List.mem_cons.mp hmem with rfl | hother
      · exact ⟨row, List.mem_cons_self, hfirst⟩
      · obtain ⟨other, hrow, hread⟩ := ih hother
        exact ⟨other, List.mem_cons_of_mem _ hrow, hread⟩

theorem readAll_of_refused {rest : List Value} {row : Value} {reason : RowError}
    (hrows : ∀ good ∈ rows, ∃ candle, read interval good = .ok candle)
    (hrow : read interval row = .refused reason) :
    readAll interval (rows ++ row :: rest) = .refused reason := by
  induction rows with
  | nil => simp [readAll, hrow]
  | cons good rows ih =>
      obtain ⟨⟨candle, hcandle⟩, hmore⟩ := List.forall_mem_cons.mp hrows
      simp [readAll, hcandle, ih hmore]

/-- Rows that are each read or refused are all read, or there is a first that is refused. -/
theorem readAll_cases (h : ∀ row ∈ rows, read interval row ≠ .infiniteStart) :
    (∃ candles, readAll interval rows = .ok candles) ∨
      ∃ before row rest reason, rows = before ++ row :: rest ∧
        (∀ good ∈ before, ∃ candle, read interval good = .ok candle) ∧
        read interval row = .refused reason := by
  induction rows with
  | nil => exact Or.inl ⟨[], rfl⟩
  | cons row rows ih =>
      obtain ⟨hrow, hrows⟩ := List.forall_mem_cons.mp h
      cases hread : read interval row with
      | infiniteStart => exact absurd hread hrow
      | refused reason => exact Or.inr ⟨[], row, rows, reason, rfl, by simp, hread⟩
      | ok candle =>
          rcases ih hrows with ⟨candles, hcandles⟩ | ⟨before, bad, rest, reason, rfl, hgood, hbad⟩
          · exact Or.inl ⟨candle :: candles, by simp [readAll, hread, hcandles]⟩
          · refine Or.inr ⟨row :: before, bad, rest, reason, rfl, ?_, hbad⟩
            exact List.forall_mem_cons.mpr ⟨⟨candle, hread⟩, hgood⟩

end Row

end CandleHistory
