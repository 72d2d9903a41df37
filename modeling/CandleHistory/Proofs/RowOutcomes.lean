import CandleHistory.Proofs.Served

/-!
What reading a row comes to. A row is read as a candle whose amounts are finite and which closes a
bar's width after it opens, or it is refused for a reason that is true of it: too few items, or one
that is no time or no amount. Only a row of full length that opens at an infinity is neither.
-/

namespace CandleHistory

open Number (Decimal)

namespace Row

/-- The names of the items that follow the open time, in order. -/
def amountNames : List String := ["open", "high", "low", "close", "volume", "turnover"]

/-- A row of full length whose first item is an infinity. -/
def OpensAtInfinity (row : Value) : Prop :=
  ∃ negative amounts, items? row = some (.real (.infinite negative) :: amounts) ∧
    amountNames.length ≤ amounts.length

/-- A datum that is no time: it is neither a number nor the numeral of an integer. -/
def NoTime : Value → Prop
  | .integer _ => False
  | .boolean _ => False
  | .real x => x = .nan
  | .text s => Number.readInteger? s = none
  | _ => True

/-- A datum that is no amount: no number is read from it, or one that is not finite. -/
def NoAmount (given : Value) : Prop :=
  ∀ d, Decimal.read? given.display = some d → d.isFinite = false

end Row

/-- The reason is true of the row: it has too few items, or the item that is named is no time or no
amount. -/
def RowError.IsTrueOf (row : Value) : RowError → Prop
  | .notRow given => given = row ∧
      ∀ items, Row.items? row = some items → items.length ≤ Row.amountNames.length
  | .invalidStart given => Row.NoTime given ∧
      ∃ amounts, Row.items? row = some (given :: amounts)
  | .invalidField name given => Row.NoAmount given ∧
      ∃ start amounts, Row.items? row = some (start :: amounts) ∧
        (name, given) ∈ Row.amountNames.zip amounts
  | .reported _ => False

/-- A row of bars of a given width is read as a candle of this width with finite amounts, or refused
for a reason that is true of it. -/
def RowResult.Settles (interval : Interval) (row : Value) : RowResult Candle → Prop
  | .ok candle => (∀ d ∈ candle.amounts, d.isFinite = true) ∧
      candle.closeTime = candle.openTime + interval.width
  | .refused reason => reason.IsTrueOf row
  | .infiniteStart => False

namespace Row

variable {interval : Interval}

/-- The three things that the reading of an open time comes to. -/
theorem openTime_cases (given : Value) :
    (∃ start, openTime given = .ok start) ∨
      (openTime given = .refused (.invalidStart given) ∧ NoTime given) ∨
      ∃ negative, given = .real (.infinite negative) := by
  cases given with
  | integer n => exact Or.inl ⟨n, rfl⟩
  | boolean b => exact Or.inl ⟨_, rfl⟩
  | real x =>
      cases x with
      | finite negative units => exact Or.inl ⟨_, rfl⟩
      | infinite negative => exact Or.inr (Or.inr ⟨negative, rfl⟩)
      | nan => exact Or.inr (Or.inl ⟨rfl, rfl⟩)
  | text s =>
      cases hread : Number.readInteger? s with
      | some n => exact Or.inl ⟨n, by simp only [openTime, hread]⟩
      | none => exact Or.inr (Or.inl ⟨by simp only [openTime, hread], hread⟩)
  | null => exact Or.inr (Or.inl ⟨rfl, trivial⟩)
  | list items => exact Or.inr (Or.inl ⟨rfl, trivial⟩)
  | tuple items => exact Or.inr (Or.inl ⟨rfl, trivial⟩)
  | object fields => exact Or.inr (Or.inl ⟨rfl, trivial⟩)

/-- An amount is what is read from the text of a datum, if it is a finite number. -/
theorem amount_eq_ok_iff {name : String} {given : Value} {d : Decimal} :
    amount name given = .ok d ↔ Decimal.read? given.display = some d ∧ d.isFinite = true := by
  unfold amount
  cases hread : Decimal.read? given.display with
  | none => simp
  | some read =>
      cases hfinite : read.isFinite with
      | true =>
          simp only [hfinite, if_true, Except.ok.injEq, Option.some.injEq, iff_self_and]
          rintro rfl
          exact hfinite
      | false =>
          simp only [hfinite, Bool.false_eq_true, if_false, reduceCtorEq, Option.some.injEq,
            false_iff, not_and]
          rintro rfl
          rw [hfinite]
          decide

theorem amount_failsWith (name : String) (given : Value) :
    FailsWith (fun reason => reason = .invalidField name given ∧ NoAmount given)
      (amount name given) := by
  cases hamount : amount name given with
  | ok d => exact .ok d
  | error reason =>
      refine .error ⟨?_, fun d hread => Bool.eq_false_iff.mpr fun hfinite => ?_⟩
      · unfold amount at hamount
        split at hamount
        · split at hamount
          · cases hamount
          · exact (Except.error.inj hamount).symm
        · exact (Except.error.inj hamount).symm
      · rw [amount_eq_ok_iff.mpr ⟨hread, hfinite⟩] at hamount
        cases hamount

/-- Six amounts that are not all read fail at one of them that is none, under its own name. -/
theorem candle_failsWith (start : Int) (opening high low closing volume turnover : Value) :
    FailsWith
      (fun reason => ∃ name given, (reason = .invalidField name given ∧ NoAmount given) ∧
        (name, given) ∈ amountNames.zip [opening, high, low, closing, volume, turnover])
      (candle interval start opening high low closing volume turnover) := by
  have hamount (name : String) (given : Value)
      (hmem : (name, given) ∈ amountNames.zip [opening, high, low, closing, volume, turnover]) :
      FailsWith
        (fun reason => ∃ name given, (reason = .invalidField name given ∧ NoAmount given) ∧
          (name, given) ∈ amountNames.zip [opening, high, low, closing, volume, turnover])
        (amount name given) :=
    fun reason hreason => ⟨name, given, amount_failsWith name given reason hreason, hmem⟩
  unfold candle
  refine (hamount _ _ (by simp [amountNames])).bind fun _ => ?_
  refine (hamount _ _ (by simp [amountNames])).bind fun _ => ?_
  refine (hamount _ _ (by simp [amountNames])).bind fun _ => ?_
  refine (hamount _ _ (by simp [amountNames])).bind fun _ => ?_
  refine (hamount _ _ (by simp [amountNames])).bind fun _ => ?_
  exact (hamount _ _ (by simp [amountNames])).bind fun _ => .ok _

/-- Six amounts are read as a candle exactly if each of them is, and nothing else is in it than
them, the open time and the close time. -/
theorem candle_eq_ok_iff {start : Int} {opening high low closing volume turnover : Value}
    {result : Candle} :
    candle interval start opening high low closing volume turnover = .ok result ↔
      amount "open" opening = .ok result.openPrice ∧ amount "high" high = .ok result.highPrice ∧
      amount "low" low = .ok result.lowPrice ∧ amount "close" closing = .ok result.closePrice ∧
      amount "volume" volume = .ok result.volume ∧
      amount "turnover" turnover = .ok result.turnover ∧
      result.openTime = start ∧ result.closeTime = start + interval.width ∧
      result.tradeCount = 0 := by
  constructor
  · intro h
    unfold candle at h
    obtain ⟨openPrice, hopen, h⟩ := exists_of_bind_eq_ok h
    obtain ⟨highPrice, hhigh, h⟩ := exists_of_bind_eq_ok h
    obtain ⟨lowPrice, hlow, h⟩ := exists_of_bind_eq_ok h
    obtain ⟨closePrice, hclose, h⟩ := exists_of_bind_eq_ok h
    obtain ⟨volume, hvolume, h⟩ := exists_of_bind_eq_ok h
    obtain ⟨turnover, hturnover, h⟩ := exists_of_bind_eq_ok h
    cases h
    exact ⟨hopen, hhigh, hlow, hclose, hvolume, hturnover, rfl, rfl, rfl⟩
  · rintro ⟨hopen, hhigh, hlow, hclose, hvolume, hturnover, hstart, hstop, hcount⟩
    obtain ⟨openTime, closeTime, _, _, _, _, _, _, tradeCount⟩ := result
    dsimp only at hopen hhigh hlow hclose hvolume hturnover hstart hstop hcount
    subst hstart hstop hcount
    unfold candle
    rw [hopen, hhigh, hlow, hclose, hvolume, hturnover]
    rfl

theorem closeTime_of_candle {start : Int} {opening high low closing volume turnover : Value}
    {result : Candle}
    (h : candle interval start opening high low closing volume turnover = .ok result) :
    result.closeTime = result.openTime + interval.width := by
  obtain ⟨-, -, -, -, -, -, hstart, hstop, -⟩ := candle_eq_ok_iff.mp h
  rw [hstart, hstop]

/-- A list of items is too short for a row, or it begins with an open time and six amounts. -/
theorem length_cases (items : List Value) :
    items.length ≤ amountNames.length ∨
      ∃ start opening high low closing volume turnover rest,
        items = start :: opening :: high :: low :: closing :: volume :: turnover :: rest := by
  rcases items with _ | ⟨start, _ | ⟨opening, _ | ⟨high, _ | ⟨low, _ | ⟨closing, _ | ⟨volume,
    _ | ⟨turnover, rest⟩⟩⟩⟩⟩⟩⟩
  case cons.cons.cons.cons.cons.cons.cons =>
    exact Or.inr ⟨start, opening, high, low, closing, volume, turnover, rest, rfl⟩
  all_goals exact Or.inl (by simp [amountNames])

/-- What is no list or tuple, or too short for a row, is refused as a whole. -/
theorem read_of_short {row : Value}
    (h : ∀ items, items? row = some items → items.length ≤ amountNames.length) :
    read interval row = .refused (.notRow row) := by
  unfold read
  split
  case h_1 start opening high low closing volume turnover rest hitems =>
    have hlength := h _ hitems
    simp only [List.length_cons, amountNames, List.length_nil] at hlength
    omega
  case h_2 => rfl

/-- A row of full length is settled, unless its open time is an infinity. -/
theorem read_settles_iff_of_items {row start opening high low closing volume turnover : Value}
    {rest : List Value}
    (h : items? row =
      some (start :: opening :: high :: low :: closing :: volume :: turnover :: rest)) :
    (read interval row).Settles interval row ↔ ∀ negative, start ≠ .real (.infinite negative) := by
  unfold read
  rw [h]
  dsimp only
  rcases openTime_cases start with ⟨time, htime⟩ | ⟨hrefused, hnoTime⟩ | ⟨negative, rfl⟩
  · have hfinite : ∀ negative, start ≠ .real (.infinite negative) := by
      rintro negative rfl
      cases htime
    rw [htime]
    dsimp only
    refine iff_of_true ?_ hfinite
    cases hcandle : candle interval time opening high low closing volume turnover with
    | ok result => exact ⟨(fromRow_of_candle hcandle).isFinite, closeTime_of_candle hcandle⟩
    | error reason =>
        obtain ⟨name, given, ⟨rfl, hnoAmount⟩, hmem⟩ :=
          candle_failsWith _ _ _ _ _ _ _ reason hcandle
        refine ⟨hnoAmount, start, _, h, ?_⟩
        simpa [amountNames] using hmem
  · have hfinite : ∀ negative, start ≠ .real (.infinite negative) := by
      rintro negative rfl
      cases hrefused
    rw [hrefused]
    exact iff_of_true ⟨hnoTime, _, h⟩ hfinite
  · exact iff_of_false id fun hfinite => hfinite negative rfl

/-- Whatever stands in the place of a row, and whatever it holds: reading it gives a candle with
finite amounts that closes a bar's width after it opens, or refuses it for a reason that is true of
it, unless it is a row of full length that opens at an infinity. -/
theorem read_settles_iff (interval : Interval) (row : Value) :
    (read interval row).Settles interval row ↔ ¬ OpensAtInfinity row := by
  have hshort (h : ∀ items, items? row = some items → items.length ≤ amountNames.length) :
      (read interval row).Settles interval row ↔ ¬ OpensAtInfinity row := by
    rw [read_of_short h]
    refine iff_of_true ⟨rfl, h⟩ ?_
    rintro ⟨negative, amounts, hitems, hlength⟩
    have hle := h _ hitems
    rw [List.length_cons] at hle
    omega
  cases hitems : items? row with
  | none => exact hshort (by simp [hitems])
  | some items =>
      rcases length_cases items with
        hle | ⟨start, opening, high, low, closing, volume, turnover, rest, rfl⟩
      · exact hshort (by simpa [hitems] using hle)
      · rw [read_settles_iff_of_items hitems]
        constructor
        · rintro hfinite ⟨negative, amounts, hamounts, -⟩
          rw [hitems] at hamounts
          cases hamounts
          exact hfinite negative rfl
        · rintro hfinite negative rfl
          exact hfinite ⟨negative, _, hitems, by simp [amountNames]⟩

end Row

end CandleHistory
