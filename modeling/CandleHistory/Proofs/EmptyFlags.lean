import CandleHistory.CommandLine.Options
import CandleHistory.Proofs.Succeeds

/-!
Flags that are given without a value. Most are refused like other words that make no sense, but
three of them break the reading of the options off if it comes to them.
-/

namespace CandleHistory.CommandLine.Options

variable {α β : Type}

/-- A computation that is broken off, and not just refused. -/
def Breaks (computation : Except OptionsError α) : Prop :=
  ∃ fault, computation = .error (.broke fault)

theorem breaks_bind_iff {first : Except OptionsError α} {next : α → Except OptionsError β} :
    Breaks (first >>= next) ↔ Breaks first ∨ ∃ value, first = .ok value ∧ Breaks (next value) := by
  cases first with
  | error reason =>
      constructor
      · rintro ⟨fault, ⟨⟩⟩
        exact Or.inl ⟨fault, rfl⟩
      · rintro (⟨fault, ⟨⟩⟩ | ⟨value, ⟨⟩, -⟩)
        exact ⟨fault, rfl⟩
  | ok value =>
      constructor
      · exact fun h => Or.inr ⟨value, rfl, h⟩
      · rintro (⟨fault, ⟨⟩⟩ | ⟨_, ⟨⟩, h⟩)
        exact h

/-- What is at worst refused breaks nothing off, so what comes after it decides. -/
theorem breaks_invalid_bind_iff {first : Except InputError α} {next : α → Except OptionsError β}
    {claim : Prop} (h : ∀ value, Breaks (next value) ↔ claim) :
    Breaks (first.mapError .invalid >>= next) ↔ Succeeds first ∧ claim := by
  rw [breaks_bind_iff]
  cases first with
  | error reason => exact ⟨by rintro (⟨fault, ⟨⟩⟩ | ⟨value, ⟨⟩, -⟩), by rintro ⟨⟨value, ⟨⟩⟩, -⟩⟩
  | ok value =>
      constructor
      · rintro (⟨fault, ⟨⟩⟩ | ⟨_, ⟨⟩, hnext⟩)
        exact ⟨Succeeds.ok value, (h value).mp hnext⟩
      · exact fun hboth => Or.inr ⟨value, rfl, (h value).mpr hboth.2⟩

theorem breaks_bind_iff_of_forall {first : Except OptionsError α}
    {next : α → Except OptionsError β} {claim : Prop} (h : ∀ value, Breaks (next value) ↔ claim) :
    Breaks (first >>= next) ↔ Breaks first ∨ Succeeds first ∧ claim := by
  rw [breaks_bind_iff]
  refine or_congr_right ⟨?_, ?_⟩
  · rintro ⟨value, hvalue, hnext⟩
    exact ⟨⟨value, hvalue⟩, (h value).mp hnext⟩
  · rintro ⟨⟨value, hvalue⟩, hclaim⟩
    exact ⟨value, hvalue, (h value).mpr hclaim⟩

theorem breaks_bind_iff_first {first : Except OptionsError α}
    {next : α → Except OptionsError β} (h : ∀ value, ¬ Breaks (next value)) :
    Breaks (first >>= next) ↔ Breaks first := by
  rw [breaks_bind_iff_of_forall fun value => iff_false_intro (h value), and_false, or_false]

theorem readMaxRecords_breaks_iff {given : Given Int} :
    Breaks (readMaxRecords given) ↔ given = .nothing := by
  unfold readMaxRecords
  cases given with
  | nothing => exact ⟨fun _ => rfl, fun _ => ⟨_, rfl⟩⟩
  | value n =>
      refine ⟨fun h => ?_, nofun⟩
      dsimp only at h
      split at h
      · exact nomatch h
      · exact nomatch h

theorem readSymbol_breaks_iff {given : Given String} :
    Breaks (readSymbol given) ↔ given = .nothing := by
  unfold readSymbol
  cases given with
  | nothing => exact ⟨fun _ => rfl, fun _ => ⟨_, rfl⟩⟩
  | value text =>
      refine ⟨fun h => ?_, nofun⟩
      dsimp only at h
      generalize Request.normalSymbol text = symbol at h
      split at h
      · exact nomatch h
      · exact nomatch h

theorem checkInstrument_breaks_iff {arguments : Arguments} :
    Breaks (checkInstrument arguments) ↔
      arguments.outputFormat = .value .barter ∧ arguments.instrumentIndex = some .nothing := by
  unfold checkInstrument
  split
  case h_1 hform hindex => simp [hindex, Breaks]
  case h_2 index hform hindex =>
    rw [hindex]
    refine ⟨fun h => ?_, nofun⟩
    split at h
    · exact nomatch h
    · exact nomatch h
  case h_3 hform hindex => exact ⟨fun _ => ⟨hform, hindex⟩, fun _ => ⟨_, rfl⟩⟩
  case h_4 hnone hvalue hnothing =>
    refine ⟨nofun, ?_⟩
    rintro ⟨hform, hindex⟩
    exact absurd hindex (hnothing hform)

/-- The flag for the cap, the symbol or the instrument has no value, and those before it make sense.
-/
inductive HollowFlag (arguments : Arguments) : Prop
  | maxRecords : arguments.maxRecords = .nothing → HollowFlag arguments
  | symbol :
      Succeeds (readMaxRecords arguments.maxRecords) → arguments.symbol = .nothing →
      HollowFlag arguments
  | instrument :
      Succeeds (readMaxRecords arguments.maxRecords) → Succeeds (readSymbol arguments.symbol) →
      arguments.outputFormat = .value .barter → arguments.instrumentIndex = some .nothing →
      HollowFlag arguments

theorem hollowFlag_iff {arguments : Arguments} :
    HollowFlag arguments ↔ arguments.maxRecords = .nothing ∨
      Succeeds (readMaxRecords arguments.maxRecords) ∧ (arguments.symbol = .nothing ∨
        Succeeds (readSymbol arguments.symbol) ∧
          arguments.outputFormat = .value .barter ∧ arguments.instrumentIndex = some .nothing) := by
  constructor
  · rintro (hrecords | ⟨hrecords, hsymbol⟩ | ⟨hrecords, hsymbol, hform, hindex⟩)
    · exact Or.inl hrecords
    · exact Or.inr ⟨hrecords, Or.inl hsymbol⟩
    · exact Or.inr ⟨hrecords, Or.inr ⟨hsymbol, hform, hindex⟩⟩
  · rintro (hrecords | ⟨hrecords, hsymbol | ⟨hsymbol, hform, hindex⟩⟩)
    · exact .maxRecords hrecords
    · exact .symbol hrecords hsymbol
    · exact .instrument hrecords hsymbol hform hindex

/-- Arguments whose interval, category and range make sense, with a flag after them that has no
value. -/
structure Hollow (arguments : Arguments) : Prop where
  interval : Succeeds (Interval.read arguments.interval.datum)
  category : Succeeds (Category.read arguments.category.datum)
  range : Succeeds (readRange arguments)
  flag : HollowFlag arguments

theorem ofArguments_breaks_iff (arguments : Arguments) :
    Breaks (ofArguments arguments) ↔ Hollow arguments := by
  have hhollow : Hollow arguments ↔ Succeeds (Interval.read arguments.interval.datum) ∧
      Succeeds (Category.read arguments.category.datum) ∧ Succeeds (readRange arguments) ∧
        HollowFlag arguments :=
    ⟨fun ⟨hinterval, hcategory, hrange, hflag⟩ => ⟨hinterval, hcategory, hrange, hflag⟩,
      fun ⟨hinterval, hcategory, hrange, hflag⟩ => ⟨hinterval, hcategory, hrange, hflag⟩⟩
  rw [hhollow, hollowFlag_iff, ← readMaxRecords_breaks_iff, ← readSymbol_breaks_iff,
    ← checkInstrument_breaks_iff]
  unfold ofArguments
  refine breaks_invalid_bind_iff fun interval => breaks_invalid_bind_iff fun category => ?_
  refine breaks_invalid_bind_iff fun range => breaks_bind_iff_of_forall fun maxRecords => ?_
  refine breaks_bind_iff_of_forall fun symbol => breaks_bind_iff_first fun checked => ?_
  exact nofun

/-- The reading of the command line is broken off if it comes to a flag that needs a value and has
none, and only then. -/
theorem read_breaks_iff (given : List String) :
    (∃ fault, read given = .refused (.broke fault)) ↔
      ∃ arguments, Arguments.read given = .ok (.arguments arguments) ∧ Hollow arguments := by
  simp only [← ofArguments_breaks_iff]
  unfold read Breaks
  rcases Arguments.read given with reason | (- | arguments)
  · simp
  · simp
  · cases hread : ofArguments arguments with
    | error reason => simp [hread]
    | ok options => simp [hread]

end CandleHistory.CommandLine.Options
