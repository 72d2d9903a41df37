import CandleHistory.CommandLine.Options
import CandleHistory.Proofs.Numerals
import CandleHistory.Proofs.Succeeds

/-!
Options that are read from the command line make sense together: the range holds an instant, the cap
is positive, there is a symbol, and events have an instrument, whose index is short enough to be
written since it was read from a numeral.
-/

namespace CandleHistory

namespace CommandLine

deriving instance DecidableEq for DateRange, Options

namespace Outcome

/-- The options, if the arguments are accepted. -/
def options? : Outcome → Option Options
  | .options given => some given
  | _ => none

theorem eq_options {outcome : Outcome} {options : Options}
    (h : outcome.options? = some options) : outcome = .options options := by
  cases outcome with
  | options given =>
      cases h
      rfl
  | help => cases h
  | misused reason => cases h
  | refused reason => cases h

end Outcome

namespace Arguments

/-- The index of the instrument does not have too many digits to be written. -/
def ShortIndex (arguments : Arguments) : Prop :=
  ∀ index, arguments.instrumentIndex = some (.value index) → index.natAbs < Number.integerBound

theorem readInteger_short {flag : Flag} {value : String} {n : Int}
    (h : readInteger flag value = .ok n) : n.natAbs < Number.integerBound := by
  unfold readInteger at h
  split at h
  case h_1 hread =>
    cases h
    exact Number.natAbs_lt_of_readInteger? hread
  case h_2 => cases h

/-- A flag changes the index of the instrument only if it is the flag for it. -/
theorem ShortIndex.set {arguments after : Arguments} (h : arguments.ShortIndex) {flag : Flag}
    {given : Given String} (hset : arguments.set flag given = .ok after) : after.ShortIndex := by
  cases flag with
  | instrumentIndex =>
      obtain ⟨index, hindex, hafter⟩ := exists_of_bind_eq_ok hset
      cases hafter
      rintro _ ⟨⟩
      cases given with
      | nothing => cases hindex
      | value text =>
          obtain ⟨n, hn, hindex⟩ := exists_of_map_eq_ok hindex
          cases hindex
          exact readInteger_short hn
  | maxRecords =>
      obtain ⟨_, -, hafter⟩ := exists_of_bind_eq_ok hset
      cases hafter
      exact h
  | outputFormat =>
      obtain ⟨_, -, hafter⟩ := exists_of_bind_eq_ok hset
      cases hafter
      exact h
  | _ =>
      cases hset
      exact h

/-- Whatever the flags are, the index of the instrument stays short. -/
theorem shortIndex_of_readTokens {arguments given : Arguments} (h : arguments.ShortIndex)
    {extra : List String} {tokens : List Token}
    (hread : readTokens arguments extra tokens = .ok (.arguments given)) : given.ShortIndex := by
  fun_induction readTokens arguments extra tokens with
  | case1 arguments extra =>
      unfold finish at hread
      split at hread
      · cases hread
      · split at hread
        · cases hread
        · cases hread
          exact h
  | case2 =>
      obtain ⟨_, _, hhelp⟩ := exists_of_bind_eq_ok hread
      cases hhelp
  | case3 _ _ _ _ _ _ _ _ ih =>
      obtain ⟨after, hset, hrest⟩ := exists_of_bind_eq_ok hread
      exact ih after (h.set hset) hrest
  | case4 => cases hread
  | case5 => cases hread
  | case6 _ _ _ _ ih => exact ih h hread
  | case7 _ _ _ _ _ _ _ _ ih =>
      obtain ⟨after, hset, hrest⟩ := exists_of_bind_eq_ok hread
      exact ih after (h.set hset) hrest
  | case8 => cases hread
  | case9 _ _ _ _ _ _ _ _ _ ih => exact ih h hread

theorem shortIndex_of_read {given : List String} {arguments : Arguments}
    (h : read given = .ok (.arguments arguments)) : arguments.ShortIndex := by
  obtain ⟨tokens, _, hread⟩ := exists_of_bind_eq_ok h
  have hdefault : ShortIndex { } := by
    rintro _ ⟨⟩
  exact shortIndex_of_readTokens hdefault hread

end Arguments

namespace Options

/-- Options that make sense together. -/
structure Accepted (options : Options) : Prop where
  range : options.range.isEmpty = false
  maxRecords : 1 ≤ options.maxRecords
  symbol : options.symbol.isEmpty = false
  instrument : options.outputFormat = .value .barter →
    ∃ index, options.instrumentIndex = some (.value index) ∧ 0 ≤ index ∧
      index.natAbs < Number.integerBound

theorem isEmpty_of_readRange {arguments : Arguments} {range : DateRange}
    (h : readRange arguments = .ok range) : range.isEmpty = false := by
  unfold readRange at h
  obtain ⟨given, hgiven, hchecked⟩ := exists_of_bind_eq_ok h
  split at hchecked
  case isTrue hempty => cases hchecked
  case isFalse hnonempty =>
    cases hchecked
    exact Bool.eq_false_iff.mpr hnonempty

theorem one_le_of_readMaxRecords {given : Given Int} {n : Int}
    (h : readMaxRecords given = .ok n) : 1 ≤ n := by
  unfold readMaxRecords at h
  cases given with
  | nothing => cases h
  | value number =>
      dsimp only at h
      split at h
      case isTrue hsmall => cases h
      case isFalse hlarge =>
        cases h
        exact Int.not_lt.mp hlarge

theorem isEmpty_of_readSymbol {given : Given String} {symbol : String}
    (h : readSymbol given = .ok symbol) : symbol.isEmpty = false := by
  unfold readSymbol at h
  cases given with
  | nothing => cases h
  | value text =>
      dsimp only at h
      generalize Request.normalSymbol text = normal at h
      split at h
      case isTrue hempty => cases h
      case isFalse hnonempty =>
        cases h
        exact Bool.eq_false_iff.mpr hnonempty

theorem instrument_of_check {arguments : Arguments} (h : checkInstrument arguments = .ok ())
    (hevents : arguments.outputFormat = .value .barter) :
    ∃ index, arguments.instrumentIndex = some (.value index) ∧ 0 ≤ index := by
  unfold checkInstrument at h
  rw [hevents] at h
  cases hindex : arguments.instrumentIndex with
  | none =>
      rw [hindex] at h
      cases h
  | some given =>
      rw [hindex] at h
      cases given with
      | nothing => cases h
      | value index =>
          dsimp only at h
          split at h
          case isTrue hnegative => cases h
          case isFalse hnonneg => exact ⟨index, rfl, Int.not_lt.mp hnonneg⟩

/-- What the options that arguments stand for have come from. -/
structure From (arguments : Arguments) (options : Options) : Prop where
  range : readRange arguments = .ok options.range
  maxRecords : readMaxRecords arguments.maxRecords = .ok options.maxRecords
  symbol : readSymbol arguments.symbol = .ok options.symbol
  instrument : checkInstrument arguments = .ok ()
  outputFormat : options.outputFormat = arguments.outputFormat
  instrumentIndex : options.instrumentIndex = arguments.instrumentIndex

theorem from_of_arguments {arguments : Arguments} {options : Options}
    (h : ofArguments arguments = .ok options) : From arguments options := by
  unfold ofArguments at h
  obtain ⟨interval, hinterval, h⟩ := exists_of_bind_eq_ok h
  obtain ⟨category, hcategory, h⟩ := exists_of_bind_eq_ok h
  obtain ⟨range, hrange, h⟩ := exists_of_bind_eq_ok h
  obtain ⟨maxRecords, hrecords, h⟩ := exists_of_bind_eq_ok h
  obtain ⟨symbol, hsymbol, h⟩ := exists_of_bind_eq_ok h
  obtain ⟨checked, hcheck, h⟩ := exists_of_bind_eq_ok h
  cases h
  exact ⟨exists_of_mapError_eq_ok hrange, hrecords, hsymbol, hcheck, rfl, rfl⟩

theorem exists_from_of_read {given : List String} {options : Options}
    (h : read given = .options options) :
    ∃ arguments, Arguments.read given = .ok (.arguments arguments) ∧ From arguments options := by
  unfold read at h
  split at h
  case h_1 => cases h
  case h_2 => cases h
  case h_3 arguments hread =>
    split at h
    case h_1 accepted haccepted =>
      cases h
      exact ⟨arguments, hread, from_of_arguments haccepted⟩
    case h_2 => cases h

/-- Whatever the arguments of the command line are, the options that are read from them make sense
together. -/
theorem accepted_of_read {given : List String} {options : Options}
    (h : read given = .options options) : options.Accepted := by
  obtain ⟨arguments, hread, hfrom⟩ := exists_from_of_read h
  refine ⟨isEmpty_of_readRange hfrom.range, one_le_of_readMaxRecords hfrom.maxRecords,
    isEmpty_of_readSymbol hfrom.symbol, ?_⟩
  rw [hfrom.outputFormat, hfrom.instrumentIndex]
  intro hevents
  obtain ⟨index, hindex, hnonneg⟩ := instrument_of_check hfrom.instrument hevents
  exact ⟨index, hindex, hnonneg, Arguments.shortIndex_of_read hread index hindex⟩

end Options

end CommandLine

end CandleHistory
