import CandleHistory.Number.Numeral
import CandleHistory.Proofs.NearestDouble
import Mathlib.Data.List.DropRight

/-!
Numerals that are written by the program itself: digits from zero to nine, with nothing around them.
Taking the digits off the front of such a numeral gives their values, and an integer that is short
enough to be written is read back from its numeral.
-/

namespace CandleHistory

namespace Text

/-- Whether a character may stand in a numeral and is kept when the numeral is read: it is no blank
and no underscore. -/
def IsKept (c : Char) : Prop := isBlank c = false ∧ c ≠ '_'

instance : DecidablePred IsKept :=
  fun c => inferInstanceAs (Decidable (isBlank c = false ∧ c ≠ '_'))

/-- The values of digits from zero to nine. -/
def values (digits : List Char) : List Nat := digits.map fun c => c.toNat - '0'.toNat

theorem digitValue?_of_isDigit {c : Char} (h : c.isDigit = true) :
    digitValue? c = some (c.toNat - '0'.toNat) := by
  have hrange : 48 ≤ c.toNat ∧ c.toNat < 48 + 10 := by
    obtain ⟨hlow, hhigh⟩ := Char.isDigit_iff_toNat.mp h
    change 48 ≤ c.toNat at hlow
    change c.toNat ≤ 57 at hhigh
    omega
  unfold digitValue? digitZeros
  rw [List.find?_cons_of_pos (by simpa using hrange)]
  rfl

theorem isKept_of_isDigit {c : Char} (h : c.isDigit = true) : IsKept c := by
  obtain ⟨hlow, hhigh⟩ := Char.isDigit_iff_toNat.mp h
  change 48 ≤ c.toNat at hlow
  change c.toNat ≤ 57 at hhigh
  constructor
  · simp only [isBlank, inRanges, blankRanges, List.any_cons, List.any_nil, Bool.or_false,
      Bool.or_eq_false_iff, Bool.and_eq_false_iff, decide_eq_false_iff_not]
    omega
  · rintro rfl
    cases h

theorem trimWith_eq_self {drop : Char → Bool} {cs : List Char} (h : ∀ c ∈ cs, drop c = false) :
    trimWith drop cs = cs := by
  have hfront : cs.dropWhile drop = cs :=
    List.dropWhile_eq_self_iff.mpr fun _ => Bool.eq_false_iff.mp (h _ (List.getElem_mem _))
  have hback : cs.rdropWhile drop = cs :=
    List.rdropWhile_eq_self_iff.mpr fun hne => Bool.eq_false_iff.mp (h _ (List.getLast_mem hne))
  calc trimWith drop cs = (cs.dropWhile drop).rdropWhile drop := rfl
    _ = cs := by rw [hfront, hback]

theorem digitsValue_values (digits : List Char) :
    digitsValue (values digits) = Nat.ofDigitChars 10 digits 0 := by
  unfold digitsValue values Nat.ofDigitChars
  rw [List.foldl_map]

@[simp]
theorem length_values (digits : List Char) : (values digits).length = digits.length :=
  List.length_map _

@[simp]
theorem isEmpty_values (digits : List Char) : (values digits).isEmpty = digits.isEmpty :=
  List.isEmpty_map

theorem values_append (first second : List Char) :
    values (first ++ second) = values first ++ values second :=
  List.map_append

theorem digitsValue_lt (digits : List Nat) (h : ∀ d ∈ digits, d < 10) :
    digitsValue digits < Number.tenPow digits.length := by
  induction digits using List.reverseRecOn with
  | nil => decide
  | append_singleton digits d ih =>
      have hvalue : digitsValue digits < Number.tenPow digits.length :=
        ih fun e he => h e (List.mem_append_left _ he)
      have hlast : d < 10 := h d (List.mem_append_right _ (List.mem_singleton_self d))
      rw [digitsValue_append_singleton, List.length_append, List.length_singleton,
        Number.tenPow_succ]
      omega

theorem isDigit_of_mem_decimalDigits {n : Nat} {c : Char} (h : c ∈ decimalDigits n) :
    c.isDigit = true :=
  Nat.isDigit_of_mem_toDigits (by decide) (by decide) h

theorem decimalDigits_ne_nil (n : Nat) : decimalDigits n ≠ [] := Nat.toDigits_ne_nil

theorem length_decimalDigits_le_iff {n k : Nat} (hk : 0 < k) :
    (decimalDigits n).length ≤ k ↔ n < Number.tenPow k :=
  Nat.length_toDigits_le_iff (by decide) hk

theorem ofDigitChars_decimalDigits (n : Nat) : Nat.ofDigitChars 10 (decimalDigits n) 0 = n :=
  Nat.ofDigitChars_ten_toDigits

theorem isDigit_of_mem_zeros {k : Nat} {c : Char} (h : c ∈ List.replicate k '0') :
    c.isDigit = true := by
  rw [List.eq_of_mem_replicate h]
  decide

theorem toList_padded (width n : Nat) : (padded width n).toList =
    List.replicate (width - (decimalDigits n).length) '0' ++ decimalDigits n := by
  rw [padded, String.toList_ofList]

theorem isDigit_of_mem_padded {width n : Nat} {c : Char} (h : c ∈ (padded width n).toList) :
    c.isDigit = true := by
  rw [toList_padded] at h
  rcases List.mem_append.mp h with hzero | hdigit
  · exact isDigit_of_mem_zeros hzero
  · exact isDigit_of_mem_decimalDigits hdigit

theorem padded_ne_nil (width n : Nat) : (padded width n).toList ≠ [] := by
  rw [toList_padded]
  exact List.append_ne_nil_of_right_ne_nil _ (decimalDigits_ne_nil n)

theorem ofDigitChars_padded (width n : Nat) :
    Nat.ofDigitChars 10 (padded width n).toList 0 = n := by
  rw [toList_padded, Nat.ofDigitChars_append, Nat.ofDigitChars_replicate_zero, Nat.mul_zero,
    ofDigitChars_decimalDigits]

theorem length_padded {width n : Nat} (hwidth : 0 < width) (h : n < Number.tenPow width) :
    (padded width n).toList.length = width := by
  have hlength := (length_decimalDigits_le_iff hwidth).mpr h
  rw [toList_padded, List.length_append, List.length_replicate]
  omega

end Text

namespace Number

open Text (decimalDigits digitsValue)

/-- The digits at the front of a text end where a character is none. -/
theorem takeDigits_append {digits rest : List Char} (hdigits : ∀ c ∈ digits, c.isDigit = true)
    (hrest : ∀ c ∈ rest.head?, Text.digitValue? c = none) :
    takeDigits (digits ++ rest) = (Text.values digits, rest) := by
  induction digits with
  | nil =>
      cases rest with
      | nil => rfl
      | cons c rest =>
          have hnone : Text.digitValue? c = none := hrest c rfl
          rw [List.nil_append, takeDigits, hnone]
          rfl
  | cons c digits ih =>
      have hvalue := Text.digitValue?_of_isDigit (hdigits c List.mem_cons_self)
      have htail := ih fun d hd => hdigits d (List.mem_cons_of_mem c hd)
      rw [List.cons_append, takeDigits, hvalue, htail]
      rfl

theorem takeDigits_eq {digits : List Char} (hdigits : ∀ c ∈ digits, c.isDigit = true) :
    takeDigits digits = (Text.values digits, []) := by
  have h := takeDigits_append hdigits fun c (hc : c ∈ [].head?) => by simp at hc
  rwa [List.append_nil] at h

theorem lt_of_mem_takeDigits {cs : List Char} {d : Nat} (h : d ∈ (takeDigits cs).1) : d < 10 := by
  induction cs with
  | nil => cases h
  | cons c rest ih =>
      rw [takeDigits] at h
      cases hvalue : Text.digitValue? c with
      | none =>
          rw [hvalue] at h
          cases h
      | some e =>
          rw [hvalue] at h
          rcases List.mem_cons.mp h with rfl | htail
          · exact Text.digitValue?_lt hvalue
          · exact ih htail

/-- The sign in front of a numeral is taken off it. -/
theorem takeSign_append (negative : Bool) {c : Char} (rest : List Char) (h : c.isDigit = true) :
    takeSign ((if negative then ['-'] else []) ++ c :: rest) = (negative, c :: rest) := by
  cases negative with
  | true => rfl
  | false =>
      change takeSign (c :: rest) = (false, c :: rest)
      unfold takeSign
      split
      case h_1 heq =>
        cases heq
        cases h
      case h_2 heq =>
        cases heq
        cases h
      case h_3 => rfl

theorem dropGrouping?_eq_some {cs : List Char} (h : ∀ c ∈ cs, c ≠ '_') (afterDigit : Bool) :
    dropGrouping? afterDigit cs = some cs := by
  induction cs generalizing afterDigit with
  | nil => rfl
  | cons c rest ih =>
      have hhead : c ≠ '_' := h c List.mem_cons_self
      have htail := ih fun d hd => h d (List.mem_cons_of_mem c hd)
      rw [dropGrouping?, htail]
      · rfl
      · exact hhead

theorem toList_toString (n : Int) :
    (toString n).toList = (if decide (n < 0) then ['-'] else []) ++ decimalDigits n.natAbs := by
  cases n with
  | ofNat m => exact Nat.toList_repr
  | negSucc m =>
      rw [decide_eq_true (Int.negSucc_lt_zero m)]
      change ("-" ++ m.succ.repr).toList = '-' :: decimalDigits (m + 1)
      rw [String.toList_append, Nat.toList_repr]
      rfl

theorem integerBound_eq : integerBound = tenPow longestInteger := rfl

theorem twoPow_le_integerBound {k : Nat} (h : k ≤ longestInteger) : twoPow k ≤ integerBound :=
  calc twoPow k ≤ tenPow k := Nat.pow_le_pow_left (by decide) k
    _ ≤ tenPow longestInteger := tenPow_le h
    _ = integerBound := integerBound_eq.symm

theorem lt_integerBound_of_lt_twoPow {n : Nat} (h : n < twoPow 60) : n < integerBound :=
  Nat.lt_of_lt_of_le h (twoPow_le_integerBound (by decide))

theorem withSign_natAbs (n : Int) : withSign (decide (n < 0)) n.natAbs = n := by
  unfold withSign
  split
  case isTrue h =>
    have hneg := of_decide_eq_true h
    omega
  case isFalse h =>
    have hnonneg : ¬ n < 0 := fun hneg => h (decide_eq_true hneg)
    omega

/-- An integer that is short enough to be written is read back from its numeral. -/
theorem readInteger?_toString {n : Int} (h : n.natAbs < integerBound) :
    readInteger? (toString n) = some n := by
  have hdigits : ∀ c ∈ decimalDigits n.natAbs, c.isDigit = true :=
    fun c => Text.isDigit_of_mem_decimalDigits
  have hkept : ∀ c ∈ (toString n).toList, Text.IsKept c := by
    rw [toList_toString]
    intro c hc
    rcases List.mem_append.mp hc with hsign | hdigit
    · split at hsign
      · rw [List.mem_singleton.mp hsign]
        decide
      · cases hsign
    · exact Text.isKept_of_isDigit (hdigits c hdigit)
  have htrim : Text.trimWith Text.isNumeralBlank (toString n).toList = (toString n).toList := by
    apply Text.trimWith_eq_self
    intro c hc
    unfold Text.isNumeralBlank
    rw [(hkept c hc).1, Bool.false_and]
  have hlength : (decimalDigits n.natAbs).length ≤ longestInteger := by
    rw [integerBound_eq] at h
    exact (Text.length_decimalDigits_le_iff (by decide)).mpr h
  obtain ⟨c, rest, hcons⟩ := List.exists_cons_of_ne_nil (Text.decimalDigits_ne_nil n.natAbs)
  have hsign : takeSign (toString n).toList = (decide (n < 0), decimalDigits n.natAbs) := by
    rw [toList_toString, hcons]
    exact takeSign_append _ rest (hdigits c (hcons ▸ List.mem_cons_self))
  have hne : (decimalDigits n.natAbs).isEmpty = false :=
    List.isEmpty_eq_false_iff.mpr (Text.decimalDigits_ne_nil _)
  unfold readInteger?
  rw [htrim, dropGrouping?_eq_some (fun c hc => (hkept c hc).2)]
  dsimp only [bind, Option.bind]
  rw [hsign]
  dsimp only
  rw [takeDigits_eq hdigits]
  dsimp only
  rw [Text.digitsValue_values, Text.ofDigitChars_decimalDigits, withSign_natAbs]
  simp [hne, hlength]

/-- An integer that is read from a numeral is short enough to be written. -/
theorem natAbs_lt_of_readInteger? {s : String} {n : Int} (h : readInteger? s = some n) :
    n.natAbs < integerBound := by
  unfold readInteger? at h
  obtain ⟨cs, -, h⟩ := Option.bind_eq_some_iff.mp h
  dsimp only at h
  split at h
  case isTrue hread =>
    simp only [Bool.and_eq_true, decide_eq_true_eq] at hread
    have hvalue := Text.digitsValue_lt (takeDigits (takeSign cs).2).1 fun d => lt_of_mem_takeDigits
    have habs : n.natAbs = digitsValue (takeDigits (takeSign cs).2).1 := by
      rw [← Option.some.inj h]
      unfold withSign
      split <;> omega
    rw [habs, integerBound_eq]
    exact Nat.lt_of_lt_of_le hvalue (tenPow_le hread.2)
  case isFalse => cases h

end Number

end CandleHistory
