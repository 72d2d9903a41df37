import CandleHistory.Number.Decimal
import CandleHistory.Proofs.Numerals

/-!
Decimal numbers are read back from their own texts. Each text is laid out in one way: digits, then
perhaps a point with more digits, then perhaps an exponent. Such a layout is read as all its digits
together, with the exponent less the digits after the point, and this is the number that the text
was made from, wherever its point was put.
-/

namespace CandleHistory.Number

open Text (decimalDigits digitsValue)

/-- Digits, perhaps a point with more digits, and an exponent are read as all the digits together,
with the exponent less the digits after the point. -/
theorem readScientific?_append {whole fraction tail : List Char} {exponent : Int}
    (hne : whole ≠ []) (hwhole : ∀ c ∈ whole, c.isDigit = true)
    (hfraction : ∀ c ∈ fraction, c.isDigit = true)
    (htail : ∀ c ∈ tail.head?, c ≠ '.' ∧ Text.digitValue? c = none)
    (hexponent : readExponent? tail = some exponent) :
    readScientific? (whole ++ ((if fraction = [] then [] else '.' :: fraction) ++ tail)) =
      some (Nat.ofDigitChars 10 (whole ++ fraction) 0, exponent - fraction.length) := by
  have hsome : whole.isEmpty = false := List.isEmpty_eq_false_iff.mpr hne
  have hrest : ∀ c ∈ ((if fraction = [] then [] else '.' :: fraction) ++ tail).head?,
      Text.digitValue? c = none := by
    split
    · exact fun c hc => (htail c hc).2
    · simp only [List.cons_append, List.head?_cons, Option.mem_some_iff, forall_eq']
      decide
  unfold readScientific?
  rw [takeDigits_append hwhole hrest]
  dsimp only
  by_cases hnone : fraction = []
  · -- what follows the digits in front begins with no point, so no digits are read after one
    rw [if_pos hnone, List.nil_append]
    cases tail with
    | nil => simp [hnone, hsome, hexponent, Text.digitsValue_values]
    | cons c rest =>
        obtain ⟨hpoint, -⟩ := htail c rfl
        simp [hnone, hsome, hexponent, Text.digitsValue_values, hpoint]
  · have hdigits := takeDigits_append hfraction fun c hc => (htail c hc).2
    rw [if_neg hnone, List.cons_append]
    simp [hsome, hdigits, hexponent, ← Text.values_append, Text.digitsValue_values]

theorem takeSign_signed (exponent : Int) (digits : List Char) :
    takeSign ((if exponent < 0 then '-' else '+') :: digits) = (decide (exponent < 0), digits) := by
  split
  case isTrue hneg => rw [takeSign, decide_eq_true hneg]
  case isFalse hnonneg => rw [takeSign, decide_eq_false hnonneg]

section Marked

variable {mark : Char} (hmark : mark = 'e' ∨ mark = 'E') {digits : List Char}
  (hdigits : ∀ c ∈ digits, c.isDigit = true) {exponent : Int}

include hmark hdigits

/-- A mark, a sign and digits are read as an exponent. -/
theorem readExponent?_marked (hne : digits ≠ [])
    (hvalue : Nat.ofDigitChars 10 digits 0 = exponent.natAbs) :
    readExponent? (mark :: (if exponent < 0 then '-' else '+') :: digits) = some exponent := by
  rw [readExponent?, takeSign_signed]
  dsimp only
  rw [takeDigits_eq hdigits]
  dsimp only
  rw [Text.digitsValue_values, hvalue, withSign_natAbs]
  simp [hmark, hne]

theorem isKept_of_mem_marked :
    ∀ c ∈ mark :: (if exponent < 0 then '-' else '+') :: digits, Text.IsKept c := by
  simp only [List.forall_mem_cons]
  refine ⟨?_, ?_, fun c hc => Text.isKept_of_isDigit (hdigits c hc)⟩
  · rcases hmark with rfl | rfl <;> decide
  · split <;> decide

end Marked

/-- Digits, and perhaps a point with more digits, are kept together with what follows. -/
theorem isKept_of_mem_append {whole fraction tail : List Char}
    (hwhole : ∀ c ∈ whole, c.isDigit = true) (hfraction : ∀ c ∈ fraction, c.isDigit = true)
    (htail : ∀ c ∈ tail, Text.IsKept c) :
    ∀ c ∈ whole ++ ((if fraction = [] then [] else '.' :: fraction) ++ tail), Text.IsKept c := by
  simp only [List.forall_mem_append]
  refine ⟨fun c hc => Text.isKept_of_isDigit (hwhole c hc), ?_, htail⟩
  split
  · exact List.forall_mem_nil _
  · rw [List.forall_mem_cons]
    exact ⟨by decide, fun c hc => Text.isKept_of_isDigit (hfraction c hc)⟩

/-- How an unsigned number is laid out. The exponent is left out if it is zero, the point if no
digits follow it. -/
structure Layout where
  whole : List Char
  fraction : List Char
  exponent : Int
  whole_ne_nil : whole ≠ []
  isDigit_of_mem_whole : ∀ c ∈ whole, c.isDigit = true
  isDigit_of_mem_fraction : ∀ c ∈ fraction, c.isDigit = true

namespace Layout

variable (layout : Layout)

/-- The characters of the exponent, with its sign. -/
def exponentChars (exponent : Int) : List Char :=
  if exponent = 0 then []
  else 'E' :: (if exponent < 0 then '-' else '+') :: decimalDigits exponent.natAbs

/-- The characters after the digits in front. -/
def tail : List Char :=
  (if layout.fraction = [] then [] else '.' :: layout.fraction) ++ exponentChars layout.exponent

/-- All characters of the number. -/
def chars : List Char := layout.whole ++ layout.tail

/-- The number that all digits make together. -/
def coefficient : Nat := Nat.ofDigitChars 10 (layout.whole ++ layout.fraction) 0

/-- The exponent of the last digit. -/
def lastExponent : Int := layout.exponent - layout.fraction.length

/-- Digits with a point after the first `k` of them. -/
def split (digits : List Char) (hdigit : ∀ c ∈ digits, c.isDigit = true) (k : Nat)
    (hk : digits.take k ≠ []) (exponent : Int) : Layout where
  whole := digits.take k
  fraction := digits.drop k
  exponent := exponent
  whole_ne_nil := hk
  isDigit_of_mem_whole c hc := hdigit c (List.mem_of_mem_take hc)
  isDigit_of_mem_fraction c hc := hdigit c (List.mem_of_mem_drop hc)

section Split

variable {digits : List Char} {hdigit : ∀ c ∈ digits, c.isDigit = true} {k : Nat}
  {hk : digits.take k ≠ []} {exponent : Int}

theorem split_coefficient :
    (split digits hdigit k hk exponent).coefficient = Nat.ofDigitChars 10 digits 0 := by
  rw [coefficient, split, List.take_append_drop]

theorem split_lastExponent (h : k ≤ digits.length) :
    (split digits hdigit k hk exponent).lastExponent = exponent + k - digits.length := by
  simp only [lastExponent, split, List.length_drop]
  omega

end Split

theorem exists_digit_cons_eq_chars :
    ∃ c rest, c.isDigit = true ∧ layout.chars = c :: rest := by
  obtain ⟨c, rest, hcons⟩ := List.exists_cons_of_ne_nil layout.whole_ne_nil
  refine ⟨c, rest ++ layout.tail, ?_, ?_⟩
  · exact layout.isDigit_of_mem_whole c (hcons ▸ List.mem_cons_self)
  · rw [chars, hcons, List.cons_append]

theorem isKept_of_mem_chars {c : Char} (h : c ∈ layout.chars) : Text.IsKept c := by
  have hexponent : ∀ c ∈ exponentChars layout.exponent, Text.IsKept c := by
    unfold exponentChars
    split
    · exact List.forall_mem_nil _
    · exact isKept_of_mem_marked (Or.inr rfl) fun c => Text.isDigit_of_mem_decimalDigits
  exact isKept_of_mem_append layout.isDigit_of_mem_whole layout.isDigit_of_mem_fraction hexponent
    c h

theorem not_digit_of_head?_exponentChars (exponent : Int) :
    ∀ c ∈ (exponentChars exponent).head?, c ≠ '.' ∧ Text.digitValue? c = none := by
  unfold exponentChars
  split
  · simp
  · simp only [List.head?_cons, Option.mem_some_iff, forall_eq']
    decide

theorem readExponent?_exponentChars (exponent : Int) :
    readExponent? (exponentChars exponent) = some exponent := by
  unfold exponentChars
  split
  case isTrue hzero => rw [hzero, readExponent?]
  case isFalse hne =>
    exact readExponent?_marked (Or.inr rfl) (fun c => Text.isDigit_of_mem_decimalDigits)
      (Text.decimalDigits_ne_nil _) (Text.ofDigitChars_decimalDigits _)

theorem toList_exponentText {exponent : Int} (h : exponent ≠ 0) :
    ((if exponent < 0 then "E-" else "E+") ++ toString exponent.natAbs).toList =
      exponentChars exponent := by
  rw [exponentChars, if_neg h, String.toList_append, Nat.toString_eq_ofList_toDigits,
    String.toList_ofList]
  split <;> rfl

/-- A layout is read as its digits together, and the exponent of the last of them. -/
theorem readScientific?_chars :
    readScientific? layout.chars = some (layout.coefficient, layout.lastExponent) :=
  readScientific?_append layout.whole_ne_nil layout.isDigit_of_mem_whole
    layout.isDigit_of_mem_fraction (not_digit_of_head?_exponentChars layout.exponent)
    (readExponent?_exponentChars layout.exponent)

end Layout

theorem ofDigitChars_replicate_zero (k : Nat) (digits : List Char) :
    Nat.ofDigitChars 10 (List.replicate k '0' ++ digits) 0 = Nat.ofDigitChars 10 digits 0 := by
  induction k with
  | zero => rfl
  | succ k ih => rw [List.replicate_succ, List.cons_append, Nat.ofDigitChars_cons]; exact ih

namespace Decimal

/-- Every text of an unsigned number is a layout of its coefficient and its exponent. -/
theorem exists_layout (coefficient : Nat) (exponent : Int) :
    ∃ layout : Layout, (finiteText coefficient exponent).toList = layout.chars ∧
      layout.coefficient = coefficient ∧ layout.lastExponent = exponent := by
  have hdigit : ∀ c ∈ decimalDigits coefficient, c.isDigit = true :=
    fun c => Text.isDigit_of_mem_decimalDigits
  have hvalue := Text.ofDigitChars_decimalDigits coefficient
  have hne := Text.decimalDigits_ne_nil coefficient
  unfold finiteText
  generalize decimalDigits coefficient = digits at hdigit hvalue hne ⊢
  have hpos : 0 < digits.length := List.length_pos_iff.mpr hne
  have htake {k : Nat} (hk : 0 < k) : digits.take k ≠ [] := by
    rw [ne_eq, List.take_eq_nil_iff]
    exact not_or.mpr ⟨Nat.pos_iff_ne_zero.mp hk, hne⟩
  dsimp only
  split
  case isTrue hplain =>
    split
    case isTrue hzero =>
      -- the digits alone
      refine ⟨.split digits hdigit digits.length (htake hpos) 0, ?_,
        Layout.split_coefficient.trans hvalue, ?_⟩
      · simp [Layout.split, Layout.chars, Layout.tail, Layout.exponentChars]
      · rw [Layout.split_lastExponent (Nat.le_refl _)]
        omega
    case isFalse hexponent =>
      split
      case isTrue hpoint =>
        -- a zero, the point, and zeros in front of the digits
        refine ⟨⟨['0'], List.replicate (-(digits.length + exponent)).toNat '0' ++ digits, 0,
          List.cons_ne_nil _ _, List.forall_mem_singleton.mpr rfl, ?_⟩, ?_, ?_, ?_⟩
        · intro c hc
          rcases List.mem_append.mp hc with hzero | hmem
          · rw [List.eq_of_mem_replicate hzero]
            decide
          · exact hdigit c hmem
        · simp [Layout.chars, Layout.tail, Layout.exponentChars, hne]
        · exact (ofDigitChars_replicate_zero (_ + 1) digits).trans hvalue
        · simp only [Layout.lastExponent, List.length_append, List.length_replicate]
          omega
      case isFalse hpoint =>
        -- the point is among the digits
        have hfraction : digits.drop (digits.length + exponent).toNat ≠ [] := by
          rw [ne_eq, List.drop_eq_nil_iff]
          omega
        refine ⟨.split digits hdigit (digits.length + exponent).toNat (htake (by omega)) 0, ?_,
          Layout.split_coefficient.trans hvalue, ?_⟩
        · simp [Layout.split, Layout.chars, Layout.tail, Layout.exponentChars, hfraction]
        · rw [Layout.split_lastExponent (by omega)]
          omega
  case isFalse hscientific =>
    have hexponent : digits.length + exponent - 1 ≠ 0 := by omega
    refine ⟨.split digits hdigit 1 (htake (by decide)) (digits.length + exponent - 1), ?_,
      Layout.split_coefficient.trans hvalue, ?_⟩
    · rw [String.append_assoc, String.toList_append, String.toList_ofList,
        Layout.toList_exponentText hexponent]
      simp [Layout.split, Layout.chars, Layout.tail]
    · rw [Layout.split_lastExponent hpos]
      omega

/-- A finite number whose exponents are in range. -/
def InRange (d : Decimal) : Prop :=
  ∃ negative coefficient exponent, ofScientific? negative coefficient exponent = some d

theorem eq_finite_of_ofScientific? {negative : Bool} {coefficient : Nat} {exponent : Int}
    {d : Decimal} (h : ofScientific? negative coefficient exponent = some d) :
    d = .finite negative coefficient exponent := by
  unfold ofScientific? at h
  exact (Option.some.inj (Option.ite_none_left_eq_some.mp h).2).symm

theorem isFinite_of_readSpecial? {negative : Bool} {cs : List Char} {d : Decimal}
    (h : readSpecial? negative cs = some d) : d.isFinite = false := by
  unfold readSpecial? at h
  split at h
  case h_1 rest =>
    obtain ⟨payload, -, rfl⟩ := Option.map_eq_some_iff.mp h
    rfl
  case h_2 rest =>
    obtain ⟨payload, -, rfl⟩ := Option.map_eq_some_iff.mp h
    rfl
  case h_3 =>
    split at h
    case isTrue =>
      cases h
      rfl
    case isFalse => cases h

/-- A finite number that is read has its exponents in range. -/
theorem inRange_of_read? {s : String} {d : Decimal} (h : read? s = some d)
    (hfinite : d.isFinite = true) : d.InRange := by
  unfold read? at h
  dsimp only at h
  split at h
  case h_1 coefficient exponent hread => exact ⟨_, coefficient, exponent, h⟩
  case h_2 =>
    have hspecial := isFinite_of_readSpecial? h
    rw [hfinite] at hspecial
    cases hspecial

/-- A numeral with nothing around it is read as what its characters after the sign are read as. -/
theorem read?_eq {s : String} {negative : Bool} {c : Char} {rest : List Char} {coefficient : Nat}
    {exponent : Int} (hs : s.toList = (if negative then ['-'] else []) ++ c :: rest)
    (hdigit : c.isDigit = true) (hkept : ∀ d ∈ c :: rest, Text.IsKept d)
    (hread : readScientific? (c :: rest) = some (coefficient, exponent)) :
    read? s = ofScientific? negative coefficient exponent := by
  have hkeptAll : ∀ d ∈ s.toList, Text.IsKept d := by
    rw [hs]
    intro d hd
    rcases List.mem_append.mp hd with hsign | hmem
    · split at hsign
      · rw [List.mem_singleton.mp hsign]
        decide
      · cases hsign
    · exact hkept d hmem
  have htrim := Text.trimWith_eq_self fun d hd => (hkeptAll d hd).1
  have hfilter : s.toList.filter (· != '_') = s.toList :=
    List.filter_eq_self.mpr fun d hd => bne_iff_ne.mpr (hkeptAll d hd).2
  unfold read?
  rw [htrim, hfilter, hs, takeSign_append negative rest hdigit]
  dsimp only
  rw [hread]

/-- A number whose exponents are in range is read back from its text, in the same form. -/
theorem read?_text {d : Decimal} (h : d.InRange) : read? d.text = some d := by
  obtain ⟨negative, coefficient, exponent, hrange⟩ := h
  obtain rfl := eq_finite_of_ofScientific? hrange
  obtain ⟨layout, hchars, hcoefficient, hexponent⟩ := exists_layout coefficient exponent
  obtain ⟨c, rest, hdigit, hcons⟩ := layout.exists_digit_cons_eq_chars
  have htext : (Decimal.finite negative coefficient exponent).text.toList =
      (if negative then ['-'] else []) ++ c :: rest := by
    rw [text, signText, String.toList_append, hchars, hcons]
    split <;> rfl
  have hread := layout.readScientific?_chars
  rw [hcons, hcoefficient, hexponent] at hread
  rw [read?_eq htext hdigit (fun d hd => layout.isKept_of_mem_chars (hcons ▸ hd)) hread]
  exact hrange

end Decimal

end CandleHistory.Number
