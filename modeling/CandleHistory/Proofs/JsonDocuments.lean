import CandleHistory.Proofs.JsonGrammar

/-!
Documents that are read as what was written. A datum reads back from its text whatever follows it in
a document: a text of plain characters, a whole number, a finite double, and an object of such data.
Two characters of fuel for each character of the text are enough.
-/

namespace CandleHistory.Json

open Number (Binary64 RealNumeral)

/-- What may follow a datum: nothing, or what ends an item or a field. -/
def Follows (rest : List Char) : Prop := ∀ c ∈ rest.head?, c ∈ [',', ']', '\x7d']

/-- A text is read as a datum, whatever follows. -/
def ReadsAs (text : String) (value : Value) : Prop :=
  ∀ fuel rest, 2 * text.toList.length ≤ fuel → Follows rest →
    readValue? fuel (text.toList ++ rest) = some (value, rest)

theorem isDigit_iff {c : Char} : c.isDigit = true ↔ '0' ≤ c ∧ c ≤ '9' := by
  simp only [Char.isDigit, Bool.and_eq_true, decide_eq_true_eq]
  exact Iff.rfl

theorem plainDigit?_of_isDigit {c : Char} (h : c.isDigit = true) :
    plainDigit? c = some (c.toNat - '0'.toNat) := if_pos (isDigit_iff.mp h)

theorem plainDigit?_eq_none {c : Char} (h : c.isDigit = false) : plainDigit? c = none :=
  if_neg fun hrange => Bool.eq_false_iff.mp h (isDigit_iff.mpr hrange)

/-- The digits at the front of a text end where a character is none. -/
theorem takePlainDigits_append {digits rest : List Char} (hdigits : ∀ c ∈ digits, c.isDigit = true)
    (hstop : ∀ c ∈ rest.head?, c.isDigit = false) :
    takePlainDigits (digits ++ rest) = (Text.values digits, rest) := by
  induction digits with
  | nil =>
      cases rest with
      | nil => rfl
      | cons c rest =>
          rw [List.nil_append, takePlainDigits, plainDigit?_eq_none (hstop c rfl)]
          rfl
  | cons c digits ih =>
      obtain ⟨hc, hlater⟩ := List.forall_mem_cons.mp hdigits
      rw [List.cons_append, takePlainDigits, plainDigit?_of_isDigit hc]
      dsimp only
      rw [ih hlater]
      rfl

theorem Follows.not_isDigit {rest : List Char} (h : Follows rest) :
    ∀ c ∈ rest.head?, c.isDigit = false := by
  intro c hc
  have hmarks : ∀ mark ∈ [',', ']', '\x7d'], mark.isDigit = false := by decide
  exact hmarks c (h c hc)

/-- No fraction follows where a datum ends. -/
theorem readFraction?_none {rest : List Char} (h : ∀ c ∈ rest.head?, c ≠ '.') :
    readFraction? rest = some ([], rest) := by
  cases rest with
  | nil => rfl
  | cons c rest =>
      rw [readFraction?]
      intro tail heq
      cases heq
      exact h '.' rfl rfl

theorem readExponent?_none {rest : List Char} (h : Follows rest) :
    readExponent? rest = some (false, 0, rest) := by
  cases rest with
  | nil => rfl
  | cons c rest =>
      have hmarks : ∀ mark ∈ [',', ']', '\x7d'], ¬ (mark = 'e' ∨ mark = 'E') := by decide
      rw [readExponent?, if_neg (hmarks c (h c rfl))]

/-- No needless zero stands in front of a whole part. -/
theorem not_leadingZero {digits : List Char} (h : IsWhole digits) :
    ((Text.values digits).isEmpty ||
      ((Text.values digits).length != 1 && (Text.values digits).head? == some 0)) = false := by
  obtain ⟨c, rest, rfl⟩ := List.exists_cons_of_ne_nil h.ne_nil
  have hc := h.isDigit c List.mem_cons_self
  rw [Bool.or_eq_false_iff, Text.isEmpty_values, Text.length_values]
  refine ⟨rfl, ?_⟩
  by_cases hzero : c = '0'
  · rw [h.eq_of_zero (by rw [hzero]; rfl)]
    rfl
  · have hvalue : c.toNat - '0'.toNat ≠ 0 := by
      obtain ⟨hlow, -⟩ := Char.isDigit_iff_toNat.mp hc
      intro hsame
      exact hzero (Char.toNat_inj.mp (by omega))
    change c.toNat - 48 ≠ 0 at hvalue
    simp [Text.values, hvalue]

/-- The exponent of a numeral is read from its characters. -/
theorem readExponent?_exponentChars (style : Binary64.Style) (exponent? : Option Int)
    {rest : List Char} (h : Follows rest) :
    readExponent? (RealNumeral.exponentChars style exponent? ++ rest) =
      some (exponent?.isSome, exponent?.getD 0, rest) := by
  cases exponent? with
  | none => exact readExponent?_none h
  | some exponent =>
      have hdigits : ∀ c ∈ (Text.padded style.exponentWidth exponent.natAbs).toList,
          c.isDigit = true := fun c => Text.isDigit_of_mem_padded
      have hvalue := Text.ofDigitChars_padded style.exponentWidth exponent.natAbs
      have hsome := List.isEmpty_eq_false_iff.mpr
        (Text.padded_ne_nil style.exponentWidth exponent.natAbs)
      rw [RealNumeral.exponentChars, RealNumeral.toList_exponentText]
      generalize (Text.padded style.exponentWidth exponent.natAbs).toList = digits at *
      rw [List.cons_append, List.cons_append, readExponent?, if_pos (Or.inl rfl),
        Number.takeSign_signed]
      dsimp only
      rw [takePlainDigits_append hdigits h.not_isDigit]
      dsimp only
      rw [Text.isEmpty_values, hsome, Text.digitsValue_values, hvalue, Number.withSign_natAbs]
      rfl

/-- A numeral without fraction and exponent is read as a whole number. -/
theorem readMagnitude?_decimalDigits (negative : Bool) (n : Nat) {rest : List Char}
    (h : Follows rest) :
    readMagnitude? negative (Text.decimalDigits n ++ rest) =
      some (.integer (Number.withSign negative n), rest) := by
  have hdigits : ∀ c ∈ Text.decimalDigits n, c.isDigit = true :=
    fun c => Text.isDigit_of_mem_decimalDigits
  have hpoint : ∀ c ∈ rest.head?, c ≠ '.' := by
    rintro c hc rfl
    exact absurd (h '.' hc) (by decide)
  rw [readMagnitude?, takePlainDigits_append hdigits h.not_isDigit]
  dsimp only
  rw [not_leadingZero (isWhole_decimalDigits n), readFraction?_none hpoint]
  simp only [Option.bind_eq_bind, Option.bind_some, readExponent?_none h]
  rw [Text.digitsValue_values, Text.ofDigitChars_decimalDigits]
  rfl

theorem head?_exponentChars_append (style : Binary64.Style) (exponent? : Option Int)
    {rest : List Char} (h : Follows rest) :
    ∀ c ∈ (RealNumeral.exponentChars style exponent? ++ rest).head?,
      c ≠ '.' ∧ c.isDigit = false := by
  intro c hc
  cases exponent? with
  | none =>
      have hmarks : ∀ mark ∈ [',', ']', '\x7d'], mark ≠ '.' ∧ mark.isDigit = false := by decide
      exact hmarks c (h c hc)
  | some exponent =>
      rw [RealNumeral.exponentChars, RealNumeral.toList_exponentText] at hc
      obtain rfl := Option.some.inj hc
      decide

/-- The fraction of a numeral is read from its characters. -/
theorem readFraction?_chars {fraction rest : List Char} (hdigits : ∀ c ∈ fraction, c.isDigit = true)
    (hstop : ∀ c ∈ rest.head?, c ≠ '.' ∧ c.isDigit = false) :
    readFraction? ((if fraction = [] then [] else '.' :: fraction) ++ rest) =
      some (Text.values fraction, rest) := by
  split
  case isTrue hnil =>
    rw [hnil]
    exact readFraction?_none fun c hc => (hstop c hc).1
  case isFalse hne =>
    rw [List.cons_append, readFraction?, takePlainDigits_append hdigits fun c hc => (hstop c hc).2]
    dsimp only
    rw [Text.isEmpty_values, List.isEmpty_eq_false_iff.mpr hne]
    rfl

/-- A numeral with a fraction or an exponent is read as the double of its value. -/
theorem readMagnitude?_realNumeral (negative : Bool) (style : Binary64.Style)
    (numeral : RealNumeral) {rest : List Char} (h : Follows rest) :
    readMagnitude? negative (numeral.chars style ++ rest) =
      some (.real (.ofScientific negative numeral.coefficient numeral.lastExponent), rest) := by
  have hexponent := readExponent?_exponentChars style numeral.exponent? h
  have hhead := head?_exponentChars_append style numeral.exponent? h
  have hfraction := readFraction?_chars numeral.isDigit_of_mem_fraction hhead
  have hstop : ∀ c ∈ ((if numeral.fraction = [] then [] else '.' :: numeral.fraction) ++
      (RealNumeral.exponentChars style numeral.exponent? ++ rest)).head?, c.isDigit = false := by
    split
    case isTrue => exact fun c hc => (hhead c hc).2
    case isFalse =>
      rintro c hc
      obtain rfl := Option.some.inj hc
      decide
  have hreal : ((Text.values numeral.fraction).isEmpty && !numeral.exponent?.isSome) = false := by
    rw [Text.isEmpty_values, Bool.and_eq_false_iff]
    by_cases hnil : numeral.fraction = []
    · right
      rw [Option.isSome_iff_ne_none.mpr (numeral.exponent?_ne_none hnil)]
      rfl
    · exact Or.inl (List.isEmpty_eq_false_iff.mpr hnil)
  rw [RealNumeral.chars, List.append_assoc, List.append_assoc, readMagnitude?,
    takePlainDigits_append numeral.isDigit_of_mem_whole hstop]
  dsimp only
  rw [not_leadingZero (isWhole_of_realNumeral numeral), hfraction]
  simp only [Option.bind_eq_bind, Option.bind_some, hexponent, hreal]
  rw [← Text.values_append, Text.digitsValue_values (numeral.whole ++ numeral.fraction),
    Text.length_values]
  rfl

theorem skipSpaces_cons {c : Char} (h : isSpace c = false) (rest : List Char) :
    skipSpaces (c :: rest) = c :: rest :=
  List.dropWhile_cons_of_neg (Bool.eq_false_iff.mp h)

theorem not_isSpace_of_isDigit {c : Char} (h : c.isDigit = true) : isSpace c = false := by
  simp only [isSpace, Bool.or_eq_false_iff, beq_eq_false_iff_ne]
  refine ⟨⟨⟨?_, ?_⟩, ?_⟩, ?_⟩ <;> rintro rfl <;> cases h

/-- A datum that begins with a digit is a numeral. -/
theorem readValue?_digit (fuel : Nat) {c : Char} (hc : c.isDigit = true) (rest : List Char) :
    readValue? (fuel + 1) (c :: rest) = readMagnitude? false (c :: rest) := by
  rw [readValue?, skipSpaces_cons (not_isSpace_of_isDigit hc)]
  split
  case h_8 => rfl
  all_goals
    rename_i heq
    cases heq
    cases hc

theorem readValue?_minus (fuel : Nat) (rest : List Char) :
    readValue? (fuel + 1) ('-' :: rest) = readMagnitude? true rest := by
  rw [readValue?, skipSpaces_cons (by decide)]
  rfl

/-- A numeral with its sign is read as the numeral is. -/
theorem readsAs_numeral {negative : Bool} {text : String} {cs : List Char} {value : Value}
    (htext : text.toList = (if negative then ['-'] else []) ++ cs)
    (hcs : ∃ c rest, c.isDigit = true ∧ cs = c :: rest)
    (h : ∀ rest, Follows rest → readMagnitude? negative (cs ++ rest) = some (value, rest)) :
    ReadsAs text value := by
  obtain ⟨c, tail, hdigit, rfl⟩ := hcs
  intro fuel rest hfuel hrest
  obtain ⟨fuel, rfl⟩ : ∃ less, fuel = less + 1 := by
    rw [htext, List.length_append, List.length_cons] at hfuel
    exact ⟨fuel - 1, by omega⟩
  rw [htext, ← h rest hrest]
  cases negative with
  | true => exact readValue?_minus fuel _
  | false => exact readValue?_digit fuel hdigit _

theorem readsAs_integer (n : Int) : ReadsAs (toString n) (.integer n) := by
  have hcs : ∃ c rest, c.isDigit = true ∧ Text.decimalDigits n.natAbs = c :: rest := by
    obtain ⟨c, rest, hcons⟩ := List.exists_cons_of_ne_nil (Text.decimalDigits_ne_nil n.natAbs)
    exact ⟨c, rest, Text.isDigit_of_mem_decimalDigits (hcons ▸ List.mem_cons_self), hcons⟩
  refine readsAs_numeral (Number.toList_toString n) hcs fun rest hrest => ?_
  rw [readMagnitude?_decimalDigits _ _ hrest, Number.withSign_natAbs]

/-- A finite double is read as itself. -/
theorem readsAs_real (negative : Bool) {units : Nat} (hunits : Binary64.OnGrid units)
    (hlt : units < Binary64.overflowUnits) :
    ReadsAs (Binary64.finite negative units).jsonText (.real (.finite negative units)) := by
  obtain ⟨numeral, hchars, hvalue, -⟩ := Binary64.exists_realNumeral_magnitudeText
    { infinity := "Infinity", notNumber := "NaN" } hunits
  have htext : (Binary64.finite negative units).jsonText.toList =
      (if negative then ['-'] else []) ++
        numeral.chars { infinity := "Infinity", notNumber := "NaN" } := by
    rw [Binary64.jsonText, Binary64.render, String.toList_append, hchars]
    split <;> rfl
  refine readsAs_numeral htext (numeral.exists_digit_cons_eq_chars _) fun rest hrest => ?_
  rw [readMagnitude?_realNumeral negative _ numeral hrest,
    Binary64.ofScientific_realNumeral negative hunits hlt hvalue]

theorem readText?_cons {c : Char} (h : IsPlain c) (fuel : Nat) (before rest : List Char) :
    readText? (fuel + 1) before (c :: rest) = readText? fuel (c :: before) rest := by
  obtain ⟨hlow, -, hquote, hbackslash⟩ := h
  rw [readText?]
  · exact if_neg (Nat.not_lt.mpr hlow)
  · exact hquote
  · exact fun _ hc => absurd hc hbackslash
  · exact fun _ _ hc => absurd hc hbackslash

/-- A text of plain characters is read up to its closing quote. -/
theorem readText?_plain {cs : List Char} (h : ∀ c ∈ cs, IsPlain c) {fuel : Nat}
    (hfuel : cs.length < fuel) (before rest : List Char) :
    readText? fuel before (cs ++ '"' :: rest) =
      some (String.ofList (before.reverse ++ cs), rest) := by
  induction cs generalizing fuel before with
  | nil =>
      obtain ⟨fuel, rfl⟩ : ∃ less, fuel = less + 1 := ⟨fuel - 1, by omega⟩
      rw [List.nil_append, readText?, List.append_nil]
  | cons c cs ih =>
      obtain ⟨hc, hrest⟩ := List.forall_mem_cons.mp h
      obtain ⟨fuel, rfl⟩ : ∃ less, fuel = less + 1 := ⟨fuel - 1, by omega⟩
      rw [List.cons_append, readText?_cons hc, ih hrest (Nat.lt_of_succ_lt_succ hfuel),
        List.reverse_cons, List.append_assoc, List.singleton_append]

/-- A name or a text is read from between its quotes. -/
theorem readText?_literal {s : String} (h : IsPlainText s) (rest : List Char) :
    readText? ((s.toList ++ '"' :: rest).length + 1) [] (s.toList ++ '"' :: rest) =
      some (s, rest) := by
  have hfuel : s.toList.length < (s.toList ++ '"' :: rest).length + 1 := by
    rw [List.length_append]
    omega
  rw [readText?_plain h hfuel, List.reverse_nil, List.nil_append, String.ofList_toList]

theorem readValue?_quote (fuel : Nat) (rest : List Char) :
    readValue? (fuel + 1) ('"' :: rest) = (readText? (rest.length + 1) [] rest).bind
      fun (s, rest) => some (.text s, rest) := by
  rw [readValue?, skipSpaces_cons (by decide)]
  rfl

theorem readValue?_brace (fuel : Nat) (rest : List Char) :
    readValue? (fuel + 1) ('\x7b' :: '"' :: rest) = (readFields? fuel [] ('"' :: rest)).bind
      fun (fields, rest) => some (.object fields, rest) := by
  rw [readValue?, skipSpaces_cons (by decide)]
  rfl

/-- A text of plain characters is read as itself. -/
theorem readsAs_textLiteral {s : String} (h : IsPlainText s) :
    ReadsAs (textLiteral s) (.text s) := by
  intro fuel rest hfuel hrest
  rw [toList_textLiteral h] at hfuel ⊢
  rw [List.length_cons] at hfuel
  obtain ⟨fuel, rfl⟩ : ∃ less, fuel = less + 1 := ⟨fuel - 1, by omega⟩
  rw [List.cons_append, List.append_assoc, List.singleton_append, readValue?_quote,
    readText?_literal h]
  rfl

/-- A field with a new name comes after the others. -/
theorem setField_eq_append {name : String} (value : Value) {before : List (String × Value)}
    (h : name ∉ before.map Prod.fst) :
    Value.setField name value before = before ++ [(name, value)] := by
  induction before with
  | nil => rfl
  | cons field before ih =>
      obtain ⟨hne, hrest⟩ := List.ne_and_not_mem_of_not_mem_cons h
      rw [Value.setField, if_neg hne.symm, ih hrest, List.cons_append]

/-- The last field of an object, with a new name. -/
theorem readFields?_last {name : String} (hname : IsPlainText name) {text : String} {value : Value}
    (h : ReadsAs text value) {before : List (String × Value)} (hnew : name ∉ before.map Prod.fst)
    {fuel : Nat} (hfuel : 2 * text.toList.length ≤ fuel) (rest : List Char) :
    readFields? (fuel + 1) before
        ('"' :: (name.toList ++ '"' :: ':' :: (text.toList ++ '\x7d' :: rest))) =
      some (before ++ [(name, value)], rest) := by
  have hvalue := h fuel ('\x7d' :: rest) hfuel (by simp [Follows])
  have hread := readText?_literal hname (':' :: (text.toList ++ '\x7d' :: rest))
  rw [readFields?, skipSpaces_cons (by decide)]
  change (readText? _ [] _).bind _ = _
  rw [hread]
  change (readValue? fuel (text.toList ++ '\x7d' :: rest)).bind _ = _
  rw [hvalue, ← setField_eq_append value hnew]
  rfl

/-- A field of an object, with a new name, before another one. -/
theorem readFields?_more {name : String} (hname : IsPlainText name) {text : String} {value : Value}
    (h : ReadsAs text value) {before : List (String × Value)} (hnew : name ∉ before.map Prod.fst)
    {fuel : Nat} (hfuel : 2 * text.toList.length ≤ fuel) (rest : List Char) :
    readFields? (fuel + 1) before
        ('"' :: (name.toList ++ '"' :: ':' :: (text.toList ++ ',' :: rest))) =
      readFields? fuel (before ++ [(name, value)]) rest := by
  have hvalue := h fuel (',' :: rest) hfuel (by simp [Follows])
  have hread := readText?_literal hname (':' :: (text.toList ++ ',' :: rest))
  rw [readFields?, skipSpaces_cons (by decide)]
  change (readText? _ [] _).bind _ = _
  rw [hread]
  change (readValue? fuel (text.toList ++ ',' :: rest)).bind _ = _
  rw [hvalue, ← setField_eq_append value hnew]
  rfl

/-- Fields of different names are read one after the other. -/
theorem readFields?_fieldsText {texts : List (String × String)} {fields : List (String × Value)}
    (h : FieldsRelated ReadsAs texts fields) (hne : texts ≠ []) (before : List (String × Value))
    (hnames : ((before ++ fields).map Prod.fst).Nodup) {fuel : Nat}
    (hfuel : 2 * (fieldsText texts).toList.length < fuel) (rest : List Char) :
    readFields? fuel before ((fieldsText texts).toList ++ '\x7d' :: rest) =
      some (before ++ fields, rest) := by
  induction h generalizing before fuel with
  | nil => exact absurd rfl hne
  | @cons text field texts fields hfield hfields ih =>
      obtain ⟨name, text⟩ := text
      obtain ⟨_, value⟩ := field
      obtain ⟨rfl, hname, htext⟩ := hfield
      dsimp only at hname htext hnames
      have hnew : name ∉ before.map Prod.fst := by
        rw [List.map_append, List.map_cons, List.nodup_middle, List.nodup_cons] at hnames
        exact fun hmem => hnames.1 (List.mem_append_left _ hmem)
      obtain ⟨fuel, rfl⟩ : ∃ less, fuel = less + 1 := ⟨fuel - 1, by omega⟩
      cases texts with
      | nil =>
          cases hfields
          rw [toList_fieldsText_singleton hname] at hfuel ⊢
          simp only [List.length_cons, List.length_append] at hfuel
          have hread := readFields?_last hname htext hnew (by omega : _ ≤ fuel) rest
          simpa only [List.cons_append, List.append_assoc] using hread
      | cons next texts =>
          rw [toList_fieldsText_cons hname] at hfuel ⊢
          simp only [List.length_cons, List.length_append] at hfuel
          have hfields' : (before ++ [(name, value)]) ++ fields =
              before ++ (name, value) :: fields := by
            rw [List.append_assoc, List.singleton_append]
          have hread := readFields?_more hname htext hnew (by omega : _ ≤ fuel)
            ((fieldsText (next :: texts)).toList ++ '\x7d' :: rest)
          have hlater := ih (List.cons_ne_nil _ _) _ (hfields' ▸ hnames) (by omega : _ < fuel)
          rw [hlater, hfields'] at hread
          simpa only [List.cons_append, List.append_assoc] using hread

theorem exists_quote_cons {texts : List (String × String)} {fields : List (String × Value)}
    (h : FieldsRelated ReadsAs texts fields) (hne : texts ≠ []) :
    ∃ tail, (fieldsText texts).toList = '"' :: tail := by
  cases h with
  | nil => exact absurd rfl hne
  | @cons text field texts fields hfield hfields =>
      obtain ⟨name, text⟩ := text
      obtain ⟨-, hname, -⟩ := hfield
      cases texts with
      | nil => exact ⟨_, toList_fieldsText_singleton hname⟩
      | cons next texts => exact ⟨_, toList_fieldsText_cons hname next texts⟩

/-- An object of fields with different names is read as their data. -/
theorem readsAs_objectText {texts : List (String × String)} {fields : List (String × Value)}
    (h : FieldsRelated ReadsAs texts fields) (hne : texts ≠ [])
    (hnames : (fields.map Prod.fst).Nodup) :
    ReadsAs (objectText texts) (.object fields) := by
  intro fuel rest hfuel hrest
  rw [toList_objectText] at hfuel ⊢
  simp only [List.length_cons, List.length_append, List.length_nil] at hfuel
  obtain ⟨fuel, rfl⟩ : ∃ less, fuel = less + 1 := ⟨fuel - 1, by omega⟩
  have hread := readFields?_fieldsText h hne [] hnames (by omega : _ < fuel) rest
  obtain ⟨tail, htail⟩ := exists_quote_cons h hne
  rw [htail, List.cons_append] at hread
  rw [htail, List.cons_append, List.cons_append, List.cons_append, List.append_assoc,
    List.singleton_append, readValue?_brace, hread]
  rfl

/-- A document is read as what its text is read as. -/
theorem ReadsAs.read?_eq {text : String} {value : Value} (h : ReadsAs text value) :
    read? text = some value := by
  have hread := h (2 * text.toList.length + 2) [] (by omega) nofun
  rw [List.append_nil] at hread
  rw [read?]
  simp only [hread, Option.bind_eq_bind, Option.bind_some]
  rfl

/-- The texts of values are read as the values. -/
theorem Making.respects_readsAs : texts.Respects values ReadsAs where
  text := readsAs_textLiteral
  integer := readsAs_integer
  object := readsAs_objectText

end CandleHistory.Json
