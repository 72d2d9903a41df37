import CandleHistory.Json.Reader
import CandleHistory.Proofs.DoubleNumerals
import CandleHistory.Proofs.EventDocuments

/-!
The grammar of JSON documents, as RFC 8259 gives it: numerals, texts in quotes, and data that
consist of other data, with spaces anywhere between the tokens. What is written from valid parts is
valid. Documents of a fixed shape can be made in several ways, as values and as texts for example,
and what is made in two ways is related if its parts are.
-/

namespace CandleHistory.Json

open Number (Binary64 RealNumeral)

/-- What holds of all characters of a text is decided along the text, and not over all characters
that there are. -/
instance decidableForallChar {claim : Char → Prop} [DecidablePred claim] (cs : List Char) :
    Decidable (∀ c ∈ cs, claim c) :=
  List.decidableBAll claim cs

/-- Spaces only, perhaps none. -/
def IsSpaces (cs : List Char) : Prop := ∀ c ∈ cs, isSpace c = true

/-- Digits from zero to nine, at least one. -/
structure IsDigits (cs : List Char) : Prop where
  ne_nil : cs ≠ []
  isDigit : ∀ c ∈ cs, c.isDigit = true

/-- The whole part of a numeral: no zero stands in front of other digits. -/
structure IsWhole (cs : List Char) : Prop extends IsDigits cs where
  eq_of_zero : cs.head? = some '0' → cs = ['0']

/-- The fraction of a numeral, if it has one. -/
inductive IsFraction : List Char → Prop
  | none : IsFraction []
  | point {digits : List Char} (h : IsDigits digits) : IsFraction ('.' :: digits)

/-- The exponent of a numeral, if it has one. -/
inductive IsExponent : List Char → Prop
  | none : IsExponent []
  | marked {mark : Char} {sign digits : List Char} (hmark : mark ∈ ['e', 'E'])
      (hsign : sign ∈ [[], ['+'], ['-']]) (h : IsDigits digits) :
      IsExponent (mark :: (sign ++ digits))

/-- A numeral. -/
inductive IsNumeral : List Char → Prop
  | parts {sign whole fraction exponent : List Char} (hsign : sign ∈ [[], ['-']])
      (hwhole : IsWhole whole) (hfraction : IsFraction fraction) (hexponent : IsExponent exponent) :
      IsNumeral (sign ++ (whole ++ (fraction ++ exponent)))

/-- What stands between quotes: characters other than the quote, the backslash and the control
characters, and escapes. -/
inductive IsContent : List Char → Prop
  | nil : IsContent []
  | plain {c : Char} {rest : List Char} (hcontrol : 0x20 ≤ c.toNat) (hquote : c ≠ '"')
      (hbackslash : c ≠ '\\') (h : IsContent rest) : IsContent (c :: rest)
  | short {c : Char} {rest : List Char} (hc : c ∈ ['"', '\\', '/', 'b', 'f', 'n', 'r', 't'])
      (h : IsContent rest) : IsContent ('\\' :: c :: rest)
  | unit {digits rest : List Char} (hlength : digits.length = 4)
      (hdigits : ∀ c ∈ digits, (hexDigit? c).isSome = true) (h : IsContent rest) :
      IsContent ('\\' :: 'u' :: (digits ++ rest))

/-- The kinds of phrases: a datum, a datum with spaces around it, items with commas between them, a
field, and fields with commas between them. -/
inductive Phrase where
  | value
  | spaced
  | items
  | field
  | fields

/-- A text is a phrase of some kind. -/
inductive IsPhrase : Phrase → List Char → Prop
  | null : IsPhrase .value "null".toList
  | true : IsPhrase .value "true".toList
  | false : IsPhrase .value "false".toList
  | numeral {cs : List Char} (h : IsNumeral cs) : IsPhrase .value cs
  | text {cs : List Char} (h : IsContent cs) : IsPhrase .value ('"' :: (cs ++ ['"']))
  | emptyList {cs : List Char} (h : IsSpaces cs) : IsPhrase .value ('[' :: (cs ++ [']']))
  | list {cs : List Char} (h : IsPhrase .items cs) : IsPhrase .value ('[' :: (cs ++ [']']))
  | emptyObject {cs : List Char} (h : IsSpaces cs) : IsPhrase .value ('\x7b' :: (cs ++ ['\x7d']))
  | object {cs : List Char} (h : IsPhrase .fields cs) : IsPhrase .value ('\x7b' :: (cs ++ ['\x7d']))
  | spaced {before cs after : List Char} (hbefore : IsSpaces before) (h : IsPhrase .value cs)
      (hafter : IsSpaces after) : IsPhrase .spaced (before ++ (cs ++ after))
  | lastItem {cs : List Char} (h : IsPhrase .spaced cs) : IsPhrase .items cs
  | moreItems {cs rest : List Char} (h : IsPhrase .spaced cs) (hrest : IsPhrase .items rest) :
      IsPhrase .items (cs ++ ',' :: rest)
  | field {before name after cs : List Char} (hbefore : IsSpaces before) (hname : IsContent name)
      (hafter : IsSpaces after) (h : IsPhrase .spaced cs) :
      IsPhrase .field (before ++ '"' :: (name ++ '"' :: (after ++ ':' :: cs)))
  | lastField {cs : List Char} (h : IsPhrase .field cs) : IsPhrase .fields cs
  | moreFields {cs rest : List Char} (h : IsPhrase .field cs) (hrest : IsPhrase .fields rest) :
      IsPhrase .fields (cs ++ ',' :: rest)

/-- A valid document: one datum with spaces around it. -/
def IsDocument (s : String) : Prop := IsPhrase .spaced s.toList

/-- The characters of numerals besides the digits. -/
def numeralMarks : List Char := ['+', '-', '.', 'e', 'E']

theorem IsNumeral.isDigit_or_mem {cs : List Char} (h : IsNumeral cs) :
    ∀ c ∈ cs, c.isDigit = true ∨ c ∈ numeralMarks := by
  have hdigits {digits : List Char} (hdigits : IsDigits digits) :
      ∀ c ∈ digits, c.isDigit = true ∨ c ∈ numeralMarks :=
    fun c hc => Or.inl (hdigits.isDigit c hc)
  have hsigns : ∀ sign ∈ ([[], ['+'], ['-']] : List (List Char)),
      ∀ c ∈ sign, c.isDigit = true ∨ c ∈ numeralMarks := by decide
  obtain ⟨hsign, hwhole, hfraction, hexponent⟩ := h
  simp only [List.forall_mem_append]
  refine ⟨hsigns _ ?_, hdigits hwhole.toIsDigits, ?_, ?_⟩
  · simp only [List.mem_cons] at hsign ⊢
    tauto
  · cases hfraction with
    | none => exact nofun
    | point h => exact List.forall_mem_cons.mpr ⟨by decide, hdigits h⟩
  · cases hexponent with
    | none => exact nofun
    | marked hmark hplus h =>
        have hmarks : ∀ mark ∈ ['e', 'E'], mark.isDigit = true ∨ mark ∈ numeralMarks := by decide
        rw [List.forall_mem_cons, List.forall_mem_append]
        exact ⟨hmarks _ hmark, hsigns _ hplus, hdigits h⟩

theorem break_not_mem_numeral {cs : List Char} (h : IsNumeral cs) : '\n' ∉ cs := by
  intro hmem
  rcases h.isDigit_or_mem '\n' hmem with hdigit | hmark
  · cases hdigit
  · exact absurd hmark (by decide)

theorem isWhole_decimalDigits (n : Nat) : IsWhole (Text.decimalDigits n) := by
  refine ⟨⟨Text.decimalDigits_ne_nil n, fun c => Text.isDigit_of_mem_decimalDigits⟩, ?_⟩
  intro hzero
  rcases Nat.eq_zero_or_pos n with rfl | hpos
  · rfl
  · exact absurd hzero (Text.head?_decimalDigits_ne hpos)

/-- The numeral of a whole number. -/
theorem isNumeral_toString (n : Int) : IsNumeral (toString n).toList := by
  have hsign : (if decide (n < 0) then ['-'] else []) ∈ ([[], ['-']] : List (List Char)) := by
    split <;> decide
  have hparts := IsNumeral.parts hsign (isWhole_decimalDigits n.natAbs) .none .none
  rwa [List.append_nil, List.append_nil, ← Number.toList_toString] at hparts

theorem isWhole_of_realNumeral (numeral : RealNumeral) : IsWhole numeral.whole :=
  ⟨⟨numeral.whole_ne_nil, numeral.isDigit_of_mem_whole⟩, numeral.whole_eq_of_zero⟩

theorem isFraction_of_realNumeral (numeral : RealNumeral) :
    IsFraction (if numeral.fraction = [] then [] else '.' :: numeral.fraction) := by
  split
  case isTrue => exact .none
  case isFalse hne => exact .point ⟨hne, numeral.isDigit_of_mem_fraction⟩

theorem isExponent_exponentChars (style : Binary64.Style) (exponent? : Option Int) :
    IsExponent (RealNumeral.exponentChars style exponent?) := by
  cases exponent? with
  | none => exact .none
  | some exponent =>
      have hsign : [if exponent < 0 then '-' else '+'] ∈
          ([[], ['+'], ['-']] : List (List Char)) := by
        split <;> decide
      rw [RealNumeral.exponentChars, RealNumeral.toList_exponentText]
      exact .marked (by decide) hsign
        ⟨Text.padded_ne_nil _ _, fun c => Text.isDigit_of_mem_padded⟩

/-- The numeral of a finite double. -/
theorem isNumeral_jsonText (negative : Bool) {units : Nat} (hunits : Binary64.OnGrid units) :
    IsNumeral (Binary64.finite negative units).jsonText.toList := by
  obtain ⟨numeral, hchars, -⟩ := Binary64.exists_realNumeral_magnitudeText
    { infinity := "Infinity", notNumber := "NaN" } hunits
  unfold Binary64.jsonText Binary64.render
  have hsign : (if negative then "-" else "").toList ∈ ([[], ['-']] : List (List Char)) := by
    split <;> decide
  rw [String.toList_append, hchars]
  exact .parts hsign (isWhole_of_realNumeral numeral) (isFraction_of_realNumeral numeral)
    (isExponent_exponentChars _ numeral.exponent?)

/-- Whether a character is written inside a text as it is. -/
def IsPlain (c : Char) : Prop := 0x20 ≤ c.toNat ∧ c.toNat < 0x7F ∧ c ≠ '"' ∧ c ≠ '\\'

instance : DecidablePred IsPlain :=
  fun c => inferInstanceAs (Decidable (0x20 ≤ c.toNat ∧ c.toNat < 0x7F ∧ c ≠ '"' ∧ c ≠ '\\'))

theorem isPlain_of_isDigit {c : Char} (h : c.isDigit = true) : IsPlain c := by
  obtain ⟨hlow, hhigh⟩ := Char.isDigit_iff_toNat.mp h
  change 48 ≤ c.toNat at hlow
  change c.toNat ≤ 57 at hhigh
  refine ⟨by omega, by omega, ?_, ?_⟩
  · rintro rfl
    cases h
  · rintro rfl
    cases h

theorem charText_of_isPlain {c : Char} (h : IsPlain c) : charText c = [c] := by
  obtain ⟨hlow, hhigh, hquote, hbackslash⟩ := h
  have hcontrol (mark : Char) (hmark : mark.toNat < 0x20) : c ≠ mark := by
    rintro rfl
    omega
  unfold charText
  rw [if_neg hquote, if_neg hbackslash, if_neg (hcontrol '\n' (by decide)),
    if_neg (hcontrol '\r' (by decide)), if_neg (hcontrol '\t' (by decide)),
    if_neg (hcontrol '\x08' (by decide)), if_neg (hcontrol '\x0c' (by decide)),
    if_pos ⟨hlow, hhigh⟩]

/-- Whether a text is written as it is. -/
def IsPlainText (s : String) : Prop := ∀ c ∈ s.toList, IsPlain c

instance : DecidablePred IsPlainText :=
  fun s => inferInstanceAs (Decidable (∀ c ∈ s.toList, IsPlain c))

theorem toList_textLiteral {s : String} (h : IsPlainText s) :
    (textLiteral s).toList = '"' :: (s.toList ++ ['"']) := by
  have hchars : s.toList.flatMap charText = s.toList := by
    rw [List.flatMap_congr fun c hc => charText_of_isPlain (h c hc)]
    exact List.flatMap_singleton' _
  rw [textLiteral, String.toList_ofList, hchars, List.cons_append]

theorem isContent_of_isPlain {cs : List Char} (h : ∀ c ∈ cs, IsPlain c) : IsContent cs := by
  induction cs with
  | nil => exact .nil
  | cons c cs ih =>
      obtain ⟨⟨hlow, -, hquote, hbackslash⟩, hrest⟩ := List.forall_mem_cons.mp h
      exact .plain hlow hquote hbackslash (ih hrest)

theorem isPhrase_textLiteral {s : String} (h : IsPlainText s) :
    IsPhrase .value (textLiteral s).toList := by
  rw [toList_textLiteral h]
  exact .text (isContent_of_isPlain h)

theorem isPhrase_spaced {cs : List Char} (h : IsPhrase .value cs) : IsPhrase .spaced cs := by
  have hnone : IsSpaces [] := nofun
  have hspaced := IsPhrase.spaced hnone h hnone
  rwa [List.append_nil, List.nil_append] at hspaced

theorem toList_fieldsText_cons {name text : String} (hname : IsPlainText name)
    (next : String × String) (fields : List (String × String)) :
    (fieldsText ((name, text) :: next :: fields)).toList =
      '"' :: (name.toList ++ '"' :: ':' :: (text.toList ++ ',' ::
        (fieldsText (next :: fields)).toList)) := by
  have hcolon : ":".toList = [':'] := rfl
  have hcomma : ",".toList = [','] := rfl
  simp only [fieldsText, String.toList_append, toList_textLiteral hname, hcolon, hcomma,
    List.append_assoc, List.cons_append, List.nil_append]

theorem toList_fieldsText_singleton {name text : String} (hname : IsPlainText name) :
    (fieldsText [(name, text)]).toList = '"' :: (name.toList ++ '"' :: ':' :: text.toList) := by
  have hcolon : ":".toList = [':'] := rfl
  simp only [fieldsText, String.toList_append, toList_textLiteral hname, hcolon,
    List.append_assoc, List.cons_append, List.nil_append]

theorem toList_objectText (fields : List (String × String)) :
    (objectText fields).toList = '\x7b' :: ((fieldsText fields).toList ++ ['\x7d']) := by
  rw [objectText, String.toList_append, String.toList_append]
  rfl

theorem isPhrase_field {name text : String} (hname : IsPlainText name)
    (h : IsPhrase .value text.toList) :
    IsPhrase .field ('"' :: (name.toList ++ '"' :: ':' :: text.toList)) :=
  @IsPhrase.field [] _ [] _ nofun (isContent_of_isPlain hname) nofun (isPhrase_spaced h)

/-- Fields are valid if their data are. -/
theorem isPhrase_fieldsText {fields : List (String × String)} (hne : fields ≠ [])
    (h : ∀ field ∈ fields, IsPlainText field.1 ∧ IsPhrase .value field.2.toList) :
    IsPhrase .fields (fieldsText fields).toList := by
  induction fields with
  | nil => exact absurd rfl hne
  | cons field fields ih =>
      obtain ⟨name, text⟩ := field
      obtain ⟨⟨hname, htext⟩, hrest⟩ := List.forall_mem_cons.mp h
      have hfield := isPhrase_field hname htext
      cases fields with
      | nil =>
          rw [toList_fieldsText_singleton hname]
          exact .lastField hfield
      | cons next fields =>
          have hmore := IsPhrase.moreFields hfield (ih (List.cons_ne_nil _ _) hrest)
          rw [toList_fieldsText_cons hname]
          simpa only [List.cons_append, List.append_assoc] using hmore

/-- An object is valid if its data are. -/
theorem isPhrase_objectText {fields : List (String × String)} (hne : fields ≠ [])
    (h : ∀ field ∈ fields, IsPlainText field.1 ∧ IsPhrase .value field.2.toList) :
    IsPhrase .value (objectText fields).toList := by
  rw [toList_objectText]
  exact .object (isPhrase_fieldsText hne h)

theorem IsPlainText.break_not_mem {s : String} (h : IsPlainText s) : '\n' ∉ s.toList :=
  fun hmem => absurd (h '\n' hmem) (by decide)

theorem break_not_mem_textLiteral {s : String} (h : IsPlainText s) :
    '\n' ∉ (textLiteral s).toList := by
  rw [toList_textLiteral h]
  simp [h.break_not_mem]

theorem break_not_mem_fieldsText {fields : List (String × String)}
    (h : ∀ field ∈ fields, IsPlainText field.1 ∧ '\n' ∉ field.2.toList) :
    '\n' ∉ (fieldsText fields).toList := by
  induction fields with
  | nil => exact List.not_mem_nil
  | cons field fields ih =>
      obtain ⟨name, text⟩ := field
      obtain ⟨⟨hname, htext⟩, hrest⟩ := List.forall_mem_cons.mp h
      have hbreak := hname.break_not_mem
      cases fields with
      | nil =>
          rw [toList_fieldsText_singleton hname]
          simp [hbreak, htext]
      | cons next fields =>
          rw [toList_fieldsText_cons hname]
          simp [hbreak, htext, ih hrest]

/-- There is a line break in an object only if there is one in its data. -/
theorem break_not_mem_objectText {fields : List (String × String)}
    (h : ∀ field ∈ fields, IsPlainText field.1 ∧ '\n' ∉ field.2.toList) :
    '\n' ∉ (objectText fields).toList := by
  rw [toList_objectText]
  simp [break_not_mem_fieldsText h]

/-- A way to make data from texts, from whole numbers and from fields. -/
structure Making (δ : Type) where
  text : String → δ
  integer : Int → δ
  object : List (String × δ) → δ

/-- Fields with the same names, which are written as they are, and with data that are related. -/
abbrev FieldsRelated {α β : Type} (related : α → β → Prop) :
    List (String × α) → List (String × β) → Prop :=
  List.Forall₂ fun field other =>
    field.1 = other.1 ∧ IsPlainText field.1 ∧ related field.2 other.2

theorem FieldsRelated.cons {α β : Type} {related : α → β → Prop} {name : String} {datum : α}
    {other : β} (hname : IsPlainText name) (h : related datum other)
    {fields : List (String × α)} {others : List (String × β)}
    (hrest : FieldsRelated related fields others) :
    FieldsRelated related ((name, datum) :: fields) ((name, other) :: others) :=
  List.Forall₂.cons ⟨rfl, hname, h⟩ hrest

namespace Making

/-- How values are made. -/
def values : Making Value := ⟨.text, .integer, .object⟩

/-- How the texts of values are made. -/
def texts : Making String := ⟨textLiteral, toString, objectText⟩

/-- Two ways to make data give related data. -/
structure Respects {α β : Type} (first : Making α) (second : Making β)
    (related : α → β → Prop) : Prop where
  text {s : String} (h : IsPlainText s) : related (first.text s) (second.text s)
  integer (n : Int) : related (first.integer n) (second.integer n)
  object {fields : List (String × α)} {others : List (String × β)}
    (h : FieldsRelated related fields others) (hne : fields ≠ [])
    (hnames : (others.map Prod.fst).Nodup) : related (first.object fields) (second.object others)

/-- What holds of the texts of texts and whole numbers, and of objects if it holds of their data,
relates the texts to anything. -/
theorem respects_of_forall {β : Type} (second : Making β) {claim : String → Prop}
    (htext : ∀ s, IsPlainText s → claim (textLiteral s)) (hinteger : ∀ n : Int, claim (toString n))
    (hobject : ∀ fields, fields ≠ [] → (∀ field ∈ fields, IsPlainText field.1 ∧ claim field.2) →
      claim (objectText fields)) : texts.Respects second fun s _ => claim s where
  text h := htext _ h
  integer := hinteger
  object h hne _ :=
    hobject _ hne (forall_mem_of_forall₂ h.flip fun _ _ hfield => hfield.2)

/-- The texts of values are valid. -/
theorem respects_isPhrase {β : Type} (second : Making β) :
    texts.Respects second fun s _ => IsPhrase .value s.toList :=
  respects_of_forall second (fun _ => isPhrase_textLiteral)
    (fun n => .numeral (isNumeral_toString n)) fun _ => isPhrase_objectText

/-- There is no line break in the texts of values. -/
theorem respects_break_not_mem {β : Type} (second : Making β) :
    texts.Respects second fun s _ => '\n' ∉ s.toList :=
  respects_of_forall second (fun _ => break_not_mem_textLiteral)
    (fun n => break_not_mem_numeral (isNumeral_toString n)) fun _ _ => break_not_mem_objectText

end Making

end CandleHistory.Json
