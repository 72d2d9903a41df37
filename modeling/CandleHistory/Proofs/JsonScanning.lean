import CandleHistory.Proofs.JsonGrammar

/-!
Words that no document has. A reader goes through a text and tells what stands in quotes from what
stands outside. No valid document has a capital letter outside its texts that begins the words for
an infinity or for what is no number, so a document with such a word is not valid.
-/

namespace CandleHistory.Json

/-- Where a reader is: between texts, inside one, or after a backslash inside one. -/
inductive Place where
  | outside
  | inside
  | escaped
  deriving DecidableEq, Repr

/-- Whether a character begins the word for an infinity or for what is no number. -/
def isWordStart (c : Char) : Bool := c == 'I' || c == 'N'

/-- Whether a character may stand outside of texts: it is no quote, and begins no such word. -/
def IsToken (c : Char) : Prop := c ≠ '"' ∧ isWordStart c = false

instance : DecidablePred IsToken :=
  fun c => inferInstanceAs (Decidable (c ≠ '"' ∧ isWordStart c = false))

/-- Where a reader is after one more character. Outside of texts it refuses the characters that
begin the words for what is no finite number. -/
def step? : Place → Char → Option Place
  | .outside, '"' => some .inside
  | .outside, c => if isWordStart c then none else some .outside
  | .inside, '"' => some .outside
  | .inside, '\\' => some .escaped
  | .inside, _ => some .inside
  | .escaped, _ => some .inside

/-- Where a reader is after a text. -/
def scan? (place : Place) (cs : List Char) : Option Place := cs.foldlM step? place

theorem scan?_append (place : Place) (front back : List Char) :
    scan? place (front ++ back) = (scan? place front).bind fun next => scan? next back :=
  List.foldlM_append

theorem scan?_cons (place : Place) (c : Char) (cs : List Char) :
    scan? place (c :: cs) = (step? place c).bind fun next => scan? next cs :=
  List.foldlM_cons

theorem scan?_token {c : Char} (h : IsToken c) (cs : List Char) :
    scan? .outside (c :: cs) = scan? .outside cs := by
  have hstep : step? .outside c = some .outside := by
    rw [step?, h.2]
    · rfl
    · exact h.1
  rw [scan?_cons, hstep, Option.bind_some]

/-- Outside of texts, a reader stays there as long as no quote comes. -/
theorem scan?_tokens {cs : List Char} (h : ∀ c ∈ cs, IsToken c) :
    scan? .outside cs = some .outside := by
  induction cs with
  | nil => rfl
  | cons c cs ih =>
      obtain ⟨hc, hrest⟩ := List.forall_mem_cons.mp h
      rw [scan?_token hc, ih hrest]

theorem step?_inside {c : Char} (hquote : c ≠ '"') (hbackslash : c ≠ '\\') :
    step? .inside c = some .inside := by
  rw [step?]
  · exact hquote
  · exact hbackslash

/-- Inside a text, a reader stays there up to the closing quote. -/
theorem scan?_content {cs : List Char} (h : IsContent cs) : scan? .inside cs = some .inside := by
  induction h with
  | nil => rfl
  | plain hcontrol hquote hbackslash _ ih =>
      rw [scan?_cons, step?_inside hquote hbackslash]
      exact ih
  | short hc _ ih => exact ih
  | @unit digits rest hlength hdigits _ ih =>
      have hinside : scan? .inside digits = some .inside := by
        clear hlength
        induction digits with
        | nil => rfl
        | cons c digits ihDigits =>
            obtain ⟨hc, hlater⟩ := List.forall_mem_cons.mp hdigits
            have hquote : c ≠ '"' := by
              rintro rfl
              cases hc
            have hbackslash : c ≠ '\\' := by
              rintro rfl
              cases hc
            rw [scan?_cons, step?_inside hquote hbackslash]
            exact ihDigits hlater
      change scan? .inside (digits ++ rest) = some .inside
      rw [scan?_append, hinside]
      exact ih

theorem isToken_of_isDigit {c : Char} (h : c.isDigit = true) : IsToken c := by
  constructor
  · rintro rfl
    cases h
  · rw [isWordStart, Bool.or_eq_false_iff, beq_eq_false_iff_ne, beq_eq_false_iff_ne]
    constructor <;> rintro rfl <;> cases h

theorem isToken_of_isSpace {c : Char} (h : isSpace c = true) : IsToken c := by
  simp only [isSpace, Bool.or_eq_true, beq_iff_eq] at h
  rcases h with ((rfl | rfl) | rfl) | rfl <;> decide

theorem IsNumeral.isToken {cs : List Char} (h : IsNumeral cs) : ∀ c ∈ cs, IsToken c := by
  intro c hc
  rcases h.isDigit_or_mem c hc with hdigit | hmark
  · exact isToken_of_isDigit hdigit
  · have hmarks : ∀ mark ∈ numeralMarks, IsToken mark := by decide
    exact hmarks c hmark

/-- Brackets and braces do not take a reader into a text. -/
theorem scan?_enclosed {opening closing : Char} (hopening : IsToken opening)
    (hclosing : IsToken closing) {cs : List Char} (h : scan? .outside cs = some .outside) :
    scan? .outside (opening :: (cs ++ [closing])) = some .outside := by
  rw [scan?_token hopening, scan?_append, h, Option.bind_some, scan?_token hclosing]
  rfl

theorem scan?_spaces {cs : List Char} (h : IsSpaces cs) : scan? .outside cs = some .outside :=
  scan?_tokens fun c hc => isToken_of_isSpace (h c hc)

/-- A reader that begins outside of texts ends a phrase outside of texts. -/
theorem scan?_phrase {phrase : Phrase} {cs : List Char} (h : IsPhrase phrase cs) :
    scan? .outside cs = some .outside := by
  induction h with
  | null => rfl
  | true => rfl
  | false => rfl
  | numeral h => exact scan?_tokens h.isToken
  | text h =>
      change scan? .inside _ = _
      rw [scan?_append, scan?_content h]
      rfl
  | emptyList h => exact scan?_enclosed (by decide) (by decide) (scan?_spaces h)
  | list _ ih => exact scan?_enclosed (by decide) (by decide) ih
  | emptyObject h => exact scan?_enclosed (by decide) (by decide) (scan?_spaces h)
  | object _ ih => exact scan?_enclosed (by decide) (by decide) ih
  | spaced hbefore _ hafter ih =>
      rw [scan?_append, scan?_spaces hbefore, Option.bind_some, scan?_append, ih, Option.bind_some,
        scan?_spaces hafter]
  | lastItem _ ih => exact ih
  | moreItems _ _ ih ihrest =>
      rw [scan?_append, ih, Option.bind_some, scan?_token (by decide), ihrest]
  | field hbefore hname hafter _ ih =>
      rw [scan?_append, scan?_spaces hbefore]
      change scan? .inside _ = _
      rw [scan?_append, scan?_content hname]
      change scan? .outside _ = _
      rw [scan?_append, scan?_spaces hafter, Option.bind_some, scan?_token (by decide), ih]
  | lastField _ ih => exact ih
  | moreFields _ _ ih ihrest =>
      rw [scan?_append, ih, Option.bind_some, scan?_token (by decide), ihrest]

/-- A reader that begins outside of texts goes through a text and ends outside of texts if a claim
holds, and else it refuses a character. -/
def ClosesIf (claim : Prop) (cs : List Char) : Prop :=
  claim ∧ scan? .outside cs = some .outside ∨ ¬ claim ∧ scan? .outside cs = none

variable {first second : Prop}

theorem closesIf_nil : ClosesIf True [] := Or.inl ⟨trivial, rfl⟩

theorem ClosesIf.congr (hiff : first ↔ second) {cs : List Char} (h : ClosesIf first cs) :
    ClosesIf second cs :=
  propext hiff ▸ h

theorem closesIf_phrase {phrase : Phrase} {cs : List Char} (h : IsPhrase phrase cs) :
    ClosesIf True cs :=
  Or.inl ⟨trivial, scan?_phrase h⟩

theorem ClosesIf.holds {phrase : Phrase} {cs : List Char} (h : ClosesIf first cs)
    (hphrase : IsPhrase phrase cs) : first := by
  rcases h with ⟨hfirst, -⟩ | ⟨-, hrefused⟩
  · exact hfirst
  · cases hrefused.symm.trans (scan?_phrase hphrase)

theorem ClosesIf.append {front back : List Char} (hfront : ClosesIf first front)
    (hback : ClosesIf second back) : ClosesIf (first ∧ second) (front ++ back) := by
  unfold ClosesIf
  rw [scan?_append]
  rcases hfront with ⟨hfirst, hscan⟩ | ⟨hfirst, hscan⟩
  · rw [hscan, Option.bind_some]
    exact hback.imp (fun h => ⟨⟨hfirst, h.1⟩, h.2⟩) fun h => ⟨fun hboth => h.1 hboth.2, h.2⟩
  · rw [hscan, Option.bind_none]
    exact Or.inr ⟨fun hboth => hfirst hboth.1, rfl⟩

theorem ClosesIf.token {c : Char} (hc : IsToken c) {cs : List Char} (h : ClosesIf first cs) :
    ClosesIf first (c :: cs) := by
  unfold ClosesIf
  rwa [scan?_token hc]

theorem ClosesIf.name {name : String} (hname : IsPlainText name) {cs : List Char}
    (h : ClosesIf first cs) : ClosesIf first ('"' :: (name.toList ++ '"' :: cs)) := by
  have hscan : scan? .outside ('"' :: (name.toList ++ '"' :: cs)) = scan? .outside cs := by
    change scan? .inside _ = _
    rw [scan?_append, scan?_content (isContent_of_isPlain hname)]
    rfl
  unfold ClosesIf
  rwa [hscan]

/-- A reader goes through a field and the fields after it if it goes through their data. -/
theorem ClosesIf.fieldsText_cons {name text : String} {fields : List (String × String)}
    (hname : IsPlainText name) (htext : ClosesIf first text.toList)
    (hfields : ClosesIf second (fieldsText fields).toList) :
    ClosesIf (first ∧ second) (fieldsText ((name, text) :: fields)).toList := by
  cases fields with
  | nil =>
      rw [toList_fieldsText_singleton hname, ← List.append_nil text.toList]
      exact .name hname (.token (by decide) (htext.append hfields))
  | cons next fields =>
      rw [toList_fieldsText_cons hname]
      exact .name hname (.token (by decide) (htext.append (.token (by decide) hfields)))

/-- A reader goes through an object if it goes through its fields. -/
theorem ClosesIf.objectText {fields : List (String × String)}
    (h : ClosesIf first (fieldsText fields).toList) :
    ClosesIf first (objectText fields).toList := by
  have hbrace : ClosesIf True ['\x7d'] := Or.inl ⟨trivial, rfl⟩
  rw [toList_objectText]
  simpa only [and_true] using (h.append hbrace).token (by decide : IsToken '\x7b')

theorem closesIf_fieldsText {fields : List (String × String)} {claims : List (String × Prop)}
    (h : FieldsRelated (fun s claim => ClosesIf claim s.toList) fields claims) :
    ClosesIf (∀ field ∈ claims, field.2) (fieldsText fields).toList := by
  induction h with
  | nil => exact closesIf_nil.congr (iff_of_true trivial (List.forall_mem_nil _))
  | @cons field claim fields claims hfield _ ih =>
      obtain ⟨name, text⟩ := field
      obtain ⟨-, hname, htext⟩ := hfield
      rw [List.forall_mem_cons]
      exact .fieldsText_cons hname htext ih

namespace Making

/-- How claims about data are made: a claim about an object is a claim about all its data. -/
def claims : Making Prop := ⟨fun _ => True, fun _ => True, fun fields => ∀ field ∈ fields, field.2⟩

/-- A reader goes through a text that is made from others if it goes through these. -/
theorem respects_closesIf : texts.Respects claims fun s claim => ClosesIf claim s.toList where
  text h := closesIf_phrase (isPhrase_textLiteral h)
  integer n := closesIf_phrase (.numeral (isNumeral_toString n))
  object h _ _ := (closesIf_fieldsText h).objectText

end Making

end CandleHistory.Json
