import CandleHistory.Paging.Request
import Mathlib.Data.List.DropRight

/-!
Symbols in their normal form. What letters become in upper case is left as it is by upper case and
is not blank, so a symbol in its normal form is its own normal form. This is read off the table of
letters run by run: the letters that a run becomes are compared with all runs, but not one by one.
-/

namespace CandleHistory

namespace Text

/-- A character that is its own upper case. -/
def IsUpper (c : Char) : Prop := upperChar c = [c]

instance : DecidablePred IsUpper := fun c => inferInstanceAs (Decidable (upperChar c = [c]))

namespace CaseRun

variable {run other : CaseRun} {code : Nat}

/-- The code point that the first letter of a run becomes. -/
def low (run : CaseRun) : Nat := (run.first + run.shift).toNat

/-- The code point that the last letter of a run becomes. -/
def high (run : CaseRun) : Nat := (run.last + run.shift).toNat

/-- Whether the bounds of what a run becomes meet a range of code points. -/
def meets (run : CaseRun) (first last : Nat) : Bool := first.ble run.high && run.low.ble last

/-- Whether what a run becomes takes turns with another run whose bounds it meets, or is a single
letter that the other run does not hold. -/
def evades (run other : CaseRun) : Bool :=
  (run.step.beq 2 && other.step.beq 2 && ((run.low + other.first) % 2).beq 1) ||
    (run.low.beq run.high && !other.holds run.low)

/-- Whether what a run becomes consists of characters that are their own upper case and not blank.
-/
def isClean (run : CaseRun) : Bool :=
  decide (0 ≤ run.first + run.shift) &&
    (run.high.blt 0xD800 || Nat.blt 0xDFFF run.low && run.high.blt 0x110000) &&
    !(blankRanges.any fun range => run.meets range.1 range.2) &&
    !(caseExpansions.any fun expansion => run.meets expansion.1 expansion.1) &&
    (caseRuns.filter fun other => run.meets other.first other.last).all run.evades

theorem holds_iff : run.holds code = true ↔
    run.first ≤ code ∧ code ≤ run.last ∧ (code - run.first) % run.step = 0 := by
  simp [holds, and_assoc]

theorem meets_iff {first last : Nat} :
    run.meets first last = true ↔ first ≤ run.high ∧ run.low ≤ last := by
  simp [meets]

theorem bounds_of_holds (hstart : 0 ≤ run.first + run.shift) (h : run.holds code = true) :
    run.low ≤ (code + run.shift).toNat ∧ (code + run.shift).toNat ≤ run.high ∧
      ((code + run.shift).toNat - run.low) % run.step = 0 := by
  obtain ⟨hfirst, hlast, hstep⟩ := holds_iff.mp h
  have hoffset : (code + run.shift).toNat - run.low = code - run.first := by
    unfold low
    omega
  refine ⟨?_, ?_, hoffset ▸ hstep⟩
  · unfold low
    omega
  · unfold high
    omega

theorem not_holds_of_evades (hevades : run.evades other = true) (hlow : run.low ≤ code)
    (hhigh : code ≤ run.high) (hstep : (code - run.low) % run.step = 0) :
    other.holds code = false := by
  apply Bool.eq_false_iff.mpr
  intro hholds
  obtain ⟨hfirst, -, hother⟩ := holds_iff.mp hholds
  rcases Bool.or_eq_true_iff.mp hevades with hturns | hsingle
  · simp only [Bool.and_eq_true, Nat.beq_eq] at hturns
    obtain ⟨⟨htwo, htwo'⟩, hodd⟩ := hturns
    rw [htwo] at hstep
    rw [htwo'] at hother
    omega
  · simp only [Bool.and_eq_true, Nat.beq_eq, Bool.not_eq_true'] at hsingle
    obtain ⟨heq, hnot⟩ := hsingle
    have hcode : code = run.low := by omega
    rw [hcode, hnot] at hholds
    cases hholds

end CaseRun

theorem caseRuns_clean : caseRuns.all CaseRun.isClean = true := by decide +kernel

theorem caseExpansions_clean :
    (caseExpansions.all fun expansion => !expansion.2.isEmpty && expansion.2.all fun code =>
      decide (IsUpper (Char.ofNat code)) && !isBlank (Char.ofNat code)) = true := by
  decide +kernel

theorem toNat_ofNat_of_isValidChar {code : Nat} (h : code.isValidChar) :
    (Char.ofNat code).toNat = code := by
  rw [Char.ofNat, dif_pos h]
  rfl

theorem isUpper_of_unlisted {c : Char}
    (hexpansions : ∀ expansion ∈ caseExpansions, expansion.1 ≠ c.toNat)
    (hruns : ∀ run ∈ caseRuns, run.holds c.toNat = false) : IsUpper c := by
  unfold IsUpper upperChar
  have hnone : caseExpansions.find? (·.1 == c.toNat) = none := by
    apply List.find?_eq_none.mpr
    intro expansion hmem
    simpa using hexpansions expansion hmem
  have hnone' : caseRuns.find? (·.holds c.toNat) = none := by
    apply List.find?_eq_none.mpr
    intro run hmem
    simp [hruns run hmem]
  rw [hnone, hnone']

/-- What a run becomes is in upper case and not blank. -/
theorem CaseRun.clean_of_holds {run : CaseRun} (hrun : run ∈ caseRuns) {code : Nat}
    (h : run.holds code = true) :
    IsUpper (Char.ofNat (code + run.shift).toNat) ∧
      isBlank (Char.ofNat (code + run.shift).toNat) = false := by
  have hclean : run.isClean = true := List.all_eq_true.mp caseRuns_clean run hrun
  unfold isClean at hclean
  simp only [Bool.and_eq_true, decide_eq_true_eq, Bool.not_eq_true'] at hclean
  obtain ⟨⟨⟨⟨hstart, hvalid⟩, hblank⟩, hexpansion⟩, hruns⟩ := hclean
  obtain ⟨hlow, hhigh, hstep⟩ := bounds_of_holds hstart h
  generalize (code + run.shift).toNat = image at hlow hhigh hstep ⊢
  have himage : (Char.ofNat image).toNat = image := by
    apply toNat_ofNat_of_isValidChar
    simp only [Bool.or_eq_true, Bool.and_eq_true, Nat.blt_eq] at hvalid
    unfold Nat.isValidChar
    omega
  constructor
  · -- the image is out of reach of the expansions, and each run that it might meet misses it
    apply isUpper_of_unlisted
    · rintro expansion hmem heq
      have hmeets := List.any_eq_false.mp hexpansion expansion hmem
      rw [meets_iff] at hmeets
      omega
    · intro other hmem
      rw [himage]
      cases hmeets : run.meets other.first other.last with
      | true =>
          have hevades := List.all_eq_true.mp hruns other (List.mem_filter.mpr ⟨hmem, hmeets⟩)
          exact not_holds_of_evades hevades hlow hhigh hstep
      | false =>
          apply Bool.eq_false_iff.mpr
          intro hholds
          obtain ⟨hfirst, hlast, -⟩ := holds_iff.mp hholds
          have hnot := Bool.eq_false_iff.mp hmeets
          rw [ne_eq, meets_iff] at hnot
          omega
  · apply Bool.eq_false_iff.mpr
    intro hisBlank
    obtain ⟨range, hmem, hinside⟩ := List.any_eq_true.mp hisBlank
    have hmeets := List.any_eq_false.mp hblank range hmem
    rw [meets_iff] at hmeets
    simp only [Bool.and_eq_true, decide_eq_true_eq, himage] at hinside
    omega

/-- A character is its own upper case, or it becomes some characters that are, and none of them is
blank. -/
theorem upperChar_cases (c : Char) :
    IsUpper c ∨ upperChar c ≠ [] ∧ ∀ d ∈ upperChar c, IsUpper d ∧ isBlank d = false := by
  cases hexpansion : caseExpansions.find? (·.1 == c.toNat) with
  | some expansion =>
      have hclean := List.all_eq_true.mp caseExpansions_clean expansion
        (List.mem_of_find?_eq_some hexpansion)
      simp only [Bool.and_eq_true, Bool.not_eq_true', List.all_eq_true, decide_eq_true_eq,
        List.isEmpty_eq_false_iff] at hclean
      have hupper : upperChar c = expansion.2.map Char.ofNat := by
        unfold upperChar
        rw [hexpansion]
      refine .inr ⟨?_, ?_⟩
      · rw [hupper, ne_eq, List.map_eq_nil_iff]
        exact hclean.1
      · intro d hd
        rw [hupper] at hd
        obtain ⟨code, hcode, rfl⟩ := List.mem_map.mp hd
        exact hclean.2 code hcode
  | none =>
      cases hrun : caseRuns.find? (·.holds c.toNat) with
      | some run =>
          have hupper : upperChar c = [Char.ofNat ((c.toNat : Int) + run.shift).toNat] := by
            unfold upperChar
            rw [hexpansion, hrun]
          have hholds := List.find?_some hrun
          have hclean := CaseRun.clean_of_holds (List.mem_of_find?_eq_some hrun) hholds
          refine .inr ⟨?_, ?_⟩
          · rw [hupper]
            exact List.cons_ne_nil _ _
          · intro d hd
            rw [hupper] at hd
            rw [List.mem_singleton.mp hd]
            exact hclean
      | none =>
          refine .inl ?_
          unfold IsUpper upperChar
          rw [hexpansion, hrun]

theorem upperChar_ne_nil (c : Char) : upperChar c ≠ [] := by
  rcases upperChar_cases c with hsame | ⟨hne, -⟩
  · rw [hsame]
    exact List.cons_ne_nil _ _
  · exact hne

theorem isBlank_of_mem_upperChar {c d : Char} (hc : isBlank c = false) (hd : d ∈ upperChar c) :
    isBlank d = false := by
  rcases upperChar_cases c with hsame | ⟨-, hclean⟩
  · rw [hsame] at hd
    rw [List.mem_singleton.mp hd]
    exact hc
  · exact (hclean d hd).2

theorem flatMap_upperChar_upperChar (c : Char) :
    (upperChar c).flatMap upperChar = upperChar c := by
  rcases upperChar_cases c with hsame | ⟨-, hclean⟩
  · rw [hsame, List.flatMap_singleton]
    exact hsame
  · calc (upperChar c).flatMap upperChar = (upperChar c).flatMap fun d => [d] :=
          List.flatMap_congr fun d hd => (hclean d hd).1
      _ = upperChar c := List.flatMap_singleton' _

theorem upper_upper (s : String) : upper (upper s) = upper s := by
  unfold upper
  rw [String.toList_ofList, List.flatMap_assoc]
  congr 1
  exact List.flatMap_congr fun c _ => flatMap_upperChar_upperChar c

/-- Characters with no blank at either end. -/
def Trimmed (cs : List Char) : Prop :=
  ∀ hne : cs ≠ [], isBlank (cs.head hne) = false ∧ isBlank (cs.getLast hne) = false

theorem trimWith_eq_rdropWhile (cs : List Char) :
    trimWith isBlank cs = (cs.dropWhile isBlank).rdropWhile isBlank := rfl

theorem trimmed_trimWith (cs : List Char) : Trimmed (trimWith isBlank cs) := by
  rw [trimWith_eq_rdropWhile]
  intro hne
  have hbegins := List.rdropWhile_prefix isBlank (cs.dropWhile isBlank)
  constructor
  · rw [hbegins.head hne]
    exact List.head_dropWhile_not isBlank _
  · exact Bool.eq_false_iff.mpr (List.rdropWhile_last_not isBlank _ hne)

theorem Trimmed.trimWith_eq {cs : List Char} (h : Trimmed cs) : trimWith isBlank cs = cs := by
  rw [trimWith_eq_rdropWhile]
  cases cs with
  | nil => rfl
  | cons c rest =>
      obtain ⟨hhead, hlast⟩ := h (List.cons_ne_nil c rest)
      have hfirst : ¬ isBlank c = true := Bool.eq_false_iff.mp hhead
      rw [List.dropWhile_cons_of_neg hfirst, List.rdropWhile_eq_self_iff]
      exact fun _ => Bool.eq_false_iff.mp hlast

/-- Upper case brings no blanks to the ends of a text. -/
theorem Trimmed.flatMap_upperChar {cs : List Char} (h : Trimmed cs) :
    Trimmed (cs.flatMap upperChar) := by
  intro hne
  constructor
  · cases cs with
    | nil => exact absurd rfl hne
    | cons c rest =>
        have hhead := (h (List.cons_ne_nil c rest)).1
        have hfirst : ((c :: rest).flatMap upperChar).head hne =
            (upperChar c).head (upperChar_ne_nil c) := List.head_append_of_ne_nil _
        rw [hfirst]
        exact isBlank_of_mem_upperChar hhead (List.head_mem _)
  · rcases List.eq_nil_or_concat' cs with rfl | ⟨init, c, rfl⟩
    · exact absurd rfl hne
    · have hlast := (h (List.concat_ne_nil c init)).2
      simp only [List.flatMap_append, List.flatMap_singleton] at hne ⊢
      rw [List.getLast_append_of_ne_nil hne (upperChar_ne_nil c)]
      refine isBlank_of_mem_upperChar ?_ (List.getLast_mem _)
      simpa using hlast

end Text

/-- A symbol in its normal form is its own normal form. -/
theorem Request.normalSymbol_normalSymbol (symbol : String) :
    normalSymbol (normalSymbol symbol) = normalSymbol symbol := by
  have htrim : Text.trim (Text.upper (Text.trim symbol)) = Text.upper (Text.trim symbol) := by
    have htrimmed := (Text.trimmed_trimWith symbol.toList).flatMap_upperChar
    unfold Text.upper Text.trim
    rw [String.toList_ofList, String.toList_ofList, htrimmed.trimWith_eq]
  unfold normalSymbol
  rw [htrim, Text.upper_upper]

end CandleHistory
