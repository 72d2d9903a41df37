import CandleHistory.Proofs.Rendering

/-!
Lines and words. A text can be taken apart at its line breaks, and a line at its blanks. Lines that
are written one below the other are found again if none of them holds a line break, and so are words
that are written side by side, however many blanks stand between them.
-/

namespace CandleHistory

namespace Text

/-- The lines of a text. What follows the last line break is one of them, too. -/
def lines (cs : List Char) : List (List Char) := cs.splitOn '\n'

/-- The words of a line: what stands between its blanks. -/
def words (cs : List Char) : List (List Char) := (cs.splitOn ' ').filter (! ·.isEmpty)

theorem splitOn_append (mark : Char) (front back : List Char) :
    (front ++ mark :: back).splitOn mark = front.splitOn mark ++ back.splitOn mark :=
  List.splitOnP_append_cons front back (p := (· == mark)) (beq_self_eq_true mark)

theorem splitOn_eq_singleton {mark : Char} {cs : List Char} (h : mark ∉ cs) :
    cs.splitOn mark = [cs] := by
  apply List.splitOnP_eq_singleton
  rintro c hc
  rw [beq_eq_false_iff_ne]
  rintro rfl
  exact h hc

theorem lines_nil : lines [] = [[]] := splitOn_eq_singleton List.not_mem_nil

theorem lines_append_break {line : List Char} (h : '\n' ∉ line) (rest : List Char) :
    lines (line ++ '\n' :: rest) = line :: lines rest := by
  rw [lines, splitOn_append, splitOn_eq_singleton h]
  rfl

/-- Lines below each other are the lines of their text, and nothing follows the last line break. -/
theorem lines_column {texts : List String} (h : ∀ s ∈ texts, '\n' ∉ s.toList) :
    lines (Report.column texts).toList = texts.map String.toList ++ [[]] := by
  induction texts with
  | nil => rw [Report.column_nil, String.toList_empty, lines_nil, List.map_nil, List.nil_append]
  | cons s texts ih =>
      obtain ⟨hs, hrest⟩ := List.forall_mem_cons.mp h
      have hbreak : "\n".toList = ['\n'] := rfl
      rw [Report.column_cons, String.toList_append, String.toList_append, hbreak, List.append_assoc,
        List.singleton_append, lines_append_break hs, ih hrest, List.map_cons, List.cons_append]

theorem words_nil : words [] = [] := by
  rw [words, splitOn_eq_singleton List.not_mem_nil]
  rfl

/-- Words are on either side of a blank. -/
theorem words_append_blank (front back : List Char) :
    words (front ++ ' ' :: back) = words front ++ words back := by
  rw [words, splitOn_append, List.filter_append]
  rfl

theorem words_append_blanks (front : List Char) (count : Nat) :
    words (front ++ List.replicate count ' ') = words front := by
  induction count generalizing front with
  | zero => rw [List.replicate_zero, List.append_nil]
  | succ count ih =>
      have hblanks := ih []
      rw [List.nil_append] at hblanks
      rw [List.replicate_succ, words_append_blank, hblanks, words_nil, List.append_nil]

/-- Words side by side, with a blank between neighbours, have their words one after the other. -/
theorem words_intercalate (parts : List (List Char)) :
    words ([' '].intercalate parts) = parts.flatMap words := by
  induction parts with
  | nil => exact words_nil
  | cons part parts ih =>
      cases parts with
      | nil => rw [List.intercalate_singleton, List.flatMap_cons, List.flatMap_nil, List.append_nil]
      | cons next parts =>
          rw [List.intercalate_cons_cons, List.append_assoc, List.singleton_append,
            words_append_blank, ih, List.flatMap_cons (x := part)]

/-- Whether a text is a word by itself. -/
def IsWord (cs : List Char) : Prop := cs ≠ [] ∧ ' ' ∉ cs

theorem IsWord.words_eq {cs : List Char} (h : IsWord cs) : words cs = [cs] := by
  rw [words, splitOn_eq_singleton h.2]
  simp [h.1]

/-- What stands in a line stands in one of its parts, or is a blank between them. -/
theorem mem_intercalate {c : Char} {parts : List (List Char)} (h : c ∈ [' '].intercalate parts) :
    c = ' ' ∨ ∃ part ∈ parts, c ∈ part := by
  induction parts with
  | nil => cases h
  | cons part parts ih =>
      cases parts with
      | nil =>
          rw [List.intercalate_singleton] at h
          exact Or.inr ⟨part, List.mem_cons_self, h⟩
      | cons next parts =>
          rw [List.intercalate_cons_cons, List.append_assoc, List.mem_append,
            List.singleton_append, List.mem_cons] at h
          rcases h with hhere | hblank | hrest
          · exact Or.inr ⟨part, List.mem_cons_self, hhere⟩
          · exact Or.inl hblank
          · rcases ih hrest with hblank | ⟨other, hmem, hother⟩
            · exact Or.inl hblank
            · exact Or.inr ⟨other, List.mem_cons_of_mem part hmem, hother⟩

/-- What stands in no word of a line does not stand in the line, unless it is a blank. -/
theorem not_mem_of_words {c : Char} {cs : List Char} (hblank : c ≠ ' ')
    (h : ∀ word ∈ words cs, c ∉ word) : c ∉ cs := by
  intro hc
  have hparts : [' '].intercalate (cs.splitOn ' ') = cs := List.intercalate_splitOn ' '
  rw [← hparts] at hc
  rcases mem_intercalate hc with heq | ⟨part, hpart, hmem⟩
  · exact hblank heq
  · refine h part (List.mem_filter.mpr ⟨hpart, ?_⟩) hmem
    rw [List.isEmpty_eq_false_iff.mpr (List.ne_nil_of_mem hmem)]
    rfl

end Text

end CandleHistory
