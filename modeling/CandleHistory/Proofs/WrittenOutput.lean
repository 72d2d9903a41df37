import CandleHistory.Calendar.Instant
import CandleHistory.Proofs.Succeeds
import CandleHistory.Report.Writer

/-!
Output that is written down. Beside the state of what prints and of the clock on the wall, one keeps
the text that is printed and the times that the clock shows. A writer has then put out a line for
every item, one below the other, or the lines of the items before the first one that has none; and
the times are those that were read for these lines.
-/

namespace CandleHistory.Report

open Calendar (UtcTime)

/-- What is put out: a text, and the times that the clock showed meanwhile. -/
structure Output where
  text : String := ""
  received : List UtcTime := []

namespace Output

/-- One output after the other. -/
def append (first second : Output) : Output :=
  ⟨first.text ++ second.text, first.received ++ second.received⟩

instance : Append Output := ⟨append⟩

@[simp] theorem append_text (first second : Output) :
    (first ++ second).text = first.text ++ second.text := rfl

@[simp] theorem append_received (first second : Output) :
    (first ++ second).received = first.received ++ second.received := rfl

@[ext] theorem ext {first second : Output} (htext : first.text = second.text)
    (hreceived : first.received = second.received) : first = second := by
  cases first
  cases second
  cases htext
  cases hreceived
  rfl

@[simp] theorem append_nothing (output : Output) : output ++ { } = output := by
  ext1 <;> simp

@[simp] theorem nothing_append (output : Output) : { } ++ output = output := by
  ext1 <;> simp

theorem append_assoc (first second third : Output) :
    first ++ second ++ third = first ++ (second ++ third) := by
  ext1 <;> simp [String.append_assoc]

end Output

variable {σ α β : Type}

/-- Does something, and writes down what it puts out. -/
def writingDown (act : StateM σ α) (told : α → Output) : StateM (σ × Output) α :=
  fun state => ((act state.1).1, (act state.1).2, state.2 ++ told (act state.1).1)

/-- Prints a text, and writes it down. -/
def noting (print : String → StateM σ Unit) (text : String) : StateM (σ × Output) Unit :=
  writingDown (print text) fun _ => { text }

/-- Reads a clock, and writes down the time that it shows. -/
def notingTime (clock : StateM σ UtcTime) : StateM (σ × Output) UtcTime :=
  writingDown clock fun time => { received := [time] }

/-- Whatever a computation starts from, its result and what it puts out are related. -/
def Puts (act : ExceptT Fault (StateM (σ × Output)) α)
    (related : Except Fault α → Output → Prop) : Prop :=
  ∀ state before, ∃ result after output,
    act.run (state, before) = (result, after, before ++ output) ∧ related result output

namespace Puts

variable {act : ExceptT Fault (StateM (σ × Output)) α}
  {next : α → ExceptT Fault (StateM (σ × Output)) β}
  {related : Except Fault α → Output → Prop} {final : Except Fault β → Output → Prop}

/-- The second of two computations goes on after a value of the first one, and only then. -/
theorem bind (hfirst : Puts act related)
    (herror : ∀ fault output, related (.error fault) output → final (.error fault) output)
    (hok : ∀ value output, related (.ok value) output →
      Puts (next value) fun result rest => final result (output ++ rest)) :
    Puts (act >>= next) final := by
  intro state before
  obtain ⟨result, middle, output, hrun, hrelated⟩ := hfirst state before
  cases result with
  | error fault =>
      exact ⟨.error fault, middle, output, run_bind_of_error hrun, herror fault output hrelated⟩
  | ok value =>
      obtain ⟨result, after, rest, hnext, hfinal⟩ :=
        hok value output hrelated middle (before ++ output)
      refine ⟨result, after, output ++ rest, ?_, hfinal⟩
      rw [run_bind_of_ok hrun, hnext, Output.append_assoc]

theorem mono (h : Puts act related) {weaker : Except Fault α → Output → Prop}
    (hweaker : ∀ result output, related result output → weaker result output) :
    Puts act weaker := by
  intro state before
  obtain ⟨result, after, output, hrun, hrelated⟩ := h state before
  exact ⟨result, after, output, hrun, hweaker result output hrelated⟩

/-- What works on no state puts nothing out. -/
theorem lift (computation : Except Fault α) {related : Except Fault α → Output → Prop}
    (h : related computation { }) :
    Puts (σ := σ) (liftM computation) related := by
  intro state before
  refine ⟨computation, state, { }, ?_, h⟩
  rw [Output.append_nothing]
  rfl

/-- A text is printed first. -/
theorem print_bind (print : String → StateM σ Unit) (text : String)
    {next : Unit → ExceptT Fault (StateM (σ × Output)) β}
    (h : Puts (next ()) fun result rest => final result ({ text } ++ rest)) :
    Puts (liftM (noting print text) >>= next) final := by
  intro state before
  obtain ⟨result, after, rest, hnext, hfinal⟩ := h (print text state).2 (before ++ { text })
  refine ⟨result, after, { text } ++ rest, ?_, hfinal⟩
  rw [← Output.append_assoc, ← hnext]
  rfl

theorem print (print : String → StateM σ Unit) (text : String)
    {related : Except Fault Unit → Output → Prop} (h : related (.ok ()) { text }) :
    Puts (σ := σ) (liftM (noting print text)) related :=
  fun state _ => ⟨.ok (), (print text state).2, { text }, rfl, h⟩

end Puts

/-- What a writer puts out for its items, given how the line of an item may come out, and which
times may be read for it: lines, until all items have one or the line of an item fails. -/
inductive Wrote (line : α → List UtcTime → Except Fault String → Prop) :
    List α → Except Fault Unit → Output → Prop
  | done : Wrote line [] (.ok ()) { }
  | line {item : α} {items : List α} {received : List UtcTime} {text : String}
      {result : Except Fault Unit} {rest : Output} (hline : line item received (.ok text))
      (hrest : Wrote line items result rest) :
      Wrote line (item :: items) result (⟨text ++ "\n", received⟩ ++ rest)
  | failed {item : α} {items : List α} {received : List UtcTime} {fault : Fault}
      (hline : line item received (.error fault)) :
      Wrote line (item :: items) (.error fault) { received }

/-- A writer puts out what it should if its lines come out as they may, and nothing is printed while
they are made. -/
theorem writeLines_puts (print : String → StateM σ Unit)
    {makeLine : α → ExceptT Fault (StateM (σ × Output)) String}
    {line : α → List UtcTime → Except Fault String → Prop}
    (hline : ∀ item, Puts (makeLine item) fun result output =>
      output.text = "" ∧ line item output.received result) (items : List α) :
    Puts (writeLines (noting print) makeLine items) (Wrote line items) := by
  unfold writeLines
  induction items with
  | nil => exact Puts.lift (.ok ()) .done
  | cons item items ih =>
      have hitem : Puts (do
          let text ← makeLine item
          liftM (noting print (text ++ "\n"))) fun result output =>
          match result with
          | .ok () => ∃ text, output.text = text ++ "\n" ∧ line item output.received (.ok text)
          | .error fault => output.text = "" ∧ line item output.received (.error fault) := by
        refine (hline item).bind (fun fault output h => h) fun text output h => ?_
        refine Puts.print print _ ⟨text, ?_, ?_⟩
        · rw [Output.append_text, h.1, String.empty_append]
        · rw [Output.append_received, List.append_nil]
          exact h.2
      refine hitem.bind ?_ ?_
      · rintro fault ⟨text, received⟩ ⟨rfl, hfault⟩
        exact .failed hfault
      · rintro - ⟨printed, received⟩ ⟨text, rfl, htext⟩
        exact ih.mono fun result rest hrest => .line htext hrest

end CandleHistory.Report
