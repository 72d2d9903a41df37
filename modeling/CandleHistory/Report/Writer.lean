import CandleHistory.Fault

/-!
Writing line by line. A writer hands one piece of text after another to its output, and it stops at
the first item that has no line. What it has handed over by then stays written.
-/

namespace CandleHistory.Report

/-- Hands over a line for each item. -/
def writeLines {m : Type → Type} [Monad m] {α : Type} (print : String → m Unit)
    (line : α → ExceptT Fault m String) (items : List α) : ExceptT Fault m Unit :=
  items.forM fun item => do
    let text ← line item
    print (text ++ "\n")

end CandleHistory.Report
