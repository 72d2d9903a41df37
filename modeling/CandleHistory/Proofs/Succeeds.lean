import Mathlib.Data.List.Forall2

/-!
Computations that may fail: when one that consists of steps gives a value, and what it may fail
with. One that also works on a state goes on from the state that its first step leaves, or ends
there.
-/

namespace CandleHistory

/-- A computation that gives a value gives one at each of its steps. -/
theorem exists_of_bind_eq_ok {ε α β : Type} {first : Except ε α} {next : α → Except ε β}
    {result : β} (h : first >>= next = .ok result) :
    ∃ value, first = .ok value ∧ next value = .ok result := by
  cases first with
  | error reason => cases h
  | ok value => exact ⟨value, rfl, h⟩

theorem exists_of_mapError_eq_ok {ε δ α : Type} {first : Except ε α} {change : ε → δ}
    {result : α} (h : first.mapError change = .ok result) : first = .ok result := by
  cases first with
  | error reason => cases h
  | ok value =>
      cases h
      rfl

theorem exists_of_map_eq_ok {ε α β : Type} {first : Except ε α} {f : α → β} {result : β}
    (h : first.map f = .ok result) : ∃ value, first = .ok value ∧ f value = result := by
  cases first with
  | error reason => cases h
  | ok value => exact ⟨value, rfl, Except.ok.inj h⟩

section Stateful

variable {ε ρ α β : Type} {act : ExceptT ε (StateM ρ) α} {next : α → ExceptT ε (StateM ρ) β}
  {state after : ρ}

theorem run_bind_of_ok {value : α} (h : act.run state = (.ok value, after)) :
    (act >>= next).run state = (next value).run after := by
  change (ExceptT.bindCont next (act.run state).1) (act.run state).2 = _
  rw [h]
  rfl

theorem run_bind_of_error {fault : ε} (h : act.run state = (.error fault, after)) :
    (act >>= next).run state = (.error fault, after) := by
  change (ExceptT.bindCont next (act.run state).1) (act.run state).2 = _
  rw [h]
  rfl

end Stateful

/-- Every item has a result if and only if there is a list of results, one to each item. -/
theorem exists_forall₂_iff {α β : Type} {related : α → β → Prop} {items : List α} :
    (∃ results, List.Forall₂ related items results) ↔
      ∀ item ∈ items, ∃ result, related item result := by
  induction items with
  | nil => exact iff_of_true ⟨[], .nil⟩ (List.forall_mem_nil _)
  | cons item items ih =>
      rw [List.forall_mem_cons, ← ih]
      constructor
      · rintro ⟨results, hresults⟩
        cases hresults with
        | cons hitem hrest => exact ⟨⟨_, hitem⟩, _, hrest⟩
      · rintro ⟨⟨result, hitem⟩, results, hresults⟩
        exact ⟨result :: results, .cons hitem hresults⟩

/-- What holds of a result if it belongs to an item holds of all results. -/
theorem forall_mem_of_forall₂ {α β : Type} {related : α → β → Prop} {claim : β → Prop}
    {items : List α} {results : List β} (h : List.Forall₂ related items results)
    (hclaim : ∀ item result, related item result → claim result) :
    ∀ result ∈ results, claim result := by
  induction h with
  | nil => exact List.forall_mem_nil _
  | cons hitem _ ih => exact List.forall_mem_cons.mpr ⟨hclaim _ _ hitem, ih⟩

/-- What is asked of every item is had of all of them. -/
theorem mapM_eq_some {α β : Type} {f : α → Option β} {items : List α} {results : List β}
    (h : List.Forall₂ (fun item result => f item = some result) items results) :
    items.mapM f = some results := by
  induction h with
  | nil => rfl
  | cons hitem _ ih =>
      rw [List.mapM_cons, hitem, ih]
      rfl

/-- Whether a computation gives a value. -/
def Succeeds {ε α : Type} (computation : Except ε α) : Prop := ∃ value, computation = .ok value

namespace Succeeds

variable {ε δ α β : Type} {first : Except ε α}

theorem ok (value : α) : Succeeds (.ok value : Except ε α) := ⟨value, rfl⟩

theorem not_of_error {reason : ε} (h : first = .error reason) : ¬ Succeeds first := by
  rintro ⟨value, hvalue⟩
  rw [h] at hvalue
  cases hvalue

theorem bind_iff {next : α → Except ε β} {claim : Prop}
    (h : ∀ value, Succeeds (next value) ↔ claim) :
    Succeeds (first >>= next) ↔ Succeeds first ∧ claim := by
  constructor
  · rintro ⟨result, hresult⟩
    obtain ⟨value, hvalue, hnext⟩ := exists_of_bind_eq_ok hresult
    exact ⟨⟨value, hvalue⟩, (h value).mp ⟨result, hnext⟩⟩
  · rintro ⟨⟨value, rfl⟩, hclaim⟩
    exact (h value).mpr hclaim

theorem bind_iff_first {next : α → Except ε β} (h : ∀ value, Succeeds (next value)) :
    Succeeds (first >>= next) ↔ Succeeds first := by
  rw [bind_iff fun value => iff_true_intro (h value), and_true]

theorem mapError_iff {change : ε → δ} : Succeeds (first.mapError change) ↔ Succeeds first := by
  cases first with
  | error reason => exact ⟨nofun, nofun⟩
  | ok value => exact ⟨fun _ => ok value, fun _ => ok value⟩

theorem map_iff {f : α → β} : Succeeds (first.map f) ↔ Succeeds first := by
  cases first with
  | error reason => exact ⟨nofun, nofun⟩
  | ok value => exact ⟨fun _ => ok value, fun _ => ok (f value)⟩

theorem mapM_iff {f : α → Except ε β} (items : List α) :
    Succeeds (items.mapM f) ↔ ∀ item ∈ items, Succeeds (f item) := by
  induction items with
  | nil => exact ⟨fun _ => List.forall_mem_nil _, fun _ => ok []⟩
  | cons item items ih =>
      rw [List.mapM_cons, List.forall_mem_cons, ← ih]
      exact bind_iff fun value => bind_iff_first fun rest => ok (value :: rest)

end Succeeds

/-- Whatever a computation fails with, it has a property. -/
def FailsWith {ε α : Type} (property : ε → Prop) (computation : Except ε α) : Prop :=
  ∀ reason, computation = .error reason → property reason

namespace FailsWith

variable {ε δ α β : Type} {property : ε → Prop}

theorem ok (value : α) : FailsWith property (.ok value : Except ε α) := nofun

theorem error {reason : ε} (h : property reason) :
    FailsWith property (.error reason : Except ε α) := by
  rintro _ ⟨⟩
  exact h

theorem bind {first : Except ε α} {next : α → Except ε β} (hfirst : FailsWith property first)
    (hnext : ∀ value, FailsWith property (next value)) : FailsWith property (first >>= next) := by
  cases first with
  | error reason => exact error (hfirst reason rfl)
  | ok value => exact hnext value

theorem mapError {first : Except δ α} {change : δ → ε} (h : ∀ reason, property (change reason)) :
    FailsWith property (first.mapError change) := by
  cases first with
  | error reason => exact error (h reason)
  | ok value => exact ok value

theorem mapM {f : α → Except ε β} {items : List α}
    (h : ∀ item ∈ items, FailsWith property (f item)) : FailsWith property (items.mapM f) := by
  induction items with
  | nil => exact ok []
  | cons item items ih =>
      obtain ⟨hitem, hitems⟩ := List.forall_mem_cons.mp h
      rw [List.mapM_cons]
      exact hitem.bind fun value => (ih hitems).bind fun rest => ok (value :: rest)

end FailsWith

end CandleHistory
