import CandleHistory.Proofs.Merging
import Mathlib.Data.List.Sort

/-!
What a series holds in the course of a run. Of each page it keeps the records that come after all
that earlier pages had, one for each time, and of several records with one time the first one of the
page. This rule says what is kept without a word on how it is found. Pages are read and stay as they
are.
-/

namespace CandleHistory

variable {α : Type} [Timed α]

/-- The first record of a page with a given time. -/
def firstAt (page : List α) (time : Int) : Option α := page.find? fun x => openTime x == time

section Sorting

/-- A record is put after those that have the same time. -/
theorem filter_insertInOrder (x : α) {sorted : List α}
    (h : sorted.Pairwise fun a b => openTime a ≤ openTime b) (time : Int) :
    (insertInOrder x sorted).filter (fun y => openTime y == time) =
      sorted.filter (fun y => openTime y == time) ++ [x].filter (fun y => openTime y == time) := by
  induction sorted with
  | nil => rfl
  | cons y ys ih =>
      obtain ⟨hy, hys⟩ := List.pairwise_cons.mp h
      unfold insertInOrder
      split
      case isTrue hle =>
        rw [List.filter_cons, List.filter_cons, ih hys]
        split <;> rfl
      case isFalse hlt =>
        by_cases hx : openTime x = time
        · -- all records of the list come later
          have hnone : (y :: ys).filter (fun z => openTime z == time) = [] := by
            refine List.filter_eq_nil_iff.mpr fun z hz hzt => ?_
            have htime : openTime z = time := eq_of_beq hzt
            rcases List.mem_cons.mp hz with rfl | hmem
            · omega
            · have hyz := hy z hmem
              omega
          rw [List.filter_cons, hnone]
          simp [hx]
        · rw [List.filter_cons_of_neg (by simpa using hx)]
          simp [hx]

/-- Sorting by time keeps the order of records with the same time. -/
theorem filter_sortByTime (page : List α) (time : Int) :
    (sortByTime page).filter (fun x => openTime x == time) =
      page.filter fun x => openTime x == time := by
  have hfold (page : List α) {sorted : List α}
      (h : sorted.Pairwise fun a b => openTime a ≤ openTime b) :
      (page.foldl (fun sorted x => insertInOrder x sorted) sorted).filter
          (fun x => openTime x == time) =
        sorted.filter (fun x => openTime x == time) ++
          page.filter fun x => openTime x == time := by
    induction page generalizing sorted with
    | nil => simp
    | cons x xs ih =>
        rw [List.foldl_cons, ih (insertInOrder_sorted x h), filter_insertInOrder x h,
          List.append_assoc, ← List.filter_append]
        rfl
  exact hfold page List.Pairwise.nil

theorem firstAt_sortByTime (page : List α) (time : Int) :
    firstAt (sortByTime page) time = firstAt page time := by
  unfold firstAt
  rw [← List.head?_filter, ← List.head?_filter, filter_sortByTime]

end Sorting

section Keeping

variable {tail? : Option Int} {x : α}

theorem firstAt_cons (z : α) (zs : List α) (time : Int) :
    firstAt (z :: zs) time = if openTime z = time then some z else firstAt zs time := by
  unfold firstAt
  split
  case isTrue htime => exact List.find?_cons_of_pos (by simpa using htime)
  case isFalse htime => exact List.find?_cons_of_neg (by simpa using htime)

theorem mem_of_firstAt {page : List α} {time : Int} (h : firstAt page time = some x) :
    x ∈ page ∧ openTime x = time := by
  have htime := List.find?_some (p := fun y => openTime y == time) h
  exact ⟨List.mem_of_find?_eq_some h, eq_of_beq htime⟩

/-- Of records in order, those are kept that are the first of their time and come after the end. -/
theorem mem_keepLater_iff {records : List α}
    (hsorted : records.Pairwise fun a b => openTime a ≤ openTime b) :
    x ∈ keepLater tail? records ↔
      firstAt records (openTime x) = some x ∧ Later tail? (openTime x) := by
  induction records generalizing tail? with
  | nil => cases tail? <;> exact iff_of_false List.not_mem_nil fun h => nomatch h.1
  | cons z zs ih =>
      obtain ⟨hz, hzs⟩ := List.pairwise_cons.mp hsorted
      rw [firstAt_cons]
      have hkept (hlater : Later tail? (openTime z)) :
          x ∈ z :: keepLater (some (openTime z)) zs ↔
            (if openTime z = openTime x then some z else firstAt zs (openTime x)) = some x ∧
              Later tail? (openTime x) := by
        rw [List.mem_cons, ih hzs, later_some]
        constructor
        · rintro (rfl | ⟨hfirst, hlt⟩)
          · exact ⟨if_pos rfl, hlater⟩
          · have hlaterx : Later tail? (openTime x) := fun tail htail =>
              Int.lt_trans (hlater tail htail) hlt
            exact ⟨by rw [if_neg (by omega), hfirst], hlaterx⟩
        · rintro ⟨hfirst, hlaterx⟩
          split at hfirst
          case isTrue => exact Or.inl (Option.some.inj hfirst).symm
          case isFalse hne =>
            have hle := hz x (mem_of_firstAt hfirst).1
            exact Or.inr ⟨hfirst, by omega⟩
      cases tail? with
      | none => exact hkept (later_none _)
      | some tail =>
          unfold keepLater
          split
          case isTrue hle =>
            rw [ih hzs]
            refine and_congr_left fun hlater => ?_
            have hlt := later_some.mp hlater
            rw [if_neg (by omega)]
          case isFalse hgt => exact hkept (later_some.mpr (by omega))

/-- Of a page, those records are kept that are the first of their time and come after the end of the
series. -/
theorem mem_mergePage_iff {page : List α} :
    x ∈ mergePage tail? page ↔ firstAt page (openTime x) = some x ∧ Later tail? (openTime x) := by
  rw [mergePage, mem_keepLater_iff (sortByTime_sorted page), firstAt_sortByTime]

end Keeping

/-- What is new of a page that follows some earlier records: of each time after all of theirs the
first record of the page, in order. -/
structure Fresh (earlier page new : List α) : Prop where
  ascending : Ascending new
  mem_iff : ∀ x, x ∈ new ↔
    firstAt page (openTime x) = some x ∧ ∀ y ∈ earlier, openTime y < openTime x

/-- What is kept of pages one after another: of each page, what is new after all pages before it. -/
inductive Kept : List (List α) → List α → Prop
  | start : Kept [] []
  | page {pages : List (List α)} {kept page new : List α} (hkept : Kept pages kept)
      (hnew : Fresh pages.flatten page new) : Kept (pages ++ [page]) (kept ++ new)

/-- Records in strictly ascending order are determined by which they are. -/
theorem Ascending.eq_of_mem_iff {records records' : List α} (h : Ascending records)
    (h' : Ascending records') (hmem : ∀ x, x ∈ records ↔ x ∈ records') : records = records' := by
  have : Std.Irrefl fun x y : α => openTime x < openTime y := ⟨fun _ => Int.lt_irrefl _⟩
  have : Std.Antisymm fun x y : α => openTime x < openTime y :=
    ⟨fun _ _ hlt hgt => absurd hgt (Int.lt_asymm hlt)⟩
  exact List.Pairwise.eq_of_mem_iff h h' hmem

theorem Fresh.eq {earlier page new new' : List α} (h : Fresh earlier page new)
    (h' : Fresh earlier page new') : new = new' :=
  h.ascending.eq_of_mem_iff h'.ascending fun x => (h.mem_iff x).trans (h'.mem_iff x).symm

/-- The rule leaves no choice of what is kept. -/
theorem Kept.eq {pages : List (List α)} {kept kept' : List α} (h : Kept pages kept)
    (h' : Kept pages kept') : kept = kept' := by
  induction h generalizing kept' with
  | start =>
      generalize hpages : ([] : List (List α)) = pages at h'
      cases h' with
      | start => rfl
      | page => simp at hpages
  | @page pages kept page new hkept hnew ih =>
      generalize hpages : pages ++ [page] = longer at h'
      cases h' with
      | start => simp at hpages
      | page hkept' hnew' =>
          obtain ⟨rfl, rfl⟩ := List.append_singleton_inj.mp hpages
          rw [ih hkept', hnew.eq hnew']

/-- An end of a series is known by what comes after it. -/
theorem eq_of_later_iff {tail? tail?' : Option Int}
    (h : ∀ time, Later tail? time ↔ Later tail?' time) : tail? = tail?' := by
  cases tail? with
  | none =>
      cases tail?' with
      | none => rfl
      | some tail' =>
          have hself := later_some.mp ((h tail').mp (later_none _))
          omega
  | some tail =>
      cases tail?' with
      | none =>
          have hself := later_some.mp ((h tail).mpr (later_none _))
          omega
      | some tail' =>
          have hself := h tail
          have hself' := h tail'
          simp only [later_some] at hself hself'
          congr 1
          omega

theorem later_max?_iff (times : List Int) (time : Int) :
    Later times.max? time ↔ ∀ s ∈ times, s < time := by
  cases hmax : times.max? with
  | none =>
      rw [List.max?_eq_none_iff.mp hmax]
      exact iff_of_true (later_none _) (List.forall_mem_nil _)
  | some latest =>
      obtain ⟨hmem, hle⟩ := List.max?_eq_some_iff.mp hmax
      rw [later_some]
      exact ⟨fun hlt s hs => Int.lt_of_le_of_lt (hle s hs) hlt, fun hlt => hlt latest hmem⟩

namespace Series

variable {series : Series α} {pages : List (List α)}

/-- A series holds what is kept of some pages, and what comes after its end comes after all that the
pages had. -/
structure Holds (series : Series α) (pages : List (List α)) : Prop where
  kept : Kept pages series.kept
  ascending : Ascending series.kept
  later_iff : ∀ time, Later series.tail? time ↔ ∀ x ∈ pages.flatten, openTime x < time

theorem later_tail?_iff (h : Ascending series.kept) (time : Int) :
    Later series.tail? time ↔ ∀ x ∈ series.kept, openTime x < time :=
  ⟨fun hlater _ hx => lt_of_later h hx hlater, later_of_lt⟩

theorem holds_of_nil (h : series.kept = []) : series.Holds [] where
  kept := by rw [h]; exact .start
  ascending := by rw [h]; exact List.Pairwise.nil
  later_iff time := by
    rw [tail?, h]
    exact iff_of_true (later_none _) (List.forall_mem_nil _)

namespace Holds

theorem fresh (h : series.Holds pages) (page : List α) :
    Fresh pages.flatten page (mergePage series.tail? page) where
  ascending := mergePage_ascending _ _
  mem_iff x := by rw [mem_mergePage_iff, h.later_iff]

/-- The end of the series is the latest time that the pages had, also if a record with that time was
not kept. -/
theorem tail?_eq (h : series.Holds pages) :
    series.tail? = (pages.flatten.map openTime).max? := by
  apply eq_of_later_iff
  intro time
  rw [h.later_iff, later_max?_iff, List.forall_mem_map]

theorem add (h : series.Holds pages) (page : List α) :
    (series.add page).Holds (pages ++ [page]) where
  kept := .page h.kept (h.fresh page)
  ascending := add_ascending h.ascending page
  later_iff time := by
    rw [later_tail?_iff (add_ascending h.ascending page), List.flatten_append,
      List.flatten_singleton]
    change (∀ x ∈ series.kept ++ mergePage series.tail? page, openTime x < time) ↔ _
    rw [List.forall_mem_append, List.forall_mem_append, ← later_tail?_iff h.ascending,
      ← h.later_iff]
    refine and_congr_right fun hafter => ⟨fun hnew y hy => ?_, fun hpage x hx => ?_⟩
    · rcases Int.lt_or_le (openTime y) time with hlt | hge
      · exact hlt
      · -- a time of the page that comes after the end is the time of a new record
        have hlater : Later series.tail? (openTime y) := fun tail htail =>
          Int.lt_of_lt_of_le (hafter tail htail) hge
        obtain ⟨x, hx, htime⟩ := List.mem_map.mp
          (mem_times_mergePage.mpr ⟨List.mem_map_of_mem hy, hlater⟩)
        rw [← htime]
        exact hnew x hx
    · exact hpage x (mem_of_mem_mergePage hx)

end Holds

end Series

/-- What a series is asked for: to take in a page, or to hand out what it has and begin anew. -/
inductive SeriesStep (α : Type) where
  | add (page : List α)
  | finish

/-- What a series answers: how many records of the page it has kept, or the records it hands out. -/
inductive SeriesAnswer (α : Type) where
  | kept (count : Nat)
  | records (records : List α)

/-- The answer to a step, and the series after it. -/
def SeriesStep.perform (series : Series α) : SeriesStep α → SeriesAnswer α × Series α
  | add page => (.kept (series.countKept page), series.add page)
  | finish => (.records series.result, series.reset)

/-- The series after some steps. -/
def Series.after (series : Series α) (steps : List (SeriesStep α)) : Series α :=
  steps.foldl (fun series step => (step.perform series).2) series

/-- The pages that a series with these pages has taken in after one more step, since it was handed
out. -/
def SeriesStep.pages (before : List (List α)) : SeriesStep α → List (List α)
  | add page => before ++ [page]
  | finish => []

/-- The pages that were taken in since the series was last handed out. -/
def pagesSince (steps : List (SeriesStep α)) : List (List α) :=
  steps.foldl SeriesStep.pages []

namespace Series

variable {series : Series α} {pages : List (List α)}

omit [Timed α] in
theorem eq_of_kept_eq {first second : Series α} (hcap : first.cap = second.cap)
    (hkept : first.kept = second.kept) : first = second := by
  cases first
  cases second
  cases hcap
  cases hkept
  rfl

theorem Holds.perform (h : series.Holds pages) (step : SeriesStep α) :
    (step.perform series).2.Holds (step.pages pages) ∧
      (step.perform series).2.cap = series.cap := by
  cases step with
  | add page => exact ⟨h.add page, rfl⟩
  | finish => exact ⟨holds_of_nil rfl, rfl⟩

theorem Holds.after (h : series.Holds pages) (steps : List (SeriesStep α)) :
    (series.after steps).Holds (steps.foldl SeriesStep.pages pages) ∧
      (series.after steps).cap = series.cap := by
  induction steps generalizing series pages with
  | nil => exact ⟨h, rfl⟩
  | cons step steps ih =>
      obtain ⟨hstep, hcap⟩ := h.perform step
      obtain ⟨hsteps, hrest⟩ := ih hstep
      exact ⟨hsteps, hrest.trans hcap⟩

end Series

/-- In a run of any steps, a series keeps of each page what is new after all that earlier pages had,
and says how many records that are. It ends at the latest time of the pages, hands out its earliest
records up to the cap, and is as new then. -/
theorem series_keeps_first_records {maxRecords : Int} (h : 1 ≤ maxRecords) :
    ∃ initial : Series α, Series.make α maxRecords = .ok initial ∧ ∀ steps,
      let series := initial.after steps
      let pages := pagesSince steps
      (∀ kept, Kept pages kept ↔ kept = series.kept) ∧
        series.tail? = (pages.flatten.map openTime).max? ∧
        (series.size : Int) = min (series.kept.length : Int) maxRecords ∧
        (series.isFull = true ↔ maxRecords ≤ series.kept.length) ∧
        (∀ page, ∃ new, Fresh pages.flatten page new ∧ (SeriesStep.add page).perform series =
          (.kept new.length, { series with kept := series.kept ++ new })) ∧
        SeriesStep.finish.perform series =
          (.records (series.kept.take maxRecords.toNat), initial) := by
  obtain ⟨initial, hmake, hnil, hcap⟩ := Series.make_isOk α h
  refine ⟨initial, hmake, fun steps => ?_⟩
  intro series pages
  obtain ⟨hholds, hsame⟩ := (Series.holds_of_nil hnil).after steps
  have hholds : series.Holds pages := hholds
  have hcap : series.cap = maxRecords.toNat := hsame.trans hcap
  refine ⟨fun kept => ⟨fun hkept => hkept.eq hholds.kept, fun heq => heq ▸ hholds.kept⟩,
    hholds.tail?_eq, ?_, ?_, fun page => ⟨_, hholds.fresh page, rfl⟩, ?_⟩
  · unfold Series.size
    omega
  · simp only [Series.isFull, decide_eq_true_eq]
    omega
  · have hreset : series.reset = initial := Series.eq_of_kept_eq hsame hnil.symm
    rw [← hcap, ← hreset]
    rfl

theorem series_keeps_first_records_overlapping :
    let bar (start count : Int) : Candle :=
      { (default : Candle) with openTime := start, tradeCount := count }
    (1 : Int) ≤ 2 ∧
      Kept (pagesSince [.finish, .add [bar 60000 1, bar 0 2, bar 60000 3],
        .add [bar 60000 4, bar 120000 5]]) [bar 0 2, bar 60000 1, bar 120000 5] := by
  intro bar
  obtain ⟨initial, hmake, hrun⟩ :=
    series_keeps_first_records (α := Candle) (by decide : (1 : Int) ≤ 2)
  cases hmake
  exact ⟨by decide, ((hrun _).1 _).mpr rfl⟩

end CandleHistory
