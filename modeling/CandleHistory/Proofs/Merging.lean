import CandleHistory.Paging.Series

/-!
What becomes of a page that is merged into a series. Whatever the page looks like, the series stays
in strictly ascending order and keeps what it has, and it takes in exactly the times of the page
that lie after its end.
-/

namespace CandleHistory

variable {α : Type} [Timed α]

/-- Records in strictly ascending order of their times. -/
def Ascending (records : List α) : Prop := records.Pairwise fun x y => openTime x < openTime y

/-- A time lies after the end of a series, if the series has one. -/
def Later (tail? : Option Int) (time : Int) : Prop := ∀ tail, tail? = some tail → tail < time

theorem later_none (time : Int) : Later none time := fun _ htail => nomatch htail

theorem later_some {tail time : Int} : Later (some tail) time ↔ tail < time := by
  constructor
  · intro h
    exact h tail rfl
  · rintro h _ ⟨⟩
    exact h

section Sorting

theorem insertInOrder_perm (x : α) (sorted : List α) :
    (insertInOrder x sorted).Perm (x :: sorted) := by
  induction sorted with
  | nil => exact List.Perm.refl _
  | cons y ys ih =>
      unfold insertInOrder
      split
      · exact (ih.cons y).trans (List.Perm.swap x y ys)
      · exact List.Perm.refl _

theorem insertInOrder_sorted (x : α) {sorted : List α}
    (h : sorted.Pairwise fun a b => openTime a ≤ openTime b) :
    (insertInOrder x sorted).Pairwise fun a b => openTime a ≤ openTime b := by
  induction sorted with
  | nil => exact List.pairwise_singleton _ x
  | cons y ys ih =>
      obtain ⟨hy, hys⟩ := List.pairwise_cons.mp h
      unfold insertInOrder
      split
      case isTrue hle =>
        apply List.pairwise_cons.mpr
        constructor
        · intro z hz
          rcases List.mem_cons.mp ((insertInOrder_perm x ys).mem_iff.mp hz) with rfl | hmem
          · exact hle
          · exact hy z hmem
        · exact ih hys
      case isFalse hgt =>
        apply List.pairwise_cons.mpr
        constructor
        · intro z hz
          rcases List.mem_cons.mp hz with rfl | hmem
          · omega
          · have hyz := hy z hmem
            omega
        · exact h

private theorem foldl_insertInOrder_perm (page sorted : List α) :
    (page.foldl (fun sorted x => insertInOrder x sorted) sorted).Perm (page ++ sorted) := by
  induction page generalizing sorted with
  | nil => exact List.Perm.refl _
  | cons x xs ih =>
      have hinsert : (xs ++ insertInOrder x sorted).Perm (xs ++ x :: sorted) :=
        (insertInOrder_perm x sorted).append_left xs
      exact ((ih _).trans hinsert).trans List.perm_middle

private theorem foldl_insertInOrder_sorted (page : List α) {sorted : List α}
    (h : sorted.Pairwise fun a b => openTime a ≤ openTime b) :
    (page.foldl (fun sorted x => insertInOrder x sorted) sorted).Pairwise
      fun a b => openTime a ≤ openTime b := by
  induction page generalizing sorted with
  | nil => exact h
  | cons x xs ih => exact ih (insertInOrder_sorted x h)

/-- Sorting by time neither loses nor invents records. -/
theorem sortByTime_perm (page : List α) : (sortByTime page).Perm page := by
  have hperm := foldl_insertInOrder_perm page []
  rwa [List.append_nil] at hperm

theorem sortByTime_sorted (page : List α) :
    (sortByTime page).Pairwise fun a b => openTime a ≤ openTime b :=
  foldl_insertInOrder_sorted page List.Pairwise.nil

end Sorting

section Keeping

theorem keepLater_sublist (tail? : Option Int) (records : List α) :
    (keepLater tail? records).Sublist records := by
  induction records generalizing tail? with
  | nil => cases tail? <;> exact List.Sublist.refl _
  | cons x xs ih =>
      cases tail? with
      | none => exact (ih _).cons_cons x
      | some tail =>
          unfold keepLater
          split
          · exact (ih _).cons x
          · exact (ih _).cons_cons x

theorem later_of_mem_keepLater {tail? : Option Int} {records : List α} {x : α}
    (h : x ∈ keepLater tail? records) : Later tail? (openTime x) := by
  induction records generalizing tail? with
  | nil => cases tail? <;> cases h
  | cons y ys ih =>
      cases tail? with
      | none => exact later_none _
      | some tail =>
          unfold keepLater at h
          split at h
          case isTrue => exact ih h
          case isFalse hgt =>
            apply later_some.mpr
            rcases List.mem_cons.mp h with rfl | hmem
            · omega
            · have hlater := later_some.mp (ih hmem)
              omega

theorem keepLater_ascending (tail? : Option Int) (records : List α) :
    Ascending (keepLater tail? records) := by
  induction records generalizing tail? with
  | nil => cases tail? <;> exact List.Pairwise.nil
  | cons x xs ih =>
      have hcons : Ascending (x :: keepLater (some (openTime x)) xs) :=
        List.pairwise_cons.mpr ⟨fun y hy => later_some.mp (later_of_mem_keepLater hy), ih _⟩
      cases tail? with
      | none => exact hcons
      | some tail =>
          unfold keepLater
          split
          · exact ih _
          · exact hcons

/-- Of records in order, every time after the end is kept. -/
theorem exists_mem_keepLater {tail? : Option Int} {records : List α}
    (hsorted : records.Pairwise fun a b => openTime a ≤ openTime b) {x : α} (hx : x ∈ records)
    (hlater : Later tail? (openTime x)) :
    ∃ y ∈ keepLater tail? records, openTime y = openTime x := by
  induction records generalizing tail? with
  | nil => cases hx
  | cons z zs ih =>
      obtain ⟨hz, hzs⟩ := List.pairwise_cons.mp hsorted
      have hrest : ∃ y ∈ z :: keepLater (some (openTime z)) zs, openTime y = openTime x := by
        rcases List.mem_cons.mp hx with rfl | hmem
        · exact ⟨x, List.mem_cons_self, rfl⟩
        · rcases Int.le_iff_lt_or_eq.mp (hz x hmem) with hlt | heq
          · obtain ⟨y, hy, htime⟩ := ih hzs hmem (later_some.mpr hlt)
            exact ⟨y, List.mem_cons_of_mem z hy, htime⟩
          · exact ⟨z, List.mem_cons_self, heq⟩
      cases tail? with
      | none => exact hrest
      | some tail =>
          unfold keepLater
          split
          case isTrue hle =>
            rcases List.mem_cons.mp hx with rfl | hmem
            · have htail := later_some.mp hlater
              omega
            · exact ih hzs hmem hlater
          case isFalse => exact hrest

end Keeping

section Merging

variable {tail? : Option Int} {page : List α}

theorem mergePage_ascending (tail? : Option Int) (page : List α) :
    Ascending (mergePage tail? page) :=
  keepLater_ascending tail? (sortByTime page)

theorem mem_of_mem_mergePage {x : α} (h : x ∈ mergePage tail? page) : x ∈ page :=
  (sortByTime_perm page).mem_iff.mp ((keepLater_sublist _ _).mem h)

theorem later_of_mem_mergePage {x : α} (h : x ∈ mergePage tail? page) :
    Later tail? (openTime x) :=
  later_of_mem_keepLater h

/-- A page adds exactly its times that lie after the end of the series. -/
theorem mem_times_mergePage {time : Int} :
    time ∈ (mergePage tail? page).map openTime ↔ time ∈ page.map openTime ∧ Later tail? time := by
  constructor
  · intro h
    obtain ⟨x, hx, rfl⟩ := List.mem_map.mp h
    exact ⟨List.mem_map_of_mem (mem_of_mem_mergePage hx), later_of_mem_mergePage hx⟩
  · rintro ⟨hmem, hlater⟩
    obtain ⟨x, hx, rfl⟩ := List.mem_map.mp hmem
    have hsorted : x ∈ sortByTime page := (sortByTime_perm page).mem_iff.mpr hx
    obtain ⟨y, hy, htime⟩ := exists_mem_keepLater (sortByTime_sorted page) hsorted hlater
    exact List.mem_map.mpr ⟨y, hy, htime⟩

end Merging

namespace Series

variable {series : Series α}

omit [Timed α] in
theorem make_isOk (α : Type) {cap : Int} (hcap : 1 ≤ cap) :
    ∃ series, Series.make α cap = .ok series ∧ series.kept = [] ∧ series.cap = cap.toNat := by
  have hpos : 0 < cap.toNat := by omega
  refine ⟨⟨cap.toNat, [], hpos⟩, ?_, rfl, rfl⟩
  unfold Series.make
  exact dif_pos hpos

omit [Timed α] in
theorem isFull_of_nil (h : series.kept = []) : series.isFull = false := by
  have hcap := series.cap_pos
  unfold isFull
  rw [h]
  exact decide_eq_false (Nat.not_le_of_lt hcap)

/-- The last record of a series in order is the one that all others come before. -/
theorem lt_of_later (h : Ascending series.kept) {x : α} (hx : x ∈ series.kept) {time : Int}
    (hlater : Later series.tail? time) : openTime x < time := by
  have hne : series.kept ≠ [] := List.ne_nil_of_mem hx
  have hlast : series.tail? = some (openTime (series.kept.getLast hne)) := by
    unfold tail?
    rw [List.getLast?_eq_some_getLast hne]
    rfl
  have hend := hlater _ hlast
  have hsplit := List.dropLast_concat_getLast hne
  rw [← hsplit] at hx
  rcases List.mem_append.mp hx with hinit | hfinal
  · unfold Ascending at h
    rw [← hsplit] at h
    have hbefore := (List.pairwise_append.mp h).2.2 x hinit _ List.mem_cons_self
    omega
  · rw [List.mem_singleton.mp hfinal]
    exact hend

theorem later_of_lt {time : Int} (h : ∀ x ∈ series.kept, openTime x < time) :
    Later series.tail? time := by
  intro tail htail
  obtain ⟨x, hx, rfl⟩ := Option.map_eq_some_iff.mp htail
  exact h x (List.mem_of_getLast? hx)

/-- Merging a page keeps a series in order. -/
theorem add_ascending (h : Ascending series.kept) (page : List α) :
    Ascending (series.add page).kept := by
  apply List.pairwise_append.mpr
  refine ⟨h, mergePage_ascending _ _, ?_⟩
  intro x hx y hy
  exact lt_of_later h hx (later_of_mem_mergePage hy)

theorem mem_times_add {time : Int} (page : List α) :
    time ∈ (series.add page).kept.map openTime ↔
      time ∈ series.kept.map openTime ∨
        (time ∈ page.map openTime ∧ Later series.tail? time) := by
  unfold add
  rw [List.map_append, List.mem_append, mem_times_mergePage]

end Series

end CandleHistory
