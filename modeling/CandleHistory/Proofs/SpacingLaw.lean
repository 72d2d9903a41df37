import CandleHistory.Proofs.Pacing

/-!
The law of spacing, whatever is spaced. Waits, marks, blocks and other things that take time come in
any order, and a block may fail. What is recorded is at any time the moment of the latest wait, mark
or end of a block, and a wait makes a pause of just the time that is missing since then, so that it
is not over before the gap has elapsed.
-/

namespace CandleHistory

variable {σ : Type}

namespace Clock

/-- The clock with a timeline. -/
def timed (clock : Clock ℚ (StateM σ)) : Clock ℚ (StateM (σ × Timeline)) where
  now := Timeline.noting (fun _ now _ => .read now) clock.now
  sleep delay := Timeline.noting (fun _ _ _ => .slept delay) (clock.sleep delay)
  log record := Timeline.unnoted (clock.log record)

/-- A clock that never goes backwards, and that sleeps as long as it is asked to or longer. -/
structure Steady (clock : Clock ℚ (StateM σ)) : Prop where
  now : ∀ world, clock.time world ≤ clock.time (clock.now world).2
  sleep : ∀ delay world, 0 < delay →
    clock.time world + delay ≤ clock.time (clock.sleep delay world).2
  log : ∀ record world, clock.time world ≤ clock.time (clock.log record world).2

/-- Something that takes time, or none, but does not set the clock back. -/
def Endures {α : Type} (clock : Clock ℚ (StateM σ)) (act : StateM σ α) : Prop :=
  ∀ world, clock.time world ≤ clock.time (act world).2

end Clock

/-- A single thing that is done with a spacing, or that happens in between. -/
inductive SpacingDeed (σ : Type) where
  | wait
  | mark
  | pass (act : StateM σ Unit)

/-- What is done with a spacing: a single thing, or a whole block, whose body may fail. -/
inductive SpacingStep (σ : Type) where
  | once (deed : SpacingDeed σ)
  | around (body : StateM σ (Except Fault Unit))

section

variable (clock : Clock ℚ (StateM σ))

def SpacingDeed.perform (spacing : Spacing ℚ) : SpacingDeed σ → StateM σ (Spacing ℚ)
  | wait => spacing.wait clock
  | mark => spacing.mark clock
  | pass act => do
    act
    return spacing

def SpacingStep.perform (spacing : Spacing ℚ) : SpacingStep σ → StateM σ (Spacing ℚ)
  | once deed => deed.perform clock spacing
  | around body => do
    let (_, spacing) ← spacing.around clock body
    return spacing

/-- The single deeds of a step, in order. The end of a block is marked, however it comes about. -/
def SpacingStep.deeds : SpacingStep σ → List (SpacingDeed σ)
  | once deed => [deed]
  | around body => [.wait, .pass (do let _ ← body), .mark]

theorem SpacingStep.perform_eq (spacing : Spacing ℚ) (step : SpacingStep σ) :
    step.perform clock spacing = step.deeds.foldlM (SpacingDeed.perform clock) spacing := by
  cases step with
  | once deed => rfl
  | around body => rfl

theorem SpacingStep.foldlM_perform (steps : List (SpacingStep σ)) (spacing : Spacing ℚ) :
    steps.foldlM (SpacingStep.perform clock) spacing =
      (steps.flatMap deeds).foldlM (SpacingDeed.perform clock) spacing := by
  induction steps generalizing spacing with
  | nil => rfl
  | cons step steps ih =>
      rw [List.foldlM_cons, List.flatMap_cons, List.foldlM_append, step.perform_eq]
      congr 1
      funext spacing
      exact ih spacing

/-- A deed in a world with a timeline. -/
def SpacingDeed.timed : SpacingDeed σ → SpacingDeed (σ × Timeline)
  | wait => .wait
  | mark => .mark
  | pass act => .pass (Timeline.unnoted act)

/-- The readings and pauses that a deed makes. -/
def SpacingDeed.timeline (spacing : Spacing ℚ) (world : σ) (deed : SpacingDeed σ) : Timeline :=
  (deed.timed.perform clock.timed spacing (world, [])).2.2

end

def Moment.shown? : Moment → Option ℚ
  | read now => some now
  | slept _ => none
  | called _ => none

def Moment.pause? : Moment → Option ℚ
  | read _ => none
  | slept asked => some asked
  | called _ => none

/-- What the clock showed last. -/
def Timeline.lastShown? (timeline : Timeline) : Option ℚ :=
  (timeline.filterMap Moment.shown?).getLast?

def Timeline.pauses (timeline : Timeline) : List ℚ := timeline.filterMap Moment.pause?

/-- A deed in a run: what the clock shows before and after it, what it makes of the clock, and what
is recorded after it. -/
structure Turn (σ : Type) where
  deed : SpacingDeed σ
  start : ℚ
  timeline : Timeline
  stop : ℚ
  recorded : Option ℚ

/-- The moment of an event: of the end of a wait, or of a mark. -/
def Turn.event? (turn : Turn σ) : Option ℚ :=
  match turn.deed with
  | .wait => turn.timeline.lastShown?
  | .mark => turn.timeline.lastShown?
  | .pass _ => none

/-- The moments of the events of a run. -/
def Turn.events (turns : List (Turn σ)) : List ℚ := turns.filterMap Turn.event?

/-- The turn in which a deed is done. -/
def SpacingDeed.turn (clock : Clock ℚ (StateM σ)) (spacing : Spacing ℚ) (world : σ)
    (deed : SpacingDeed σ) : Turn σ where
  deed := deed
  start := clock.time world
  timeline := deed.timeline clock spacing world
  stop := clock.time (deed.perform clock spacing world).2
  recorded := (deed.perform clock spacing world).1.last

/-- The turns of a run. -/
def Spacing.turns (clock : Clock ℚ (StateM σ)) (spacing : Spacing ℚ) (world : σ) :
    List (SpacingDeed σ) → List (Turn σ)
  | [] => []
  | deed :: deeds =>
    let done := deed.perform clock spacing world
    deed.turn clock spacing world :: turns clock done.1 done.2 deeds

/-- The time that is missing at a moment for the gap after the latest event to have elapsed. -/
def missingTime (gap : ℚ) (latest? : Option ℚ) (now : ℚ) : ℚ :=
  match latest? with
  | none => 0
  | some latest => max 0 (latest + gap - now)

/-- What is to be said of a turn after others. Its event, if it is one, happens between its start
and its end. A wait is over no sooner than the gap after all earlier events, and makes a pause
exactly if there is time missing, of that length. What is recorded is the moment of the latest
event. -/
structure Turn.Lawful (gap : ℚ) (past : List (Turn σ)) (turn : Turn σ) : Prop where
  happens : (∃ act, turn.deed = .pass act) ∨
    ∃ event, turn.event? = some event ∧ turn.start ≤ event ∧ event ≤ turn.stop
  released : turn.deed = .wait → ∀ release ∈ turn.event?, ∀ event ∈ Turn.events past,
    event + gap ≤ release
  pauses : turn.deed = .wait → turn.timeline.pauses =
    let missing := missingTime gap (Turn.events past).getLast? turn.start
    if missing = 0 then [] else [missing]
  recorded : turn.recorded = (Turn.events (past ++ [turn])).getLast?

namespace Spacing

variable (clock : Clock ℚ (StateM σ)) (spacing : Spacing ℚ) (world : σ)

theorem wait_eq : spacing.wait clock world = spacing.mark clock (spacing.pause clock world).2 := rfl

theorem pause_of_none (h : spacing.last = none) : spacing.pause clock world = ((), world) := by
  simp [Spacing.pause, h]
  rfl

/-- What is noted of a pause. -/
def pauseRecord (delay : ℚ) : LogRecord :=
  ⟨.debug, .spacing, s!"[RATE] Sleeping {TimeNumber.millisText delay}ms"⟩

/-- The clock is read, and there is a pause if the gap has not elapsed. -/
theorem pause_of_some {last : ℚ} (h : spacing.last = some last) :
    spacing.pause clock world =
      let delay := last + spacing.gap - clock.time world
      let read := (clock.now world).2
      if 0 < delay then clock.sleep delay (clock.log (pauseRecord delay) read).2
        else ((), read) := by
  let delay := last + spacing.gap - clock.time world
  let read := (clock.now world).2
  change _ = if 0 < delay then clock.sleep delay (clock.log (pauseRecord delay) read).2
    else ((), read)
  have hnow : (clock.now world).1 = clock.time world := rfl
  unfold Spacing.pause
  rw [h, Option.isSome_some, if_pos rfl, bind_state, hnow]
  split
  case isTrue hdelay =>
    have hsome : spacing.delay? (clock.time world) = some delay := by
      simp [Spacing.delay?, h, TimeNumber.isPositive, delay, hdelay]
    simp only [hsome]
    rfl
  case isFalse hdelay =>
    have hnone : spacing.delay? (clock.time world) = none := by
      simp [Spacing.delay?, h, TimeNumber.isPositive, delay, hdelay]
    simp only [hnone]
    rfl

/-- The timeline shows that the pauses of a wait are of the time that is missing, and it does not
change what happens. -/
theorem pause_timed : ∃ timeline,
    spacing.pause clock.timed (world, []) = ((), (spacing.pause clock world).2, timeline) ∧
      timeline.pauses =
        let missing := missingTime spacing.gap spacing.last (clock.time world)
        if missing = 0 then [] else [missing] := by
  cases hlast : spacing.last with
  | none =>
      refine ⟨[], ?_, rfl⟩
      rw [pause_of_none _ _ _ hlast, pause_of_none _ _ _ hlast]
  | some last =>
      let delay := last + spacing.gap - clock.time world
      have htimed : clock.timed.time (world, []) = clock.time world := rfl
      rw [pause_of_some _ _ _ hlast, pause_of_some _ _ _ hlast, htimed]
      by_cases hdelay : 0 < delay
      · refine ⟨[.read (clock.time world), .slept delay], ?_, ?_⟩
        · simp only [delay] at hdelay
          simp only [if_pos hdelay]
          rfl
        · have hmissing : missingTime spacing.gap (some last) (clock.time world) = delay :=
            max_eq_right hdelay.le
          simp only [hmissing, if_neg hdelay.ne']
          rfl
      · refine ⟨[.read (clock.time world)], ?_, ?_⟩
        · simp only [delay] at hdelay
          simp only [if_neg hdelay]
          rfl
        · have hmissing : missingTime spacing.gap (some last) (clock.time world) = 0 :=
            max_eq_left (not_lt.mp hdelay)
          simp only [hmissing, if_pos]
          rfl

/-- After a pause, or without one, the gap after what is recorded has elapsed. -/
theorem pause_elapsed (hsteady : clock.Steady) :
    clock.time world ≤ clock.time (spacing.pause clock world).2 ∧
      ∀ last ∈ spacing.last, last + spacing.gap ≤ clock.time (spacing.pause clock world).2 := by
  cases hlast : spacing.last with
  | none =>
      rw [pause_of_none _ _ _ hlast]
      exact ⟨le_rfl, nofun⟩
  | some last =>
      have hnow := hsteady.now world
      rw [pause_of_some _ _ _ hlast]
      simp only
      split
      case isTrue hdelay =>
        let delay := last + spacing.gap - clock.time world
        let read := (clock.now world).2
        have hlog := hsteady.log (pauseRecord delay) read
        have hsleep := hsteady.sleep delay (clock.log (pauseRecord delay) read).2 hdelay
        refine ⟨by linarith, ?_⟩
        rintro _ ⟨⟩
        linarith
      case isFalse hdelay =>
        refine ⟨hnow, ?_⟩
        rintro _ ⟨⟩
        linarith

end Spacing

section Turns

variable {clock : Clock ℚ (StateM σ)} {gap : ℚ} {spacing : Spacing ℚ} {world world' : σ}
  {past : List (Turn σ)} {turn : Turn σ}

def SpacingDeed.Endures (clock : Clock ℚ (StateM σ)) : SpacingDeed σ → Prop
  | wait => True
  | mark => True
  | pass act => clock.Endures act

/-- What is done besides waiting and marking does not set the clock back. -/
def SpacingStep.Endures (clock : Clock ℚ (StateM σ)) : SpacingStep σ → Prop
  | once deed => deed.Endures clock
  | around body => clock.Endures body

theorem SpacingStep.Endures.deeds {step : SpacingStep σ} (h : step.Endures clock) :
    ∀ deed ∈ step.deeds, deed.Endures clock := by
  cases step with
  | once deed => exact List.forall_mem_singleton.mpr h
  | around body =>
      simp only [SpacingStep.deeds, List.forall_mem_cons]
      exact ⟨trivial, h, trivial, List.forall_mem_nil _⟩

theorem Turn.events_append_of_some {event : ℚ} (h : turn.event? = some event) :
    Turn.events (past ++ [turn]) = Turn.events past ++ [event] := by
  simp [Turn.events, h]

theorem Turn.events_append_of_none (h : turn.event? = none) :
    Turn.events (past ++ [turn]) = Turn.events past := by
  simp [Turn.events, h]

theorem Timeline.lastShown?_append_read (timeline : Timeline) (now : ℚ) :
    Timeline.lastShown? (timeline ++ [.read now]) = some now := by
  simp [Timeline.lastShown?, Moment.shown?]

theorem Timeline.pauses_append_read (timeline : Timeline) (now : ℚ) :
    Timeline.pauses (timeline ++ [.read now]) = timeline.pauses := by
  simp [Timeline.pauses, Moment.pause?]

/-- Between two turns the moment of the latest event is recorded, and all events are over. -/
structure Recorded (clock : Clock ℚ (StateM σ)) (gap : ℚ) (past : List (Turn σ))
    (spacing : Spacing ℚ) (world : σ) : Prop where
  gap_eq : spacing.gap = gap
  last_eq : spacing.last = (Turn.events past).getLast?
  ordered : ∀ event ∈ Turn.events past, ∃ last ∈ spacing.last, event ≤ last
  passed : ∀ last ∈ spacing.last, last ≤ clock.time world

namespace Recorded

theorem append_event (h : Recorded clock gap past spacing world) {event : ℚ}
    (hevent : turn.event? = some event) (hlater : ∀ last ∈ spacing.last, last ≤ event)
    (hover : event ≤ clock.time world') :
    Recorded clock gap (past ++ [turn]) { spacing with last := some event } world' where
  gap_eq := h.gap_eq
  last_eq := by rw [Turn.events_append_of_some hevent, List.getLast?_concat]
  ordered := by
    intro other hmem
    refine ⟨event, rfl, ?_⟩
    rw [Turn.events_append_of_some hevent] at hmem
    rcases List.mem_append.mp hmem with hold | hnew
    · obtain ⟨last, hlast, hle⟩ := h.ordered other hold
      exact hle.trans (hlater last hlast)
    · exact (List.mem_singleton.mp hnew).le
  passed := by
    rintro _ ⟨⟩
    exact hover

theorem append_pass (h : Recorded clock gap past spacing world) (hevent : turn.event? = none)
    (htime : clock.time world ≤ clock.time world') :
    Recorded clock gap (past ++ [turn]) spacing world' where
  gap_eq := h.gap_eq
  last_eq := by rw [Turn.events_append_of_none hevent, h.last_eq]
  ordered := by
    rw [Turn.events_append_of_none hevent]
    exact h.ordered
  passed last hmem := (h.passed last hmem).trans htime

/-- A wait is lawful, and the moment of its end is recorded. -/
theorem wait (hsteady : clock.Steady) (h : Recorded clock gap past spacing world) :
    (SpacingDeed.wait.turn clock spacing world).Lawful gap past ∧
      Recorded clock gap (past ++ [SpacingDeed.wait.turn clock spacing world])
        (spacing.wait clock world).1 (spacing.wait clock world).2 := by
  let paused := (spacing.pause clock world).2
  let release := clock.time paused
  obtain ⟨timeline, htimed, hpauses⟩ := Spacing.pause_timed clock spacing world
  obtain ⟨hstart, helapsed⟩ := Spacing.pause_elapsed clock spacing world hsteady
  have htimeline : (SpacingDeed.wait.turn clock spacing world).timeline =
      timeline ++ [.read release] := by
    change (spacing.wait clock.timed (world, [])).2.2 = _
    rw [Spacing.wait_eq, htimed]
    rfl
  have hevent : (SpacingDeed.wait.turn clock spacing world).event? = some release := by
    change Timeline.lastShown? (SpacingDeed.wait.turn clock spacing world).timeline = some release
    rw [htimeline, Timeline.lastShown?_append_read]
  have hover : release ≤ clock.time (spacing.wait clock world).2 := hsteady.now paused
  have hlater : ∀ last ∈ spacing.last, last ≤ release := fun last hmem =>
    (h.passed last hmem).trans hstart
  refine ⟨⟨Or.inr ⟨release, hevent, hstart, hover⟩, fun _ => ?_, fun _ => ?_, ?_⟩,
    h.append_event hevent hlater hover⟩
  · rw [hevent]
    rintro _ ⟨⟩ event hmem
    obtain ⟨last, hlast, hle⟩ := h.ordered event hmem
    have hgap := helapsed last hlast
    rw [h.gap_eq] at hgap
    linarith
  · rw [htimeline, Timeline.pauses_append_read, hpauses, h.gap_eq, h.last_eq]
    rfl
  · rw [Turn.events_append_of_some hevent, List.getLast?_concat]
    rfl

/-- The moment of a mark is recorded. -/
theorem mark (hsteady : clock.Steady) (h : Recorded clock gap past spacing world) :
    (SpacingDeed.mark.turn clock spacing world).Lawful gap past ∧
      Recorded clock gap (past ++ [SpacingDeed.mark.turn clock spacing world])
        (spacing.mark clock world).1 (spacing.mark clock world).2 := by
  have hevent : (SpacingDeed.mark.turn clock spacing world).event? = some (clock.time world) :=
    Timeline.lastShown?_append_read [] _
  have hover := hsteady.now world
  refine ⟨⟨Or.inr ⟨_, hevent, le_rfl, hover⟩, nofun, nofun, ?_⟩,
    h.append_event hevent h.passed hover⟩
  rw [Turn.events_append_of_some hevent, List.getLast?_concat]
  rfl

/-- A deed is lawful, and after it again the moment of the latest event is recorded. -/
theorem perform (hsteady : clock.Steady) (h : Recorded clock gap past spacing world)
    {deed : SpacingDeed σ} (hdeed : deed.Endures clock) :
    (deed.turn clock spacing world).Lawful gap past ∧
      Recorded clock gap (past ++ [deed.turn clock spacing world])
        (deed.perform clock spacing world).1 (deed.perform clock spacing world).2 := by
  cases deed with
  | wait => exact h.wait hsteady
  | mark => exact h.mark hsteady
  | pass act =>
      have hevent : ((SpacingDeed.pass act).turn clock spacing world).event? = none := rfl
      refine ⟨⟨Or.inl ⟨act, rfl⟩, nofun, nofun, ?_⟩, h.append_pass hevent (hdeed world)⟩
      rw [Turn.events_append_of_none hevent]
      exact h.last_eq

theorem lawful (hsteady : clock.Steady) (h : Recorded clock gap past spacing world)
    {deeds : List (SpacingDeed σ)} (hdeeds : ∀ deed ∈ deeds, deed.Endures clock) :
    ∀ before turn after, spacing.turns clock world deeds = before ++ turn :: after →
      turn.Lawful gap (past ++ before) := by
  induction deeds generalizing past spacing world with
  | nil =>
      intro before turn after hsplit
      simp [Spacing.turns] at hsplit
  | cons deed deeds ih =>
      obtain ⟨hdeed, hdeeds⟩ := List.forall_mem_cons.mp hdeeds
      obtain ⟨hlawful, hrecorded⟩ := h.perform hsteady hdeed
      intro before turn after hsplit
      cases before with
      | nil =>
          obtain ⟨rfl, -⟩ := List.cons.inj hsplit
          rw [List.append_nil]
          exact hlawful
      | cons first before =>
          obtain ⟨rfl, hrest⟩ := List.cons.inj hsplit
          rw [List.append_cons]
          exact ih hrecorded hdeeds before turn after hrest

end Recorded

/-- Steps of any kind, in any order, are lawful at every turn. A block is what its deeds are,
whether its body fails or not. -/
theorem turns_lawful (hsteady : clock.Steady) {steps : List (SpacingStep σ)}
    (hsteps : ∀ step ∈ steps, step.Endures clock) (gap : ℚ) (world : σ) :
    let deeds := steps.flatMap SpacingStep.deeds
    steps.foldlM (SpacingStep.perform clock) ⟨gap, none⟩ =
        deeds.foldlM (SpacingDeed.perform clock) ⟨gap, none⟩ ∧
      ∀ past turn future, Spacing.turns clock ⟨gap, none⟩ world deeds = past ++ turn :: future →
        turn.Lawful gap past := by
  intro deeds
  refine ⟨SpacingStep.foldlM_perform clock steps _, ?_⟩
  have hstart : Recorded clock gap [] ⟨gap, none⟩ world := ⟨rfl, rfl, nofun, nofun⟩
  have hdeeds : ∀ deed ∈ deeds, deed.Endures clock := by
    intro deed hmem
    obtain ⟨step, hstep, hdeed⟩ := List.mem_flatMap.mp hmem
    exact (hsteps step hstep).deeds deed hdeed
  intro past turn future hsplit
  exact hstart.lawful hsteady hdeeds past turn future hsplit

/-- A clock that stands still but for pauses, which last a fixed time longer than they should. -/
def Clock.overshooting (extra : ℚ) : Clock ℚ (StateM ℚ) where
  now time := (time, time)
  sleep delay time := ((), time + delay + extra)
  log _ := pure ()

theorem Clock.overshooting_steady {extra : ℚ} (h : 0 ≤ extra) :
    (Clock.overshooting extra).Steady where
  now _ := le_rfl
  sleep _ _ _ := le_add_of_nonneg_right h
  log _ _ := le_rfl

theorem turns_lawful_failingBlock :
    let clock := Clock.overshooting (1 / 8)
    let steps : List (SpacingStep ℚ) := [.once .wait, .once (.pass fun time => ((), time + 1 / 2)),
      .around fun time => (.error .infiniteStart, time + 1 / 4), .once .wait]
    let turns := Spacing.turns clock ⟨1, none⟩ 0 (steps.flatMap SpacingStep.deeds)
    clock.Steady ∧ (∀ step ∈ steps, step.Endures clock) ∧
      (∀ past turn future, turns = past ++ turn :: future → turn.Lawful 1 past) ∧
      turns.map Turn.recorded = [some 0, some 0, some (9 / 8), some (9 / 8), some (11 / 8),
        some (5 / 2)] := by
  intro clock steps turns
  have hsteady : clock.Steady := Clock.overshooting_steady (by norm_num)
  have hsteps : ∀ step ∈ steps, step.Endures clock := by
    have hlonger (time : ℚ) {more : ℚ} (hmore : 0 ≤ more) : time ≤ time + more :=
      le_add_of_nonneg_right hmore
    simp only [steps, List.forall_mem_cons]
    exact ⟨trivial, fun time => hlonger time (by norm_num), fun time => hlonger time (by norm_num),
      trivial, List.forall_mem_nil _⟩
  exact ⟨hsteady, hsteps, (turns_lawful hsteady hsteps 1 0).2, by decide +kernel⟩

end Turns

end CandleHistory
