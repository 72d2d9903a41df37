import CandleHistory.Proofs.Printing

/-!
Sessions do not leak. Whatever is asked of a client, and in whatever way its sessions are closed
from outside, all of them but the newest are closed at any moment, and each request goes out on an
open one. A run of the program closes every session that it opens, however it ends.
-/

namespace CandleHistory

namespace Client

/-- Someone else closes a session, which is given by how many newer ones there are. -/
def lose (client : Client) (index : Nat) : Client :=
  { client with
    sessions := client.sessions.modify index fun session => { session with isClosed := true } }

/-- The sessions that were opened after the first `others` ones, newest first, have a property. -/
def Since (others : Nat) (property : List Session → Prop) (client : Client) : Prop :=
  ∃ opened older, client.sessions = opened ++ older ∧ older.length = others ∧ property opened

/-- Of the sessions that were opened after the first `others` ones, all but the newest are closed.
-/
def Tidy (others : Nat) : Client → Prop :=
  Since others fun opened => ∀ session ∈ opened.tail, session.isClosed = true

/-- The sessions that were opened after the first `others` ones are closed. -/
def Settled (others : Nat) : Client → Prop :=
  Since others fun opened => ∀ session ∈ opened, session.isClosed = true

theorem since_zero_iff {property : List Session → Prop} {client : Client} :
    Since 0 property client ↔ property client.sessions := by
  constructor
  · rintro ⟨opened, older, hsessions, holder, hproperty⟩
    rw [hsessions, List.length_eq_zero_iff.mp holder, List.append_nil]
    exact hproperty
  · intro hproperty
    exact ⟨client.sessions, [], (List.append_nil _).symm, rfl, hproperty⟩

theorem isOpen_eq_false_iff {client : Client} :
    client.isOpen = false ↔ ∀ newest ∈ client.sessions.head?, newest.isClosed = true := by
  unfold isOpen
  cases client.sessions with
  | nil => simp
  | cons newest older => simp

theorem isOpen_ensureOpen (client : Client) : client.ensureOpen.isOpen = true := by
  unfold ensureOpen
  split
  case isTrue hopen => exact hopen
  case isFalse => rfl

theorem length_close (client : Client) :
    client.close.sessions.length = client.sessions.length := by
  unfold close
  split <;> simp [*]

theorem length_lose (client : Client) (index : Nat) :
    (client.lose index).sessions.length = client.sessions.length :=
  List.length_modify _ _ _

theorem length_ensureOpen (client : Client) :
    client.ensureOpen.sessions.length =
      client.sessions.length + if client.isOpen = false then 1 else 0 := by
  unfold ensureOpen
  cases client.isOpen with
  | true => rfl
  | false => rfl

theorem settled_self (client : Client) : Settled client.sessions.length client :=
  ⟨[], client.sessions, rfl, rfl, List.forall_mem_nil _⟩

variable {others : Nat} {client : Client}

theorem Settled.tidy (h : Settled others client) : Tidy others client := by
  obtain ⟨opened, older, hsessions, holder, hclosed⟩ := h
  refine ⟨opened, older, hsessions, holder, fun session hmem => ?_⟩
  exact hclosed session (List.mem_of_mem_tail hmem)

theorem Tidy.ensureOpen (h : Tidy others client) : Tidy others client.ensureOpen := by
  obtain ⟨opened, older, hsessions, holder, hclosed⟩ := h
  unfold Client.ensureOpen
  split
  case isTrue => exact ⟨opened, older, hsessions, holder, hclosed⟩
  case isFalse hopen =>
    have hnewest := isOpen_eq_false_iff.mp (Bool.eq_false_iff.mpr hopen)
    refine ⟨⟨false, client.timeout⟩ :: opened, older, congrArg _ hsessions, holder, ?_⟩
    cases opened with
    | nil => exact List.forall_mem_nil _
    | cons newest earlier =>
        refine List.forall_mem_cons.mpr ⟨hnewest newest ?_, hclosed⟩
        rw [hsessions]
        rfl

theorem Tidy.close (h : Tidy others client) : Settled others client.close := by
  obtain ⟨opened, older, hsessions, holder, hclosed⟩ := h
  unfold Client.close
  cases opened with
  | cons newest earlier =>
      rw [hsessions]
      exact ⟨{ newest with isClosed := true } :: earlier, older, rfl, holder,
        List.forall_mem_cons.mpr ⟨rfl, hclosed⟩⟩
  | nil =>
      rw [hsessions]
      cases older with
      | nil => exact ⟨[], [], hsessions, holder, List.forall_mem_nil _⟩
      | cons newest earlier => exact ⟨[], _, rfl, holder, List.forall_mem_nil _⟩

theorem Tidy.lose (h : Tidy 0 client) (index : Nat) : Tidy 0 (client.lose index) := by
  apply since_zero_iff.mpr
  replace h := since_zero_iff.mp h
  unfold Client.lose
  cases hsessions : client.sessions with
  | nil => simp
  | cons newest earlier =>
      rw [hsessions] at h
      cases index with
      -- the newest session may be open or closed
      | zero => exact h
      | succ index =>
          intro session hmem
          obtain ⟨place, hplace⟩ := List.mem_iff_getElem?.mp hmem
          rw [List.modify_succ_cons, List.tail_cons, List.getElem?_modify] at hplace
          obtain ⟨former, hformer, rfl⟩ := Option.map_eq_some_iff.mp hplace
          have hclosed := h former (List.mem_of_getElem? hformer)
          split
          · rfl
          · exact hclosed

end Client

namespace Program

open CommandLine (Options)

variable {σ : Type}

/-- Something that a client does, or that is done to it, at one moment. -/
inductive ClientDeed where
  | look
  | send (call : PageCall)
  | close
  | lose (index : Nat)

/-- What a client is asked for: a page, a page and to close its session after that, or to close its
session. In between someone else may close a session of its. -/
inductive ClientStep where
  | get (call : PageCall)
  | getWithin (call : PageCall)
  | close
  | lose (index : Nat)

def loseSession (index : Nat) : StateT Memory (StateM σ) Unit :=
  modify fun memory => { memory with client := memory.client.lose index }

section

variable (world : World (StateM σ)) (threshold : Nat)

def ClientDeed.perform : ClientDeed → StateT Memory (StateM σ) Unit
  | look => openSession
  | send call => do let _ ← sendCall world threshold call
  | close => closeClient
  | lose index => loseSession index

def ClientStep.perform : ClientStep → StateT Memory (StateM σ) Unit
  | get call => do let _ ← callPage world threshold call
  | getWithin call => do
    let _ ← callPage world threshold call
    closeClient
  | close => closeClient
  | lose index => loseSession index

/-- The single deeds of a step, in order. -/
def ClientStep.deeds : ClientStep → List ClientDeed
  | get call => [.look, .send call]
  | getWithin call => [.look, .send call, .close]
  | close => [.close]
  | lose index => [.lose index]

theorem ClientStep.perform_eq (step : ClientStep) :
    step.perform world threshold = step.deeds.forM (ClientDeed.perform world threshold) := by
  cases step with
  | get call => rfl
  | getWithin call => rfl
  | close => rfl
  | lose index => rfl

theorem ClientStep.forM_perform (steps : List ClientStep) :
    steps.forM (ClientStep.perform world threshold) =
      (steps.flatMap ClientStep.deeds).forM (ClientDeed.perform world threshold) := by
  induction steps with
  | nil => rfl
  | cons step steps ih =>
      have happend : (step.deeds ++ steps.flatMap deeds).forM (ClientDeed.perform world threshold) =
          (do
            step.deeds.forM (ClientDeed.perform world threshold)
            (steps.flatMap deeds).forM (ClientDeed.perform world threshold)) := List.forM_append
      rw [List.flatMap_cons, happend, ← step.perform_eq, ← ih]
      rfl

structure Moment where
  before : Client
  deed : ClientDeed
  after : Client

/-- The moments at which deeds are done one after another. -/
def moments : List ClientDeed → Memory → σ → List Moment
  | [], _, _ => []
  | deed :: deeds, memory, state =>
    let done := deed.perform world threshold memory state
    ⟨memory.client, deed, done.1.2.client⟩ :: moments deeds done.1.2 done.2

end

/-- What is to be said of a moment in the life of a client: all its sessions but the newest are
closed, a request goes out on an open session only, and a session is opened exactly if there is need
of one. After the client has closed its session, none is open. -/
structure Moment.Sound (moment : Moment) : Prop where
  tidyBefore : ∀ session ∈ moment.before.sessions.tail, session.isClosed = true
  tidyAfter : ∀ session ∈ moment.after.sessions.tail, session.isClosed = true
  open_of_send : ∀ call, moment.deed = .send call → moment.before.isOpen = true
  opens_iff : moment.after.sessions.length = moment.before.sessions.length + 1 ↔
    moment.deed = .look ∧ ∀ newest ∈ moment.before.sessions.head?, newest.isClosed = true
  keeps_or_opens : moment.after.sessions.length = moment.before.sessions.length ∨
    moment.after.sessions.length = moment.before.sessions.length + 1
  closed_of_close : moment.deed = .close →
    ∀ session ∈ moment.after.sessions, session.isClosed = true

section Keeping

/-- A computation from any client with a property ends with such a client. -/
def keeping (σ : Type) (inv : Client → Prop) :
    Coupling (StateT Memory (StateM σ)) (StateT Memory (StateM σ)) where
  rel act _ := ∀ memory state, inv memory.client → inv (act memory state).1.2.client
  pure _ _ _ h := h
  bind hfirst hnext := by
    intro memory state h
    exact hnext _ _ _ (hfirst memory state h)

variable (inv : Client → Prop)

theorem lift_keeping {α : Type} (act : StateM σ α) :
    (keeping σ inv).rel (liftM act) (liftM act) := fun _ _ h => h

theorem sendCall_keeping (world : World (StateM σ)) (threshold : Nat) (call : PageCall) :
    (keeping σ inv).rel (sendCall world threshold call) (sendCall world threshold call) := by
  have hrecords (records : List LogRecord) : (keeping σ inv).rel
      (records.forM fun record => liftM (world.log threshold record))
      (records.forM fun record => liftM (world.log threshold record)) :=
    Coupling.forM _ (fun record => lift_keeping inv (world.log threshold record)) records
  unfold sendCall
  refine Coupling.bind _ (fun _ _ h => h) fun memory => ?_
  refine Coupling.bind _ (lift_keeping inv _) fun sent => ?_
  split
  · refine Coupling.bind _ (lift_keeping inv _) fun _ => ?_
    refine Coupling.bind _ (fun _ _ h => h) fun _ => ?_
    exact Coupling.bind _ (hrecords _) fun _ => Coupling.pure _ _
  · exact Coupling.bind _ (hrecords _) fun _ => Coupling.pure _ _

/-- A fetch of the program keeps what opening a session keeps. -/
theorem venue_keeping (hopen : ∀ client, inv client → inv client.ensureOpen)
    (world : World (StateM σ)) (threshold : Nat) (level : Level) :
    (venue world threshold level).Coupled (keeping σ inv) (venue world threshold level) where
  now := lift_keeping inv _
  sleep _ := lift_keeping inv _
  log _ := lift_keeping inv _
  call call := Coupling.bind _ (fun memory _ h => hopen memory.client h) fun _ =>
    sendCall_keeping inv world threshold call
  cancelRequested := Coupling.bind _ (fun _ _ h => h) fun _ => Coupling.pure _ _
  report _ := lift_keeping inv _

end Keeping

section Moments

variable (world : World (StateM σ)) (threshold : Nat)

theorem sendCall_client (call : PageCall) (memory : Memory) (state : σ) :
    (sendCall world threshold call memory state).1.2.client = memory.client :=
  sendCall_keeping (· = memory.client) world threshold call memory state rfl

/-- A deed from a tidy client is sound and leaves a tidy client, if requests are made on open
sessions only. -/
theorem ClientDeed.sound (deed : ClientDeed) {memory : Memory} (state : σ)
    (htidy : memory.client.Tidy 0)
    (hopen : ∀ call, deed = .send call → memory.client.isOpen = true) :
    let after := (deed.perform world threshold memory state).1.2.client
    Moment.Sound ⟨memory.client, deed, after⟩ ∧ after.Tidy 0 := by
  intro after
  have hbefore := Client.since_zero_iff.mp htidy
  cases deed with
  | look =>
      have hafter : after.Tidy 0 := htidy.ensureOpen
      have hlength : after.sessions.length =
          memory.client.sessions.length + if memory.client.isOpen = false then 1 else 0 :=
        memory.client.length_ensureOpen
      refine ⟨⟨hbefore, Client.since_zero_iff.mp hafter, nofun, ?_, ?_, nofun⟩, hafter⟩
      · dsimp only
        rw [← Client.isOpen_eq_false_iff, hlength]
        cases memory.client.isOpen <;> simp
      · dsimp only
        rw [hlength]
        cases memory.client.isOpen <;> simp
  | send call =>
      have hsame : after = memory.client := sendCall_client world threshold call memory state
      rw [hsame]
      exact ⟨⟨hbefore, hbefore, hopen, by simp, .inl rfl, nofun⟩, htidy⟩
  | close =>
      have hsettled : after.Settled 0 := htidy.close
      have hlength : after.sessions.length = memory.client.sessions.length :=
        memory.client.length_close
      have hclosed := Client.since_zero_iff.mp hsettled
      refine ⟨⟨hbefore, Client.since_zero_iff.mp hsettled.tidy, nofun, ?_, .inl hlength,
        fun _ => hclosed⟩, hsettled.tidy⟩
      simp [hlength]
  | lose index =>
      have hafter : after.Tidy 0 := htidy.lose index
      have hlength : after.sessions.length = memory.client.sessions.length :=
        memory.client.length_lose index
      refine ⟨⟨hbefore, Client.since_zero_iff.mp hafter, nofun, ?_, .inl hlength, nofun⟩, hafter⟩
      simp [hlength]

/-- The moments of a step are sound, and so are the moments after it if they are from every tidy
client on. -/
theorem ClientStep.sound (step : ClientStep) {rest : List ClientDeed}
    (hrest : ∀ memory state, memory.client.Tidy 0 →
      ∀ moment ∈ moments world threshold rest memory state, moment.Sound)
    {memory : Memory} (state : σ) (htidy : memory.client.Tidy 0) :
    ∀ moment ∈ moments world threshold (step.deeds ++ rest) memory state, moment.Sound := by
  -- a request is the second deed of its step, right after the look for a session
  have hcall (call : PageCall) {rest : List ClientDeed}
      (hrest : ∀ memory state, memory.client.Tidy 0 →
        ∀ moment ∈ moments world threshold rest memory state, moment.Sound) :
      ∀ moment ∈ moments world threshold (.look :: .send call :: rest) memory state,
        moment.Sound := by
    obtain ⟨hlook, hopened⟩ := ClientDeed.sound world threshold .look state htidy nofun
    have hopen := memory.client.isOpen_ensureOpen
    obtain ⟨hsend, hsent⟩ := ClientDeed.sound world threshold (.send call) _ hopened
      fun _ _ => hopen
    exact List.forall_mem_cons.mpr ⟨hlook, List.forall_mem_cons.mpr ⟨hsend, hrest _ _ hsent⟩⟩
  cases step with
  | get call => exact hcall call hrest
  | getWithin call =>
      refine hcall call fun memory state htidy => ?_
      obtain ⟨hclose, hclosed⟩ := ClientDeed.sound world threshold .close state htidy nofun
      exact List.forall_mem_cons.mpr ⟨hclose, hrest _ _ hclosed⟩
  | close =>
      obtain ⟨hclose, hclosed⟩ := ClientDeed.sound world threshold .close state htidy nofun
      exact List.forall_mem_cons.mpr ⟨hclose, hrest _ _ hclosed⟩
  | lose index =>
      obtain ⟨hlose, hlost⟩ := ClientDeed.sound world threshold (.lose index) state htidy nofun
      exact List.forall_mem_cons.mpr ⟨hlose, hrest _ _ hlost⟩

theorem moments_sound (steps : List ClientStep) {memory : Memory} (state : σ)
    (htidy : memory.client.Tidy 0) :
    ∀ moment ∈ moments world threshold (steps.flatMap ClientStep.deeds) memory state,
      moment.Sound := by
  induction steps generalizing memory state with
  | nil => exact List.forall_mem_nil _
  | cons step steps ih =>
      exact step.sound world threshold (fun memory state htidy => ih state htidy) state htidy

end Moments

section Run

variable (world : World (StateM σ)) (threshold : Nat) (settings : Settings) (options : Options)

theorem fetchSeries_settled (setup : Setup) (memory : Memory) (state : σ) :
    (fetchSeries world threshold settings options setup memory state).1.2.client.Settled
      memory.client.sessions.length := by
  have hvenue := venue_keeping (Client.Tidy memory.client.sessions.length)
    (fun _ htidy => htidy.ensureOpen) world threshold (progressLevel options)
  have hfetch := (keeping σ _).fetch hvenue settings.maxRetries setup.request options.range
    options.maxRecords setup.spacing memory state memory.client.settled_self.tidy
  exact hfetch.close

theorem obtainSeries_settled (memory : Memory) (state : σ) :
    (obtainSeries world threshold settings options memory state).1.2.client.Settled
      memory.client.sessions.length := by
  unfold obtainSeries
  rw [bind_memory, lift_memory]
  rcases prepare settings options with fault | (reason | setup)
  · exact memory.client.settled_self
  · exact memory.client.settled_self.tidy.close
  · exact fetchSeries_settled world threshold settings options setup memory _

theorem runFetch_settled (memory : Memory) (state : σ) :
    (runFetch world threshold settings options memory state).1.2.client.Settled
      memory.client.sessions.length := by
  have hobtained := obtainSeries_settled world threshold settings options memory state
  unfold runFetch
  rw [bind_memory]
  generalize obtainSeries world threshold settings options memory state = obtained at hobtained ⊢
  obtain ⟨⟨outcome, after⟩, state⟩ := obtained
  cases outcome with
  | ok candles => exact hobtained
  | error ending => exact hobtained

end Run

/-- Sessions do not leak. A client that is asked for pages and to close its session, in any order,
and whose sessions someone else closes in between, is sound at every moment, whatever its requests
come to; and a run of the program closes each session that it opens, however it ends. -/
theorem sessions_do_not_leak (world : World (StateM σ)) (threshold : Nat) :
    (∀ (address : String) (timeout : Number.Binary64) (wished : Bool) (steps : List ClientStep)
        (state : σ),
      let deeds := steps.flatMap ClientStep.deeds
      steps.forM (ClientStep.perform world threshold) =
          deeds.forM (ClientDeed.perform world threshold) ∧
        ∀ moment ∈ moments world threshold deeds ⟨Client.make address timeout, wished⟩ state,
          moment.Sound) ∧
    ∀ (settings : Settings) (options : Options) (memory : Memory) (state : σ),
      let after := (runFetch world threshold settings options memory state).1.2.client
      ∃ opened older, after.sessions = opened ++ older ∧
        older.length = memory.client.sessions.length ∧
        ∀ session ∈ opened, session.isClosed = true := by
  constructor
  · intro address timeout wished steps state deeds
    refine ⟨ClientStep.forM_perform world threshold steps, ?_⟩
    apply moments_sound
    exact Client.since_zero_iff.mpr (List.forall_mem_nil _)
  · exact fun settings options memory state =>
      runFetch_settled world threshold settings options memory state

end Program

end CandleHistory
