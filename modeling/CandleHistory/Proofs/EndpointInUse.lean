import CandleHistory.Proofs.Endpoint
import CandleHistory.Proofs.ExitStatus
import CandleHistory.Proofs.RepeatedRequests

/-!
Which address the requests of a run go to, and which exchange its first lines name. The client has
its address from the settings before the run begins and keeps it, so every request goes there. The
lines that open a run look at nothing but the exchange that is asked for: where another address is
given, they name an exchange that is not used.
-/

namespace CandleHistory

theorem Client.close_address (client : Client) : client.close.address = client.address := by
  unfold close
  split <;> rfl

namespace Program

open CommandLine (Options)
open Settings (Endpoint Named OverriddenAtMostBy)

/-- Something that a run lets others know. -/
inductive Note where
  | sent (request : HttpRequest)
  | logged (line : String)
  deriving DecidableEq

variable {σ α β : Type}

/-- Does something, and takes notes of it. -/
def overhearing (notes : List Note) (act : StateM σ α) : StateM (σ × List Note) α :=
  fun state => ((act state.1).1, (act state.1).2, state.2 ++ notes)

/-- The world in which notes are taken of what is sent and of what is logged. -/
def World.overheard (world : World (StateM σ)) : World (StateM (σ × List Note)) where
  now := overhearing [] world.now
  sleep seconds := overhearing [] (world.sleep seconds)
  send request := overhearing [.sent request] (world.send request)
  wallTime := overhearing [] world.wallTime
  print text := overhearing [] (world.print text)
  complain text := overhearing [] (world.complain text)
  logLine line := overhearing [.logged line] (world.logLine line)

section SendsNothing

/-- Something that at most adds lines to the log. -/
def SendsNothing (act : StateM (σ × List Note) α) : Prop :=
  ∀ state, ∃ lines : List String, (act state).2.2 = state.2 ++ lines.map .logged

theorem SendsNothing.pure (a : α) : SendsNothing (Pure.pure a : StateM (σ × List Note) α) :=
  fun _ => ⟨[], (List.append_nil _).symm⟩

theorem SendsNothing.bind {act : StateM (σ × List Note) α} {next : α → StateM (σ × List Note) β}
    (hact : SendsNothing act) (hnext : ∀ a, SendsNothing (next a)) :
    SendsNothing (act >>= next) := by
  intro state
  obtain ⟨lines, hlines⟩ := hact state
  obtain ⟨others, hothers⟩ := hnext (act state).1 (act state).2
  refine ⟨lines ++ others, ?_⟩
  rw [List.map_append, ← List.append_assoc, ← hlines]
  exact hothers

theorem overhearing_sendsNothing (act : StateM σ α) : SendsNothing (overhearing [] act) :=
  fun _ => ⟨[], rfl⟩

variable (world : World (StateM σ)) (threshold : Nat)

theorem log_sendsNothing (record : LogRecord) :
    SendsNothing (world.overheard.log threshold record) := by
  unfold World.log
  split
  · exact fun state => ⟨[record.line], rfl⟩
  · exact .pure _

theorem endWithout_sendsNothing (stop : Stop) :
    SendsNothing (endWithout world.overheard threshold stop) := by
  cases stop with
  | cancelled held => exact (log_sendsNothing world threshold _).bind fun _ => .pure _
  | aborted reason held => exact (log_sendsNothing world threshold _).bind fun _ => .pure _
  | broke fault => exact .pure _

theorem concludeFetch_sendsNothing (answer : Except Stop (List Candle)) :
    SendsNothing (concludeFetch world.overheard threshold answer) := by
  cases answer with
  | ok candles => exact .pure _
  | error stop => exact (endWithout_sendsNothing world threshold stop).bind fun _ => .pure _

/-- Sending nothing respects sequencing. -/
def sendingNothing (σ : Type) : Coupling (StateM (σ × List Note)) (StateM (σ × List Note)) where
  rel act _ := SendsNothing act
  pure := .pure
  bind := .bind

theorem output_sendsNothing (options : Options) (candles : List Candle) :
    SendsNothing (output world.overheard threshold options candles) := by
  have hprint (text : String) : (sendingNothing σ).rel (world.overheard.print text)
      (world.overheard.print text) := overhearing_sendsNothing _
  have hclock : (sendingNothing σ).rel world.overheard.wallTime world.overheard.wallTime :=
    overhearing_sendsNothing _
  have hrender : SendsNothing (render world.overheard options candles).run :=
    render_coupled options hprint hclock candles
  unfold output
  refine hrender.bind fun written => ?_
  cases written with
  | error fault => exact .pure _
  | ok done =>
      unfold endOutput
      dsimp only
      split
      · exact (log_sendsNothing world threshold _).bind fun _ => .pure _
      · exact .pure _

theorem settle_sendsNothing (ending : Ending) :
    SendsNothing (ending.settle world.overheard threshold) := by
  unfold Ending.settle
  split
  · exact (log_sendsNothing world threshold _).bind fun _ => .pure _
  · exact .pure _

end SendsNothing

section Aiming

/-- Notes that begin with some others, and after them tell only of requests to an address. -/
def SentTo (base : String) (front notes : List Note) : Prop :=
  ∃ rest, notes = front ++ rest ∧ ∀ request, .sent request ∈ rest →
    request.url = base ++ klineEndpoint

variable {base : String} {front notes : List Note}

theorem SentTo.refl (base : String) (front : List Note) : SentTo base front front :=
  ⟨[], (List.append_nil _).symm, nofun⟩

theorem SentTo.append (h : SentTo base front notes) {later : List Note}
    (hlater : ∀ request, .sent request ∈ later → request.url = base ++ klineEndpoint) :
    SentTo base front (notes ++ later) := by
  obtain ⟨rest, rfl, hrest⟩ := h
  refine ⟨rest ++ later, List.append_assoc _ _ _, fun request hmem => ?_⟩
  rcases List.mem_append.mp hmem with hin | hin
  · exact hrest request hin
  · exact hlater request hin

theorem SentTo.append_lines (h : SentTo base front notes) (lines : List String) :
    SentTo base front (notes ++ lines.map .logged) :=
  h.append fun _ hmem => by simp at hmem

/-- A client with an address keeps it, and requests go there. -/
def aiming (σ : Type) (base : String) (front : List Note) :
    Coupling (StateT Memory (StateM (σ × List Note))) (StateT Memory (StateM (σ × List Note))) where
  rel act _ := ∀ memory state, memory.client.address = base → SentTo base front state.2 →
    (act memory state).1.2.client.address = base ∧ SentTo base front (act memory state).2.2
  pure _ _ _ haddress hsent := ⟨haddress, hsent⟩
  bind hfirst hnext := by
    intro memory state haddress hsent
    obtain ⟨hnewAddress, hnewSent⟩ := hfirst memory state haddress hsent
    exact hnext _ _ _ hnewAddress hnewSent

variable (base front)

theorem lift_aiming {act : StateM (σ × List Note) α} (h : SendsNothing act) :
    (aiming σ base front).rel (liftM act) (liftM act) := by
  intro memory state haddress hsent
  obtain ⟨lines, hlines⟩ := h state
  refine ⟨haddress, ?_⟩
  change SentTo base front (act state).2.2
  rw [hlines]
  exact hsent.append_lines lines

theorem modify_aiming {change : Memory → Memory}
    (h : ∀ memory, (change memory).client.address = memory.client.address) :
    (aiming σ base front).rel (modify change) (modify change) :=
  fun memory _ haddress hsent => ⟨(h memory).trans haddress, hsent⟩

/-- What is made of the memory may count on its client's address. -/
theorem get_aiming {next : Memory → StateT Memory (StateM (σ × List Note)) α}
    (h : ∀ memory, memory.client.address = base →
      (aiming σ base front).rel (next memory) (next memory)) :
    (aiming σ base front).rel (get >>= next) (get >>= next) :=
  fun memory state haddress hsent => h memory haddress memory state haddress hsent

variable (world : World (StateM σ)) (threshold : Nat)

theorem send_aiming {request : HttpRequest} (h : request.url = base ++ klineEndpoint) :
    (aiming σ base front).rel (liftM (world.overheard.send request))
      (liftM (world.overheard.send request)) := by
  intro memory state haddress hsent
  refine ⟨haddress, hsent.append fun other hmem => ?_⟩
  rwa [Note.sent.inj (List.mem_singleton.mp hmem)]

/-- A call sends its request to the address of the client. -/
theorem callPage_aiming (call : PageCall) : (aiming σ base front).rel
    (callPage world.overheard threshold call) (callPage world.overheard threshold call) := by
  have hlog (record : LogRecord) := lift_aiming base front (log_sendsNothing world threshold record)
  have hrecords (records : List LogRecord) : (aiming σ base front).rel
      (records.forM fun record => liftM (world.overheard.log threshold record))
      (records.forM fun record => liftM (world.overheard.log threshold record)) :=
    Coupling.forM _ hlog records
  have hopen : (aiming σ base front).rel openSession openSession :=
    modify_aiming base front fun memory => memory.client.ensureOpen_address
  unfold callPage
  refine Coupling.bind _ hopen fun _ => ?_
  unfold sendCall
  refine get_aiming base front fun memory haddress => ?_
  have hurl : (memory.client.request (query call)).url = base ++ klineEndpoint := by
    rw [← haddress]
    rfl
  refine Coupling.bind _ (send_aiming base front world hurl) fun sent => ?_
  split
  · refine Coupling.bind _ (hlog _) fun _ => ?_
    refine Coupling.bind _ (modify_aiming base front fun _ => rfl) fun _ => ?_
    exact Coupling.bind _ (hrecords _) fun _ => Coupling.pure _ _
  · exact Coupling.bind _ (hrecords _) fun _ => Coupling.pure _ _

theorem venue_aiming (level : Level) : (venue world.overheard threshold level).Coupled
    (aiming σ base front) (venue world.overheard threshold level) where
  now := lift_aiming base front (overhearing_sendsNothing _)
  sleep _ := lift_aiming base front (overhearing_sendsNothing _)
  log record := lift_aiming base front (log_sendsNothing world threshold record)
  call := callPage_aiming base front world threshold
  cancelRequested := Coupling.bind _ (fun _ _ haddress hsent => ⟨haddress, hsent⟩) fun _ =>
    Coupling.pure _ _
  report _ := lift_aiming base front
    ((log_sendsNothing world threshold _).bind fun _ => .pure _)

theorem closeClient_aiming : (aiming σ base front).rel closeClient closeClient :=
  modify_aiming base front fun memory => memory.client.close_address

variable (settings : Settings) (options : Options)

theorem fetchSeries_aiming (setup : Setup) : (aiming σ base front).rel
    (fetchSeries world.overheard threshold settings options setup)
    (fetchSeries world.overheard threshold settings options setup) := by
  unfold fetchSeries
  refine Coupling.bind _ (Coupling.fetch _ (venue_aiming base front world threshold _) _ _ _ _ _)
    fun reply => ?_
  refine Coupling.bind _ (lift_aiming base front
    (concludeFetch_sendsNothing world threshold reply.1)) fun outcome => ?_
  exact Coupling.bind _ (closeClient_aiming base front) fun _ => Coupling.pure _ _

end Aiming

section Run

variable (world : World (StateM σ)) (threshold : Nat) (settings : Settings) (options : Options)

/-- The note of a log record, if it is shown. -/
def shown (threshold : Nat) (record : LogRecord) : List Note :=
  if threshold ≤ record.level.rank then [.logged record.line] else []

/-- The notes of the lines that open a run. -/
def opening : List Note :=
  if writesEvents options then []
  else (banner settings options).flatMap fun line => shown threshold ⟨.info, .program, line⟩

theorem not_mem_opening (request : HttpRequest) :
    .sent request ∉ opening threshold settings options := by
  have hshown (record : LogRecord) : .sent request ∉ shown threshold record := by
    unfold shown
    split <;> simp
  unfold opening
  split
  · exact List.not_mem_nil
  · intro hmem
    obtain ⟨line, -, hline⟩ := List.mem_flatMap.mp hmem
    exact hshown _ hline

/-- The lines that open a run are shown, unless the log is too quiet or events are to be written. -/
theorem opening_of_shown {level : Nat} {settings : Settings} {options : Options}
    (hlevel : level ≤ Level.info.rank) (htable : writesEvents options = false) :
    opening level settings options = (banner settings options).map fun line =>
      .logged (LogRecord.line ⟨.info, .program, line⟩) := by
  unfold opening shown
  rw [htable]
  simp only [hlevel, if_true, Bool.false_eq_true, if_false]
  exact List.map_eq_flatMap.symm

theorem log_overheard (record : LogRecord) (state : σ × List Note) :
    (world.overheard.log threshold record state).2.2 = state.2 ++ shown threshold record := by
  unfold World.log shown
  split
  · rfl
  · exact (List.append_nil _).symm

theorem showBanner_overheard (state : σ × List Note) :
    (showBanner world.overheard threshold settings options state).2.2 =
      state.2 ++ opening threshold settings options := by
  unfold showBanner opening
  split
  · exact (List.append_nil _).symm
  · induction banner settings options generalizing state with
    | nil => exact (List.append_nil _).symm
    | cons line lines ih =>
        have hline := log_overheard world threshold ⟨.info, .program, line⟩ state
        rw [List.flatMap_cons, ← List.append_assoc, ← hline]
        exact ih _

theorem obtainSeries_sentTo (memory : Memory) (state : σ × List Note) :
    SentTo memory.client.address (state.2 ++ opening threshold settings options)
      (obtainSeries world.overheard threshold settings options memory state).2.2 := by
  have hfront := SentTo.refl memory.client.address
    (showBanner world.overheard threshold settings options state).2.2
  rw [← showBanner_overheard world]
  generalize hbase : memory.client.address = base at hfront ⊢
  generalize hbegin : showBanner world.overheard threshold settings options state = begun
    at hfront ⊢
  unfold obtainSeries
  rw [bind_memory, lift_memory, hbegin]
  rcases prepare settings options with fault | (reason | setup)
  · exact hfront
  · exact ((Coupling.bind (aiming σ base begun.2.2)
      (lift_aiming base begun.2.2 (log_sendsNothing world threshold _)) fun _ =>
        closeClient_aiming base begun.2.2) memory begun.2 hbase hfront).2
  · exact (fetchSeries_aiming base begun.2.2 world threshold settings options setup memory begun.2
      hbase hfront).2

theorem runFetch_sentTo (memory : Memory) (state : σ × List Note) :
    SentTo memory.client.address (state.2 ++ opening threshold settings options)
      (runFetch world.overheard threshold settings options memory state).2.2 := by
  have hobtained := obtainSeries_sentTo world threshold settings options memory state
  unfold runFetch
  rw [bind_memory]
  generalize obtainSeries world.overheard threshold settings options memory state = obtained
    at hobtained ⊢
  obtain ⟨⟨outcome, after⟩, state⟩ := obtained
  cases outcome with
  | error ending => exact hobtained
  | ok candles =>
      obtain ⟨lines, hlines⟩ := output_sendsNothing world threshold options candles state
      dsimp only
      rw [lift_memory]
      dsimp only
      rw [hlines]
      exact hobtained.append_lines lines

variable {loader : FileLoader} {environment : Environment} {file : String}
  {arguments : List String} {settings : Settings} {options : Options} {level : Nat}

theorem complained_overheard (state : σ × List Note) :
    (complained world.overheard loader environment file state).2 = state.2 := by
  unfold complained
  induction loader.complaints environment file generalizing state with
  | nil => rfl
  | cons complaint complaints ih => exact (ih _).trans (List.append_nil _)

theorem runOptions_sentTo {usual : Nat} (h : chooseLevel usual options = .ok level)
    (state : σ × List Note) :
    SentTo (Memory.initial (withFlags settings options)).client.address
      (state.2 ++ opening level (withFlags settings options) options)
      (runOptions world.overheard usual settings options state).2.2 := by
  have hfetch := runFetch_sentTo world level (withFlags settings options) options
    (.initial (withFlags settings options)) state
  unfold Memory.initial at hfetch ⊢
  unfold runOptions
  rw [h]
  dsimp only [StateT.run]
  generalize runFetch world.overheard level (withFlags settings options) options
    { client := .make (withFlags settings options).address (withFlags settings options).timeout } =
      fetched at hfetch ⊢
  obtain ⟨lines, hlines⟩ := settle_sendsNothing world level (fetched state).1.1 (fetched state).2
  change SentTo _ _ (Ending.settle world.overheard level (fetched state).1.1 (fetched state).2).2.2
  rw [hlines]
  exact hfetch.append_lines lines

/-- The notes of a run that begins to fetch: the lines that open it, and then only requests to the
address that the settings have come to. -/
theorem run_sentTo (h : Reaches loader environment file arguments settings options level)
    (state : σ) :
    SentTo (Memory.initial (withFlags settings options)).client.address
      (opening level (withFlags settings options) options)
      (run world.overheard loader environment file arguments (state, [])).2.2 := by
  obtain ⟨hconfigured, haccepted, usual, husual, hlevel⟩ := h
  have hrun : SentTo _ _ (runOptions world.overheard usual settings options
      (complained world.overheard loader environment file (state, []))).2.2 :=
    runOptions_sentTo world hlevel _
  rw [complained_overheard, List.nil_append] at hrun
  rw [run_of_configured hconfigured]
  unfold runArguments
  rw [husual]
  dsimp only
  rw [haccepted]
  exact hrun

/-- A run that does not begin to fetch, although settings and options are accepted, sends nothing
and logs nothing. -/
theorem run_of_not_reaches (hconfigured : Configured loader environment file settings)
    (haccepted : Options.read arguments = .options options)
    (h : ∀ level, ¬ Reaches loader environment file arguments settings options level) (state : σ) :
    (run world.overheard loader environment file arguments (state, [])).2.2 = [] := by
  have hquiet : (complained world.overheard loader environment file (state, [])).2 = [] :=
    complained_overheard world (state, [])
  rw [run_of_configured hconfigured]
  unfold runArguments
  cases husual : threshold settings.logLevel with
  | error fault => exact hquiet
  | ok usual =>
      dsimp only
      rw [haccepted]
      dsimp only
      unfold runOptions
      cases hlevel : chooseLevel usual options with
      | error fault => exact hquiet
      | ok level => exact absurd ⟨hconfigured, haccepted, usual, husual, hlevel⟩ (h level)

end Run

section Configured

variable {loader : FileLoader} {environment : Environment} {file : String} {settings : Settings}
  (h : Configured loader environment file settings) (hloader : loader.AddsOnly) (options : Options)

include h hloader

theorem Configured.asksForTestnet_iff :
    Settings.AsksForTestnet (loader.given environment file) options.testnet ↔
      (withFlags settings options).testnet = true := by
  obtain ⟨loaded, hload, hsettings⟩ := h
  have htestnet := (Settings.endpoint_variables hsettings).1
  rw [hloader.lookup_of_load hload] at htestnet
  rw [Settings.asksForTestnet_iff, ← htestnet]
  rfl

theorem Configured.endpoint : Endpoint (loader.given environment file) options.testnet
    (withFlags settings options).address := by
  apply Settings.endpoint_address (h.asksForTestnet_iff hloader options)
  obtain ⟨loaded, hload, hsettings⟩ := h
  rw [← hloader.lookup_of_load hload]
  exact (Settings.endpoint_variables hsettings).2

/-- The last of the lines that open a run names the exchange that is asked for. -/
theorem Configured.banner_names : ∃ word named,
    (banner (withFlags settings options) options).getLast? = some ("Using: " ++ word) ∧
      Named (loader.given environment file) options.testnet word named := by
  have hasks := h.asksForTestnet_iff hloader options
  unfold banner
  cases htestnet : (withFlags settings options).testnet with
  | true => exact ⟨_, _, rfl, .testnet (hasks.mpr htestnet)⟩
  | false => exact ⟨_, _, rfl, .mainnet fun hasked => by simp [hasks.mp hasked] at htestnet⟩

end Configured

/-- Where a run sends its requests. With the flag they go to the test exchange exactly if no other
address is given, or if there is no request at all. -/
structure SendsTo (value? : String → Option String) (options : Options) (notes : List Note)
    (base : String) : Prop where
  endpoint : ∃ address, Endpoint value? options.testnet address ∧ Text.Stem address base
  requests : ∀ request, .sent request ∈ notes → request.url = base ++ klineEndpoint
  flag_iff : options.testnet = true →
    ((∀ request, .sent request ∈ notes → request.url = Settings.testnetAddress ++ klineEndpoint) ↔
      (∀ request, .sent request ∉ notes) ∨ OverriddenAtMostBy value? Settings.testnetAddress)

theorem sendsTo_of_endpoint {value? : String → Option String} {options : Options}
    {address base : String} {notes : List Note}
    (hendpoint : Endpoint value? options.testnet address) (hbase : Text.Stem address base)
    (hrequests : ∀ request, .sent request ∈ notes → request.url = base ++ klineEndpoint) :
    SendsTo value? options notes base := by
  refine ⟨⟨address, hendpoint, hbase⟩, hrequests, fun hflag => ?_⟩
  have hiff := hendpoint.eq_named_iff hbase (.testnet (.inl hflag))
  constructor
  · intro hall
    by_cases hsome : ∃ request, .sent request ∈ notes
    case pos =>
      obtain ⟨request, hmem⟩ := hsome
      have hsame := (hrequests request hmem).symm.trans (hall request hmem)
      exact .inr (hiff.mp ((String.append_left_inj _).mp hsame))
    case neg => exact .inl fun request hmem => hsome ⟨request, hmem⟩
  · rintro (hnone | hatMost) request hmem
    · exact absurd hmem (hnone request)
    · rw [hrequests request hmem, hiff.mpr hatMost]

/-- What the first lines of a run say about the exchange. The last of them names the one that is
asked for; its address is the one in use exactly if no other address is given. -/
structure OpensWith (value? : String → Option String) (options : Options) (lines : List String)
    (notes : List Note) (base : String) : Prop where
  first : (lines.map fun line => .logged (LogRecord.line ⟨.info, .program, line⟩)) <+: notes
  names : ∃ word named, lines.getLast? = some ("Using: " ++ word) ∧
    Named value? options.testnet word named ∧ (named = base ↔ OverriddenAtMostBy value? named)

/-- Which endpoint a run uses, and what it says about it. The loader of files is taken to leave the
variables alone that are set. Whatever is in the environment, in the file and on the command line,
if settings and options are accepted then all requests go to one address. It is the one given by a
variable, if this is not empty, even if the flag asks for the test exchange. The first lines of the
run know nothing of it. -/
theorem run_endpoint {loader : FileLoader} (hloader : loader.AddsOnly) {environment : Environment}
    {file : String} {arguments : List String} {settings : Settings} {options : Options}
    (hconfigured : Configured loader environment file settings)
    (haccepted : Options.read arguments = .options options) (world : World (StateM σ)) (state : σ) :
    let value? := loader.given environment file
    let notes := (run world.overheard loader environment file arguments (state, [])).2.2
    ∃ base, SendsTo value? options notes base ∧
      ∀ level, Reaches loader environment file arguments settings options level →
        level ≤ Level.info.rank → writesEvents options = false →
          OpensWith value? options (banner (withFlags settings options) options) notes base := by
  intro value? notes
  have hendpoint := hconfigured.endpoint hloader options
  have hbase : Text.Stem _ (Memory.initial (withFlags settings options)).client.address :=
    Client.stem_address _ _
  have hsent (level : Nat) (h : Reaches loader environment file arguments settings options level) :
      SentTo _ _ notes := run_sentTo world h state
  generalize (Memory.initial (withFlags settings options)).client.address = base at hbase hsent
  refine ⟨base, sendsTo_of_endpoint hendpoint hbase fun request hmem => ?_,
    fun level hreaches hlevel htable => ?_⟩
  · by_cases hreaches : ∃ level, Reaches loader environment file arguments settings options level
    case pos =>
      obtain ⟨level, hlevel⟩ := hreaches
      obtain ⟨rest, hnotes, hrest⟩ := hsent level hlevel
      rw [hnotes] at hmem
      rcases List.mem_append.mp hmem with hfirst | hlater
      · exact absurd hfirst (not_mem_opening _ _ _ _)
      · exact hrest request hlater
    case neg =>
      have hnone : notes = [] := run_of_not_reaches world hconfigured haccepted
        (fun level hlevel => hreaches ⟨level, hlevel⟩) state
      rw [hnone] at hmem
      cases hmem
  · obtain ⟨rest, hnotes, -⟩ := hsent level hreaches
    obtain ⟨word, named, hlast, hnamed⟩ := hconfigured.banner_names hloader options
    have hiff := hendpoint.eq_named_iff hbase hnamed
    rw [opening_of_shown hlevel htable] at hnotes
    exact ⟨⟨rest, hnotes.symm⟩, word, named, hlast, hnamed, eq_comm.trans hiff⟩

theorem exists_configured {loader : FileLoader} {environment : Environment} {file : String}
    {check : Settings → Bool}
    (h : ((loader.load environment file).toOption.bind fun loaded =>
      (Settings.ofEnvironment loaded).toOption).any check = true) :
    ∃ settings, Configured loader environment file settings ∧ check settings = true := by
  cases hload : loader.load environment file with
  | error fault =>
      rw [hload] at h
      cases h
  | ok loaded =>
      rw [hload] at h
      change (Settings.ofEnvironment loaded).toOption.any check = true at h
      cases hsettings : Settings.ofEnvironment loaded with
      | error reason =>
          rw [hsettings] at h
          cases h
      | ok settings =>
          rw [hsettings] at h
          exact ⟨settings, ⟨loaded, hload, hsettings⟩, h⟩

/-- Whether notes tell of a request to an address. -/
def tellsOf (url : String) (notes : List Note) : Bool :=
  notes.any fun
    | .sent request => request.url == url
    | .logged _ => false

/-- With an address in the environment and another one in the file, a run that is asked for the test
exchange says that it uses it, and sends its requests elsewhere. -/
theorem run_endpoint_mirror :
    let environment := [("BYBIT_BASE_URL", "https://mirror.example/")]
    let file := "BYBIT_BASE_URL=https://other.example\n"
    let arguments := ["--start-date", "2024/01/01", "--end-date", "2024/01/02", "--testnet"]
    let options := { oneDay with testnet := true }
    let value? := FileLoader.plain.given environment file
    let notes := (run (World.answering noBars).overheard .plain environment file arguments
      ((), [])).2.2
    (∃ base lines, SendsTo value? options notes base ∧
      OpensWith value? options lines notes base) ∧
      .logged "INFO    | Using: Testnet" ∈ notes ∧
      tellsOf "https://mirror.example/v5/market/kline" notes = true := by
  intro environment file arguments options value? notes
  have hread : Options.read arguments = .options options :=
    CommandLine.Outcome.eq_options (by decide +kernel)
  obtain ⟨settings, hconfigured, hword⟩ : ∃ settings, Configured .plain environment file settings ∧
      (settings.logLevel == "INFO") = true := exists_configured (by decide +kernel)
  have hupper : Text.upper "INFO" = "INFO" := by decide +kernel
  have husual : threshold settings.logLevel = .ok Level.info.rank := by
    rw [eq_of_beq hword, threshold, hupper]
    rfl
  have hreaches : Reaches .plain environment file arguments settings options Level.info.rank :=
    ⟨hconfigured, hread, _, husual, rfl⟩
  obtain ⟨base, hsends, hopens⟩ :=
    run_endpoint FileLoader.plain_addsOnly hconfigured hread (World.answering noBars) ()
  exact ⟨⟨base, _, hsends, hopens _ hreaches (Nat.le_refl _) rfl⟩, by decide +kernel,
    by decide +kernel⟩

end Program

end CandleHistory
