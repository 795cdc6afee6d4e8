import LibZio.SocketCli.Steps

/-! # Who joins the reader thread of a client

An asynchronous client joins the thread of its connection when it closes the descriptor. That is
right exactly when every connection, also one that a failed `connect` leaves half open, gets one
reader thread before it is closed and no second one: without a thread the join reads an identifier
that was never set for the connection, and a second thread overwrites the identifier of the first,
which is then never joined (`socketCli_joinsReaders_iff`). -/

namespace LibZio

/-- Every join is of a thread that was created in the current connection. -/
def JoinsCurrent : List CliEvent → Prop
  | [] => True
  | .joined t :: es => (∃ u ∈ connectionThreads es, t = some u) ∧ JoinsCurrent es
  | _ :: es => JoinsCurrent es

/-- Thread ownership, of one call: only running threads of the current connection are joined, and
every thread has been joined once when the client is freed. -/
structure JoinsReaders (w' : CliWorld) : Prop where
  current : JoinsCurrent w'.trace
  joinedOnce : Ledger.Sound CliEvent.onThreads w'.trace
  destroyed : w'.cli = none →
    (Ledger.acquired CliEvent.onThreads w'.trace).Perm
      (Ledger.released CliEvent.onThreads w'.trace)

/-- A connection is closed after its reader thread was created, and gets no second one. -/
def OneReader (w : CliWorld) : CliCall → Prop
  | .connect _ => True
  | .registerNotify _ _ => w.isConnected = true → connectionThreads w.trace = []
  | .disconnect => w.holdsSocket = true → connectionThreads w.trace ≠ []
  | .destory => w.holdsSocket = true → connectionThreads w.trace ≠ []

instance (w : CliWorld) : ∀ c, Decidable (OneReader w c)
  | .connect _ => inferInstanceAs (Decidable True)
  | .registerNotify _ _ =>
      inferInstanceAs (Decidable (w.isConnected = true → connectionThreads w.trace = []))
  | .disconnect | .destory =>
      inferInstanceAs (Decidable (w.holdsSocket = true → connectionThreads w.trace ≠ []))

/-- What runs besides a client `s` that has a descriptor: nothing, or the one thread of its
connection. -/
inductive Readers (s : SocketCli) (w : CliWorld) : Prop
  | none (fresh : connectionThreads w.trace = []) (idle : w.running = [])
  | one (t : Tid) (on : s.isConnect = true) (own : connectionThreads w.trace = [t])
      (runs : w.running = [some t]) (id : s.backendData.tId = some t)

/-- The invariant of an asynchronous client whose connections have one reader each. -/
structure ReadersOwned (w : CliWorld) : Prop where
  current : JoinsCurrent w.trace
  sound : Ledger.Sound CliEvent.onThreads w.trace
  async : ∀ s, w.cli = some s → s.async ≠ 0
  connected : ∀ s, w.cli = some s → s.isConnect = true → s.backendData.socketId ≠ INVALID_SOCKET
  readers : ∀ s, w.cli = some s → s.backendData.socketId ≠ INVALID_SOCKET → Readers s w
  idle : w.holdsSocket = false → w.running = []

variable {w w' : CliWorld}

/-- Whether a client that is there has a descriptor. -/
theorem CliWorld.holdsSocket_eq {s : SocketCli} (cli : w.cli = some s) :
    w.holdsSocket = decide (s.backendData.socketId ≠ INVALID_SOCKET) := by
  rw [CliWorld.holdsSocket, cli, Option.any_some]

namespace ReadersOwned

/-- A new client has no threads. -/
theorem initial (remoteAddr : SockaddrIn) {async : ℤ} (conTimeout : ℤ) (h : async ≠ 0) :
    ReadersOwned (socketCliNew remoteAddr async conTimeout) where
  current := trivial
  sound := trivial
  async s hs := by cases hs; exact h
  connected s hs on := by cases hs; cases on
  readers s hs valid := by cases hs; exact absurd rfl valid
  idle _ := rfl

/-- No thread runs besides a client that is not connected. -/
theorem running_of_off (inv : ReadersOwned w) {s : SocketCli} (cli : w.cli = some s)
    (off : s.isConnect = false) : w.running = [] := by
  by_cases valid : s.backendData.socketId = INVALID_SOCKET
  · apply inv.idle
    rw [CliWorld.holdsSocket_eq cli, decide_eq_false_iff_not]
    exact not_not.mpr valid
  · rcases inv.readers s cli valid with ⟨-, idle⟩ | ⟨t, on, -, -, -⟩
    · exact idle
    · exact absurd (off.symm.trans on) Bool.false_ne_true

/-- A new descriptor starts a connection without threads. -/
theorem opens (inv : ReadersOwned w) {s s' : SocketCli} {fd : ℕ} {es : List CliEvent}
    (cli : w.cli = some s) (off : s.isConnect = false) (id : s'.backendData.socketId = fd)
    (async : s'.async = s.async) (current : JoinsCurrent es)
    (sound : Ledger.Sound CliEvent.onThreads es) (fresh : connectionThreads es = [])
    (same : Ledger.held CliEvent.onThreads es = w.running) : ReadersOwned ⟨some s', es⟩ := by
  have idle : Ledger.held CliEvent.onThreads es = [] := by
    rw [same]
    exact inv.running_of_off cli off
  have valid : s'.backendData.socketId ≠ INVALID_SOCKET := by
    rw [id]
    unfold INVALID_SOCKET
    omega
  constructor
  case current => exact current
  case sound => exact sound
  case async =>
    intro t ht
    cases ht
    rw [async]
    exact inv.async s cli
  case connected =>
    intro t ht on
    cases ht
    exact valid
  case readers =>
    intro t ht _
    cases ht
    exact .none fresh idle
  case idle =>
    intro _
    exact idle

/-- Writing a client that has no descriptor and is not connected. -/
theorem put_invalid (inv : ReadersOwned w) {s s' : SocketCli} (cli : w.cli = some s)
    (invalid : s'.backendData.socketId = INVALID_SOCKET) (off : s'.isConnect = false)
    (async : s'.async = s.async) (idle : w.running = []) : ReadersOwned (w.put s') where
  current := inv.current
  sound := inv.sound
  async t ht := by
    cases ht
    rw [async]
    exact inv.async s cli
  connected t ht on := by
    cases ht
    exact absurd (off.symm.trans on) Bool.false_ne_true
  readers t ht valid := by
    cases ht
    exact absurd invalid valid
  idle _ := idle

/-- `socket_connect` keeps the invariant. -/
theorem connects (inv : ReadersOwned w) {answer : ConnectAnswer} {rc : ℤ}
    (h : Connects answer w rc w') : ReadersOwned w' := by
  cases h with
  | busy => exact inv
  | noSocket cli off => exact inv.put_invalid cli rfl off rfl (inv.running_of_off cli off)
  | refused cli off => exact inv.opens cli off rfl rfl inv.current inv.sound rfl rfl
  | connected cli off => exact inv.opens cli off rfl rfl inv.current inv.sound rfl rfl

/-- The first `socket_register_notify` of a connection keeps the invariant. -/
theorem registers (inv : ReadersOwned w) {recvCb : Cb} {thread : Option Tid}
    (h : Registers recvCb thread w w')
    (first : w.isConnected = true → connectionThreads w.trace = []) : ReadersOwned w' := by
  -- the connection has no thread yet
  have before : ∀ {s : SocketCli}, w.cli = some s → s.isConnect = true →
      connectionThreads w.trace = [] ∧ w.running = [] := by
    intro s cli on
    have fresh := first (by rw [CliWorld.isConnected, cli]; exact on)
    rcases inv.readers s cli (inv.connected s cli on) with ⟨-, idle⟩ | ⟨t, -, own, -, -⟩
    · exact ⟨fresh, idle⟩
    · exact absurd (fresh.symm.trans own) (List.cons_ne_nil t []).symm
  cases h with
  | refused => exact inv
  | @noThread s cli on =>
      obtain ⟨fresh, idle⟩ := before cli on
      constructor
      case current => exact inv.current
      case sound => exact inv.sound
      case async => intro t ht; cases ht; exact inv.async s cli
      case connected => intro t ht; cases ht; exact inv.connected s cli
      case readers => intro t ht _; cases ht; exact .none fresh idle
      case idle => intro _; exact idle
  | @created s t cli on =>
      obtain ⟨fresh, idle⟩ := before cli on
      have runs : Ledger.held CliEvent.onThreads (.created t :: w.trace) = [some t] := by
        change some t :: w.running = [some t]
        rw [idle]
      have own : connectionThreads (.created t :: w.trace) = [t] := by
        rw [connectionThreads, fresh]
      constructor
      case current => exact inv.current
      case sound => exact inv.sound
      case async => intro u hu; cases hu; exact inv.async s cli
      case connected => intro u hu; cases hu; exact inv.connected s cli
      case readers => intro u hu _; cases hu; exact .one t on own runs rfl
      case idle =>
        intro none
        have valid := inv.connected s cli on
        exact absurd (none.symm.trans (decide_eq_true valid)) Bool.false_ne_true

/-- A disconnection of a connection that has its thread keeps the invariant and leaves no thread. -/
theorem disconnects (inv : ReadersOwned w) (h : Disconnects w w')
    (some : w.holdsSocket = true → connectionThreads w.trace ≠ []) :
    ReadersOwned w' ∧ w'.running = [] := by
  cases h with
  | @idle s cli invalid =>
      have idle : w.running = [] := by
        apply inv.idle
        rw [CliWorld.holdsSocket_eq cli, decide_eq_false_iff_not]
        exact not_not.mpr invalid
      exact ⟨inv.put_invalid cli rfl rfl rfl idle, idle⟩
  | @closed s cli valid =>
      have has := some (by rw [CliWorld.holdsSocket_eq cli]; exact decide_eq_true valid)
      rcases inv.readers s cli valid with ⟨fresh, -⟩ | ⟨t, -, own, runs, id⟩
      · exact absurd fresh has
      · have closing : s.closing = [.closed s.backendData.socketId, .joined (.some t)] := by
          rw [SocketCli.closing, if_pos (inv.async s cli), id]
        have idle : Ledger.held CliEvent.onThreads (s.closing ++ w.trace) = [] := by
          have joined : Ledger.held CliEvent.onThreads (.joined (.some t) :: w.trace) = [] :=
            Ledger.held_release_single CliEvent.onThreads rfl runs
          rw [closing]
          exact joined
        refine ⟨?_, idle⟩
        constructor
        case current =>
          change JoinsCurrent (s.closing ++ w.trace)
          rw [closing]
          refine ⟨⟨t, ?_, rfl⟩, inv.current⟩
          change t ∈ connectionThreads w.trace
          rw [own]
          exact List.mem_singleton_self t
        case sound =>
          change Ledger.Sound CliEvent.onThreads (s.closing ++ w.trace)
          rw [closing]
          refine ⟨?_, inv.sound⟩
          change Option.some t ∈ w.running
          rw [runs]
          exact List.mem_singleton_self _
        case async => intro u hu; cases hu; exact inv.async s cli
        case connected => intro u hu on; cases hu; cases on
        case readers => intro u hu ok; cases hu; exact absurd rfl ok
        case idle => intro _; exact idle

/-- **Every call that gives a connection its one reader keeps the invariant.** -/
theorem step (inv : ReadersOwned w) {c : CliCall} (h : CliStep w c w') (fits : OneReader w c) :
    ReadersOwned w' := by
  cases h with
  | connect h => exact inv.connects h
  | registerNotify h => exact inv.registers h fits
  | disconnect h => exact (inv.disconnects h fits).1
  | destory h =>
      obtain ⟨inv', idle⟩ := inv.disconnects h fits
      constructor
      case current => exact inv'.current
      case sound => exact inv'.sound
      case async => intro s hs; cases hs
      case connected => intro s hs; cases hs
      case readers => intro s hs; cases hs
      case idle => intro _; exact idle

/-- The invariant gives the property. -/
theorem joinsReaders (inv : ReadersOwned w) : JoinsReaders w where
  current := inv.current
  joinedOnce := inv.sound
  destroyed h := by
    refine (Ledger.held_eq_nil_iff _ inv.sound).mp (inv.idle ?_)
    rw [CliWorld.holdsSocket, h]
    rfl

end ReadersOwned

/-! ## A thread out of reach -/

/-- A thread runs whose identifier the client no longer has. -/
def LostReader (w : CliWorld) : Prop :=
  ∃ s t, w.cli = some s ∧ some t ∈ w.running ∧ s.backendData.tId ≠ some t

/-- A thread out of reach runs on after a disconnection. -/
theorem LostReader.disconnects (lost : LostReader w) (h : Disconnects w w') : LostReader w' := by
  obtain ⟨s, t, cli, runs, other⟩ := lost
  cases h with
  | @idle s' cli' =>
      obtain rfl : s = s' := Option.some.inj (cli.symm.trans cli')
      exact ⟨_, t, rfl, runs, other⟩
  | @closed s' cli' =>
      obtain rfl : s = s' := Option.some.inj (cli.symm.trans cli')
      refine ⟨_, t, rfl, ?_, other⟩
      change some t ∈ Ledger.held CliEvent.onThreads (s.closing ++ w.trace)
      have still : some t ∈ Ledger.held CliEvent.onThreads (.joined s.backendData.tId :: w.trace) :=
        Ledger.mem_held_of_ne CliEvent.onThreads rfl other.symm runs
      unfold SocketCli.closing
      split
      · exact still
      · exact runs

/-- **A thread out of reach stays so** in every run that has joined all threads at the end. -/
theorem LostReader.step (lost : LostReader w) {c : CliCall} (h : CliStep w c w')
    (joins : JoinsReaders w') : LostReader w' := by
  cases h with
  | connect h =>
      obtain ⟨s, t, cli, runs, other⟩ := lost
      cases h with
      | busy => exact ⟨s, t, cli, runs, other⟩
      | @noSocket s' cli' | @refused s' _ cli' | @connected s' _ cli' =>
          obtain rfl : s = s' := Option.some.inj (cli.symm.trans cli')
          exact ⟨_, t, rfl, runs, other⟩
  | registerNotify h =>
      obtain ⟨s, t, cli, runs, other⟩ := lost
      cases h with
      | refused => exact ⟨s, t, cli, runs, other⟩
      | noThread => exact ⟨_, t, rfl, runs, nofun⟩
      | @created s' u cli' on async given fresh =>
          refine ⟨_, t, rfl, List.mem_cons_of_mem _ runs, fun same => fresh ?_⟩
          rw [SocketCli.setReader_tId] at same
          rw [same]
          exact runs
  | disconnect h => exact lost.disconnects h
  | @destory w₁ h =>
      -- the freed client has joined all threads, but this one still runs
      obtain ⟨s, t, cli, runs, other⟩ := lost.disconnects h
      have none := (Ledger.held_eq_nil_iff _ joins.joinedOnce).mpr (joins.destroyed rfl)
      have none' : w₁.running = [] := none
      rw [none'] at runs
      cases runs

/-- A call with the property either gives the connection its one reader or loses a thread. -/
theorem ReadersOwned.oneReader_or_lost (inv : ReadersOwned w) {c : CliCall} (h : CliStep w c w')
    (joins : JoinsReaders w') : OneReader w c ∨ LostReader w' := by
  -- a client with a descriptor that has no thread joins one that is not its own
  have disconnect : ∀ {v : CliWorld}, Disconnects w v → JoinsCurrent v.trace →
      w.holdsSocket = true → connectionThreads w.trace ≠ [] := by
    intro v hd current holds fresh
    cases hd with
    | idle cli invalid =>
        rw [CliWorld.holdsSocket_eq cli, decide_eq_true_eq] at holds
        exact holds invalid
    | @closed s cli valid =>
        change JoinsCurrent (s.closing ++ w.trace) at current
        rw [SocketCli.closing, if_pos (inv.async s cli)] at current
        obtain ⟨u, hu, -⟩ := current.1
        change u ∈ connectionThreads w.trace at hu
        rw [fresh] at hu
        cases hu
  cases h with
  | connect h => exact .inl trivial
  | disconnect h => exact .inl (disconnect h joins.current)
  | destory h => exact .inl (disconnect h joins.current)
  | registerNotify h =>
      by_cases fits : w.isConnected = true → connectionThreads w.trace = []
      · exact .inl fits
      · obtain ⟨conn, has⟩ := Classical.not_imp.mp fits
        right
        -- the connection has its thread `t`, whose identifier the registration overwrites
        have reader : ∀ {s : SocketCli}, w.cli = some s → s.isConnect = true →
            ∃ t, some t ∈ w.running := by
          intro s cli on
          rcases inv.readers s cli (inv.connected s cli on) with ⟨fresh, -⟩ | ⟨t, -, -, runs, -⟩
          · exact absurd fresh has
          · exact ⟨t, by rw [runs]; exact List.mem_singleton_self _⟩
        cases h with
        | refused cli off =>
            rw [CliWorld.isConnected, cli, Option.any_some] at conn
            rcases off with off | sync
            · exact absurd (off.symm.trans conn) Bool.false_ne_true
            · exact absurd sync (inv.async _ cli)
        | noThread cli on =>
            obtain ⟨t, runs⟩ := reader cli on
            refine ⟨_, t, rfl, runs, fun same => ?_⟩
            cases same
        | @created s u cli on async given fresh =>
            obtain ⟨t, runs⟩ := reader cli on
            refine ⟨_, t, rfl, List.mem_cons_of_mem _ runs, fun same => fresh ?_⟩
            rw [SocketCli.setReader_tId] at same
            rw [same]
            exact runs

/-- **Reader-thread ownership.** In a run of an asynchronous client up to its destruction, every
call respects the ownership of reader threads if and only if every connection is closed with exactly
one reader thread. -/
theorem socketCli_joinsReaders_iff (remoteAddr : SockaddrIn) {async : ℤ} (conTimeout : ℤ)
    (hasync : async ≠ 0) {is : List CliCall}
    (h : (socketCli remoteAddr async conTimeout).run is
      (socketCliNew remoteAddr async conTimeout) = .ok w) (freed : w.cli = none) :
    (socketCli remoteAddr async conTimeout).Throughout (fun _ _ w' => JoinsReaders w') is
        (socketCliNew remoteAddr async conTimeout) ↔
      (socketCli remoteAddr async conTimeout).Meets OneReader is
        (socketCliNew remoteAddr async conTimeout) := by
  have start := ReadersOwned.initial remoteAddr conTimeout hasync
  constructor
  · intro all
    refine all.meets_or (D := LostReader) (fun s i s' inv joins hs => ?_)
      (fun s i s' lost joins hs => lost.step (CliCall.run_step hs) joins) start h ?_
    · rcases inv.oneReader_or_lost (CliCall.run_step hs) joins with fits | lost
      · exact .inl ⟨fits, inv.step (CliCall.run_step hs) fits⟩
      · exact .inr lost
    · rintro ⟨s, t, cli, -⟩
      exact absurd (freed.symm.trans cli) nofun
  · intro meets
    refine Machine.throughout_of_meets (fun s i s' inv fits hs => ?_) start meets
    have inv' := inv.step (CliCall.run_step hs) fits
    exact ⟨inv'.joinsReaders, inv'⟩

/-- A client that connects, registers, disconnects and is destroyed joins its reader. -/
theorem socketCli_joinsReaders_once :
    (socketCli {} 1 3000).Throughout (fun _ _ w' => JoinsReaders w')
      [.connect ⟨some 3, true, 0⟩, .registerNotify 0 (some 7), .disconnect, .destory]
      (socketCliNew {} 1 3000) := by
  refine (socketCli_joinsReaders_iff {} 3000 (by decide) (w := ⟨none, [.freed, .closed 3,
    .joined (some 7), .created 7, .connected 3 {}, .sndTimeout 3 3 0, .socket 3]⟩) rfl rfl).mpr ?_
  refine ⟨trivial, fun s hs => ?_⟩
  cases hs
  refine ⟨fun _ => rfl, fun s hs => ?_⟩
  cases hs
  refine ⟨fun _ => by decide, fun s hs => ?_⟩
  cases hs
  exact ⟨by decide, fun s hs => trivial⟩

/-- A client that connects and disconnects without a registration joins a thread it never
created. -/
theorem socketCli_joins_unset :
    ¬ ∀ (remoteAddr : SockaddrIn) (async conTimeout : ℤ) (is : List CliCall) (w : CliWorld),
      async ≠ 0 →
      (socketCli remoteAddr async conTimeout).run is
        (socketCliNew remoteAddr async conTimeout) = .ok w →
      w.cli = none →
      (socketCli remoteAddr async conTimeout).Throughout (fun _ _ w' => JoinsReaders w') is
        (socketCliNew remoteAddr async conTimeout) := by
  intro claim
  have all := claim {} 1 3000 [.connect ⟨some 3, true, 0⟩, .disconnect, .destory] _ (by decide)
    rfl rfl
  obtain ⟨-, all⟩ := all _ rfl
  obtain ⟨joins, -⟩ := all _ rfl
  obtain ⟨u, hu, -⟩ := joins.current.1
  cases hu

end LibZio
