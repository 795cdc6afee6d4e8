import LibZio.SocketCli.Steps

/-! # Who owns the descriptors of a client

A synchronous client owns the descriptor in its record and no other, it closes only what it owns,
and after `socket_destory` everything it ever obtained is closed: as long as no `connect` fails on a
descriptor that `socket` gave. A `connect` that does fail leaves the new descriptor open in a client
that is not connected, and the next `socket_connect` overwrites it. The two together are an
equivalence over whole runs (`socketCli_ownsDescriptors_iff`). -/

namespace LibZio

/-- The descriptor in the client's record, if there is one. -/
def CliWorld.ownFds (w : CliWorld) : List ℤ :=
  match w.cli with
  | none => []
  | some s => if s.backendData.socketId = INVALID_SOCKET then [] else [s.backendData.socketId]

/-- Descriptor ownership, of one call: the client never holds a second descriptor, not even within
the call; a failed `socket_connect` leaves no additional one open; only open descriptors are closed;
and a destroyed client has closed all it obtained. -/
structure OwnsDescriptors (w : CliWorld) (c : CliCall) (w' : CliWorld) : Prop where
  atMostOne : ∀ es, es <:+ w'.trace → (Ledger.held CliEvent.onFds es).length ≤ 1
  failed : ∀ answer, c = .connect answer → socketConnect answer w = .ok (-1, w') →
    w'.openFds ⊆ w.openFds
  closedOnce : Ledger.Sound CliEvent.onFds w'.trace
  destroyed : w'.cli = none →
    (Ledger.acquired CliEvent.onFds w'.trace).Perm (Ledger.released CliEvent.onFds w'.trace)

/-- A `socket_connect` that is given a descriptor also connects it. -/
def ConnectsGiven (w : CliWorld) : CliCall → Prop
  | .connect answer => w.isConnected = true ∨ answer.socket = none ∨ answer.connect = true
  | _ => True

instance (w : CliWorld) (c : CliCall) : Decidable (ConnectsGiven w c) := by
  cases c <;> unfold ConnectsGiven <;> infer_instance

/-- The invariant: what is open is what the record holds, which is a descriptor exactly while the
client is connected. -/
structure FdsOwned (w : CliWorld) : Prop where
  sound : Ledger.Sound CliEvent.onFds w.trace
  atMostOne : ∀ es, es <:+ w.trace → (Ledger.held CliEvent.onFds es).length ≤ 1
  held : w.openFds = w.ownFds
  connected : ∀ s, w.cli = some s →
    (s.isConnect = true ↔ s.backendData.socketId ≠ INVALID_SOCKET)
  sync : ∀ s, w.cli = some s → s.async = 0

variable {w w' : CliWorld}

/-- A new client owns nothing. -/
theorem FdsOwned.initial (remoteAddr : SockaddrIn) (conTimeout : ℤ) :
    FdsOwned (socketCliNew remoteAddr 0 conTimeout) where
  sound := trivial
  atMostOne es h := by
    rw [List.suffix_nil.mp h]
    exact Nat.zero_le 1
  held := rfl
  connected s h := by cases h; simp
  sync s h := by cases h; rfl

/-- A failed connection that is given no descriptor leaves the open ones as they are. -/
theorem ConnectsGiven.failed {answer : ConnectAnswer}
    (fits : ConnectsGiven w (.connect answer))
    (h : socketConnect answer w = .ok (-1, w')) : w'.openFds ⊆ w.openFds := by
  generalize hrc : (-1 : ℤ) = rc at h
  cases socketConnect_connects h with
  | busy => exact List.Subset.refl _
  | noSocket => exact List.Subset.refl _
  | refused cli off socket fresh connect =>
      rw [ConnectsGiven, CliWorld.isConnected, cli, Option.any_some, off, socket, connect] at fits
      simp at fits
  | connected => exact absurd hrc (by decide)

namespace FdsOwned

/-- A client that is not connected has no descriptor open. -/
theorem openFds_of_off (inv : FdsOwned w) {s : SocketCli} (cli : w.cli = some s)
    (off : s.isConnect = false) : w.openFds = [] := by
  have invalid : s.backendData.socketId = INVALID_SOCKET := by
    by_contra h
    exact Bool.false_ne_true (off.symm.trans ((inv.connected s cli).mpr h))
  rw [inv.held, CliWorld.ownFds, cli]
  exact if_pos invalid

/-- A client with a descriptor in its record has it open. -/
theorem openFds_of_valid (inv : FdsOwned w) {s : SocketCli} (cli : w.cli = some s)
    (valid : s.backendData.socketId ≠ INVALID_SOCKET) :
    w.openFds = [s.backendData.socketId] := by
  rw [inv.held, CliWorld.ownFds, cli]
  exact if_neg valid

/-- An event that opens nothing beside what is there keeps the bound. -/
theorem atMostOne_cons {es : List CliEvent} {e : CliEvent}
    (all : ∀ fs, fs <:+ es → (Ledger.held CliEvent.onFds fs).length ≤ 1)
    (new : (Ledger.held CliEvent.onFds (e :: es)).length ≤ 1) :
    ∀ fs, fs <:+ e :: es → (Ledger.held CliEvent.onFds fs).length ≤ 1 := by
  intro fs h
  rcases List.suffix_cons_iff.mp h with rfl | h
  · exact new
  · exact all fs h

/-- Writing a client with the same descriptor and connection changes nothing. -/
theorem put_same (inv : FdsOwned w) {s s' : SocketCli} (cli : w.cli = some s)
    (fd : s'.backendData.socketId = s.backendData.socketId) (on : s'.isConnect = s.isConnect)
    (async : s'.async = s.async) : FdsOwned (w.put s') where
  sound := inv.sound
  atMostOne := inv.atMostOne
  held := by
    have h := inv.held
    rw [CliWorld.ownFds, cli] at h
    rw [CliWorld.ownFds, CliWorld.put]
    dsimp only
    rw [fd]
    exact h
  connected t ht := by
    cases ht
    rw [fd, on]
    exact inv.connected s cli
  sync t ht := by
    cases ht
    rw [async]
    exact inv.sync s cli

/-- A connection keeps the invariant. -/
theorem connected_step (inv : FdsOwned w) {s : SocketCli} {fd : ℕ} (cli : w.cli = some s)
    (off : s.isConnect = false) :
    FdsOwned ⟨some { s.setSocket fd with isConnect := true },
      .connected fd s.backendData.remoteAddr :: (s.opening fd ++ w.trace)⟩ := by
  have nothing := inv.openFds_of_off cli off
  have one : (Ledger.held CliEvent.onFds (.socket fd :: w.trace)).length ≤ 1 := by
    change ((fd : ℤ) :: w.openFds).length ≤ 1
    rw [nothing]
    exact le_rfl
  constructor
  case sound => exact inv.sound
  case atMostOne =>
    exact atMostOne_cons (atMostOne_cons (atMostOne_cons inv.atMostOne one) one) one
  case held =>
    change (fd : ℤ) :: w.openFds = _
    rw [nothing, CliWorld.ownFds]
    have valid : (fd : ℤ) ≠ INVALID_SOCKET := by unfold INVALID_SOCKET; omega
    exact (if_neg valid).symm
  case connected =>
    intro t ht
    cases ht
    have valid : (fd : ℤ) ≠ INVALID_SOCKET := by unfold INVALID_SOCKET; omega
    simpa using valid
  case sync =>
    intro t ht
    cases ht
    exact inv.sync s cli

/-- A disconnection keeps the invariant and leaves nothing open. -/
theorem disconnects (inv : FdsOwned w) (h : Disconnects w w') :
    FdsOwned w' ∧ w'.openFds = [] := by
  cases h with
  | @idle s cli invalid =>
      have off : s.isConnect = false := by
        by_contra h
        exact (inv.connected s cli).mp (eq_true_of_ne_false h) invalid
      have nothing := inv.openFds_of_off cli off
      refine ⟨put_same inv cli ?_ ?_ rfl, nothing⟩
      · exact invalid.symm
      · exact off.symm
  | @closed s cli valid =>
      have one := inv.openFds_of_valid cli valid
      have closing : s.closing = [.closed s.backendData.socketId] := by
        rw [SocketCli.closing, if_neg (not_not.mpr (inv.sync s cli))]
      have nothing : Ledger.held CliEvent.onFds (s.closing ++ w.trace) = [] := by
        rw [closing]
        exact Ledger.held_release_single CliEvent.onFds rfl one
      refine ⟨?_, nothing⟩
      constructor
      case sound =>
        change Ledger.Sound CliEvent.onFds (s.closing ++ w.trace)
        rw [closing]
        refine ⟨?_, inv.sound⟩
        change s.backendData.socketId ∈ w.openFds
        rw [one]
        exact List.mem_singleton_self _
      case atMostOne =>
        rw [closing] at nothing ⊢
        have none := congrArg List.length nothing
        exact atMostOne_cons inv.atMostOne (none.trans_le (Nat.zero_le 1))
      case held => exact nothing
      case connected =>
        intro t ht
        cases ht
        simp
      case sync =>
        intro t ht
        cases ht
        exact inv.sync s cli

/-- A destruction keeps the invariant. -/
theorem freed (inv : FdsOwned w) (nothing : w.openFds = []) :
    FdsOwned ({ w with cli := none }.log .freed) where
  sound := inv.sound
  atMostOne := by
    refine atMostOne_cons inv.atMostOne ?_
    change w.openFds.length ≤ 1
    rw [nothing]
    exact Nat.zero_le 1
  held := nothing
  connected s h := nomatch h
  sync s h := nomatch h

/-- **Every call that connects what it is given keeps the invariant.** -/
theorem step (inv : FdsOwned w) {c : CliCall} (h : CliStep w c w') (fits : ConnectsGiven w c) :
    FdsOwned w' := by
  cases h with
  | connect h =>
      cases h with
      | busy => exact inv
      | @noSocket s cli off none =>
          have invalid : s.backendData.socketId = INVALID_SOCKET := by
            by_contra h
            exact Bool.false_ne_true (off.symm.trans ((inv.connected s cli).mpr h))
          exact put_same inv cli invalid.symm rfl rfl
      | refused cli off socket fresh connect =>
          rw [ConnectsGiven, CliWorld.isConnected, cli, Option.any_some, off, socket, connect]
            at fits
          simp at fits
      | connected cli off => exact inv.connected_step cli off
  | registerNotify h =>
      cases h with
      | refused => exact inv
      | noThread cli => exact put_same inv cli rfl rfl rfl
      | created cli on async => exact absurd (inv.sync _ cli) async
  | disconnect h => exact (inv.disconnects h).1
  | destory h => exact (inv.disconnects h).1.freed (inv.disconnects h).2

/-- Under the invariant, nothing is left after the end. -/
theorem ownsDescriptors {c : CliCall} (inv' : FdsOwned w') (fits : ConnectsGiven w c) :
    OwnsDescriptors w c w' where
  atMostOne := inv'.atMostOne
  failed answer hc h := by
    subst hc
    exact fits.failed h
  closedOnce := inv'.sound
  destroyed h := by
    refine (Ledger.held_eq_nil_iff _ inv'.sound).mp ?_
    have held := inv'.held
    rw [CliWorld.ownFds, h] at held
    exact held

end FdsOwned

/-- A call after which no failed connection has left a descriptor behind connects what it is
given. -/
theorem OwnsDescriptors.connectsGiven {c : CliCall} (owns : OwnsDescriptors w c w')
    (h : c.run w = .ok w') : ConnectsGiven w c := by
  cases c with
  | connect answer =>
      by_contra misfit
      obtain ⟨⟨rc, v⟩, hc, rfl⟩ := map_eq_ok.mp h
      have way := socketConnect_connects hc
      cases way with
      | busy cli on => exact misfit (.inl (by rw [CliWorld.isConnected, cli]; exact on))
      | noSocket cli off none => exact misfit (.inr (.inl none))
      | connected cli off socket fresh connect => exact misfit (.inr (.inr connect))
      | refused cli off socket fresh connect =>
          have still := owns.failed answer rfl hc
          exact fresh (still (List.mem_cons_self ..))
  | registerNotify recvCb thread => trivial
  | disconnect => trivial
  | destory => trivial

/-- **Descriptor ownership.** Every call of a run of a synchronous client respects the ownership of
descriptors if and only if every `socket_connect` that is given a descriptor also connects it. -/
theorem socketCli_ownsDescriptors_iff (remoteAddr : SockaddrIn) (conTimeout : ℤ) {is : List CliCall}
    (h : (socketCli remoteAddr 0 conTimeout).run is (socketCliNew remoteAddr 0 conTimeout) =
      .ok w) :
    (socketCli remoteAddr 0 conTimeout).Throughout OwnsDescriptors is
        (socketCliNew remoteAddr 0 conTimeout) ↔
      (socketCli remoteAddr 0 conTimeout).Meets ConnectsGiven is
        (socketCliNew remoteAddr 0 conTimeout) := by
  have start := FdsOwned.initial remoteAddr conTimeout
  constructor
  · intro all
    refine all.meets (fun s i s' inv owns hs => ?_) start h
    have fits := owns.connectsGiven hs
    exact ⟨fits, inv.step (CliCall.run_step hs) fits⟩
  · intro meets
    refine Machine.throughout_of_meets (fun s i s' inv fits hs => ?_) start meets
    have inv' := inv.step (CliCall.run_step hs) fits
    exact ⟨inv'.ownsDescriptors fits, inv'⟩

/-- A client that connects, disconnects and is destroyed owns its descriptors throughout. -/
theorem socketCli_ownsDescriptors_once :
    (socketCli {} 0 3000).Throughout OwnsDescriptors
      [.connect ⟨some 3, true, 0⟩, .disconnect, .destory] (socketCliNew {} 0 3000) := by
  refine (socketCli_ownsDescriptors_iff {} 3000 (w := ⟨none, [.freed, .closed 3, .connected 3 {},
    .sndTimeout 3 3 0, .socket 3]⟩) rfl).mpr ⟨.inr (.inr rfl), fun s hs => ?_⟩
  exact ⟨trivial, fun s hs => ⟨trivial, fun s hs => trivial⟩⟩

/-- A `connect` that fails on descriptor 3 leaves it open; the next connection overwrites it, and
the destroyed client has not closed it. -/
theorem socketCli_leaks :
    ¬ ∀ (remoteAddr : SockaddrIn) (conTimeout : ℤ) (is : List CliCall) (w : CliWorld),
      (socketCli remoteAddr 0 conTimeout).run is (socketCliNew remoteAddr 0 conTimeout) = .ok w →
      (socketCli remoteAddr 0 conTimeout).Throughout OwnsDescriptors is
        (socketCliNew remoteAddr 0 conTimeout) := by
  intro claim
  have all := claim {} 3000 [.connect ⟨some 3, false, 111⟩, .connect ⟨some 4, true, 0⟩, .destory]
    _ rfl
  obtain ⟨-, all⟩ := all _ rfl
  obtain ⟨-, all⟩ := all _ rfl
  obtain ⟨last, -⟩ := all _ rfl
  have perm := last.destroyed rfl
  exact absurd perm.length_eq (by decide)

end LibZio
