import LibZio.SocketCli.Peer

/-! # Emptying the socket

`__clean_tcp` reads byte by byte until `select` finds the socket not readable, in the asynchronous
mode alone: a synchronous client, the one that reads by itself, leaves everything where it is. Once
the peer has closed the connection the socket stays readable, so that the loop does not end. -/

namespace LibZio

variable {s : SocketCli} {c c' : Conn}

namespace Conn

/-- The bytes that later calls of `recv` deliver, which ask for up to `lens` bytes each. -/
def deliver : List ℕ → Conn → List UInt8
  | [], _ => []
  | len :: lens, c =>
      match c.recv len with
      | none => []
      | some (none, c') => deliver lens c'
      | some (some b, c') => b ++ deliver lens c'

/-- Everything that is to come has arrived. -/
def Arrived (c : Conn) : Prop := ∀ a ∈ c.arrivals, a.delay = 0

/-- The peer has closed or aborted the connection. -/
def Over (c : Conn) : Prop := c.ending.delay = some 0

instance (c : Conn) : Decidable c.Arrived :=
  inferInstanceAs (Decidable (∀ a ∈ c.arrivals, a.delay = 0))

instance (c : Conn) : Decidable c.Over := inferInstanceAs (Decidable (c.ending.delay = some 0))

/-- Nothing is delivered later exactly when nothing is to come. -/
theorem deliver_eq_nil_iff : (∀ lens, c.deliver lens = []) ↔ c.arrivals = [] := by
  constructor
  · intro h
    obtain ⟨_ | ⟨a, l⟩, e⟩ := c
    · rfl
    · have hone : a.bytes.take 1 ++ [] = [] := h [1]
      rw [List.append_nil, List.take_eq_nil_iff] at hone
      obtain hone | hnone := hone
      · exact absurd hone (by decide)
      · exact absurd hnone a.sent
  · intro h lens
    induction lens generalizing c with
    | nil => rfl
    | cons len lens ih =>
        obtain ⟨l, e⟩ := c
        subst h
        cases e with
        | closes d => exact ih rfl
        | resets d => exact ih rfl
        | silent => rfl

/-- A `select` that does not wait lets no time pass. -/
theorem elapse_zero (c : Conn) : c.elapse 0 = c := by
  obtain ⟨_ | ⟨a, l⟩, e⟩ := c
  · cases e <;> rfl
  · rfl

/-- What has arrived is readable at once, and so is the end of a connection that is over. -/
theorem Arrived.readable_iff (h : c.Arrived) : c.readable 0 = true ↔ c.arrivals ≠ [] ∨ c.Over := by
  obtain ⟨_ | ⟨a, l⟩, e⟩ := c
  · cases e <;> simp [readable, delays, Over, Ending.delay]
  · have ha : a.delay = 0 := h a (by simp)
    simp [readable, delays, ha]

/-- A byte is read off what has arrived. -/
theorem Arrived.recv_one (h : c.Arrived) (hne : c.arrivals ≠ []) :
    ∃ b c', c.recv 1 = some (b, c') ∧ c'.Arrived ∧ c'.ending = c.ending ∧
      c'.bytes.length < c.bytes.length := by
  obtain ⟨_ | ⟨a, l⟩, e⟩ := c
  · exact absurd rfl hne
  · refine ⟨_, _, rfl, fun x hx => ?_, rfl, ?_⟩
    · obtain hx | hx := List.mem_append.mp hx
      · exact rest_delay hx
      · exact h x (List.mem_cons_of_mem _ hx)
    · have := List.length_pos_iff.mpr a.sent
      rw [bytes, List.flatMap_append, rest_bytes, bytes, List.flatMap_cons, List.length_append,
        List.length_append, List.length_drop]
      omega

/-- The end of a connection that is over can be read again and again. -/
theorem Over.recv_one (h : c.Over) (hnone : c.arrivals = []) :
    ∃ b, c.recv 1 = some (b, ⟨[], .closes 0⟩) := by
  obtain ⟨l, e⟩ := c
  subst hnone
  cases e with
  | closes d => exact ⟨_, rfl⟩
  | resets d => exact ⟨_, rfl⟩
  | silent => cases h

end Conn

/-- A round in which `select` finds the socket not readable is the last. -/
theorem cleanTcpRound_last (h : ¬ c.readable 0 = true) :
    cleanTcpRound Conn.socket c = some (.inr c) := by
  have hselect : Conn.socket.select 0 0 c = (0, c) := by
    change (if c.readable 0 = true then (1 : ℤ) else 0, c.elapse 0) = _
    rw [if_neg h, Conn.elapse_zero]
  rw [cleanTcpRound, hselect]
  rfl

/-- A round in which `select` finds the socket readable reads. -/
theorem cleanTcpRound_next {b : Option (List UInt8)} (h : c.readable 0 = true)
    (hrecv : c.recv 1 = some (b, c')) : cleanTcpRound Conn.socket c = some (.inl c') := by
  have hselect : Conn.socket.select 0 0 c = (1, c) := by
    change (if c.readable 0 = true then (1 : ℤ) else 0, c.elapse 0) = _
    rw [if_pos h, Conn.elapse_zero]
  have hrecv' : Conn.socket.recv 1 c = some (b, c') := hrecv
  rw [cleanTcpRound, hselect]
  dsimp only
  rw [if_neg (by decide), hrecv']

/-- **The loop empties a socket** whose peer is silent. -/
theorem cleanTcp_drains (h : c.Arrived) (hover : ¬ c.Over) :
    ∃ c', Returns (cleanTcpRound Conn.socket) c c' ∧ c'.arrivals = [] := by
  refine returns_of_measure (I := fun c => c.Arrived ∧ ¬ c.Over) (fun c => c.bytes.length)
    (fun c ⟨h, hover⟩ => ?_) ⟨h, hover⟩
  by_cases hr : c.readable 0 = true
  · obtain ⟨b, c', hrecv, h', hending, hlt⟩ :=
      h.recv_one ((h.readable_iff.mp hr).resolve_right hover)
    refine .inr ⟨c', cleanTcpRound_next hr hrecv, ⟨h', ?_⟩, hlt⟩
    rw [Conn.Over, hending]
    exact hover
  · refine .inl ⟨c, cleanTcpRound_last hr, ?_⟩
    by_contra hne
    exact hr (h.readable_iff.mpr (.inl hne))

/-- **The loop does not end** once the peer has closed the connection. -/
theorem cleanTcp_not_returns (h : c.Arrived) (hover : c.Over) :
    ¬ Returns (cleanTcpRound Conn.socket) c c' := by
  refine not_returns (I := fun c => c.Arrived ∧ c.Over) (fun c ⟨h, hover⟩ => ?_) ⟨h, hover⟩
  have hr := h.readable_iff.mpr (.inr hover)
  by_cases hne : c.arrivals = []
  · obtain ⟨b, hrecv⟩ := hover.recv_one hne
    exact ⟨_, cleanTcpRound_next hr hrecv, fun a ha => absurd ha List.not_mem_nil, rfl⟩
  · obtain ⟨b, c', hrecv, h', hending, -⟩ := h.recv_one hne
    exact ⟨c', cleanTcpRound_next hr hrecv, h', by rw [Conn.Over, hending]; exact hover⟩

/-- The loop of `__clean_tcp` in the asynchronous mode. -/
theorem cleanTcp_async (hon : s.isConnect = true) (ha : s.async ≠ 0) {fuel : ℕ} {rc : ℤ} :
    cleanTcp Conn.socket fuel s c = some (rc, c') ↔
      rc = 0 ∧ iterate (cleanTcpRound Conn.socket) fuel c = some c' := by
  rw [cleanTcp, if_neg (by rw [hon]; decide), if_neg ha]
  cases iterate (cleanTcpRound Conn.socket) fuel c <;> simp [eq_comm]

/-- **When a clean drains the socket.** For a connected client, what has arrived when it is called,
and a peer that sends nothing more, the call returns `0` after finitely many rounds and nothing is
delivered later exactly when the client is asynchronous and its peer has not closed the connection,
or nothing has arrived for a synchronous one. -/
theorem clean_drains_iff (hon : s.isConnect = true) (h : c.Arrived) :
    (∃ fuel c', socketClean Conn.socket fuel s c = some (0, c') ∧ ∀ lens, c'.deliver lens = []) ↔
      s.async ≠ 0 ∧ ¬ c.Over ∨ s.async = 0 ∧ c.arrivals = [] := by
  by_cases ha : s.async = 0
  · have hclean : ∀ fuel, socketClean Conn.socket fuel s c = some (0, c) := by
      intro fuel
      rw [socketClean, cleanTcp, if_neg (by rw [hon]; decide), if_pos ha]
    constructor
    · rintro ⟨fuel, c', hc', hnone⟩
      rw [hclean] at hc'
      cases hc'
      exact .inr ⟨ha, Conn.deliver_eq_nil_iff.mp hnone⟩
    · rintro (⟨hasync, -⟩ | ⟨-, hnone⟩)
      · exact absurd ha hasync
      · exact ⟨0, c, hclean 0, Conn.deliver_eq_nil_iff.mpr hnone⟩
  · constructor
    · rintro ⟨fuel, c', hc', -⟩
      refine .inl ⟨ha, fun hover => ?_⟩
      exact cleanTcp_not_returns h hover ⟨fuel, ((cleanTcp_async hon ha).mp hc').2⟩
    · rintro (⟨-, hover⟩ | ⟨hsync, -⟩)
      · obtain ⟨c', ⟨fuel, hc'⟩, hnone⟩ := cleanTcp_drains h hover
        exact ⟨fuel, c', (cleanTcp_async hon ha).mpr ⟨rfl, hc'⟩, Conn.deliver_eq_nil_iff.mpr hnone⟩
      · exact absurd hsync ha

/-- Two bytes have arrived for an asynchronous client, and its peer is silent. -/
theorem clean_drains_async : ∃ fuel c',
    socketClean Conn.socket fuel (connectedCli 1) ⟨[⟨0, [7, 8], List.cons_ne_nil _ _⟩], .silent⟩ =
        some (0, c') ∧ ∀ lens, c'.deliver lens = [] :=
  (clean_drains_iff rfl (by decide)).mpr (.inl ⟨by decide, by decide⟩)

/-- The byte `7` has arrived for a synchronous client: the call returns `0` and a later read
delivers the byte. The peer of an asynchronous client has closed the connection: the call does not
return. -/
theorem clean_fails : (∃ (w : CliWorld) (s : SocketCli) (c : Conn) (r : ReadResult Conn),
      socketConnect ⟨some 3, true, 0⟩ (socketCliNew ⟨7, 8000⟩ 0 3000) = .ok (0, w) ∧
        w.cli = some s ∧ c.bytes = [7] ∧ c.Arrived ∧ socketClean Conn.socket 0 s c = some (0, c) ∧
        socketRead Conn.socket 0 1 0 s (fun _ => 0) c = some r ∧ r.ret = 1 ∧ r.buf 0 = 7) ∧
    ∃ (w : CliWorld) (s : SocketCli),
      socketConnect ⟨some 3, true, 0⟩ (socketCliNew ⟨7, 8000⟩ 1 3000) = .ok (0, w) ∧
        w.cli = some s ∧ ∀ fuel, socketClean Conn.socket fuel s ⟨[], .closes 0⟩ = none := by
  constructor
  · obtain ⟨w, hw, hs⟩ := connectedCli_connected 0
    exact ⟨w, connectedCli 0, ⟨[⟨0, [7], List.cons_ne_nil _ _⟩], .silent⟩, _, hw, hs,
      rfl, by decide, rfl, rfl, rfl, rfl⟩
  · obtain ⟨w, hw, hs⟩ := connectedCli_connected 1
    refine ⟨w, connectedCli 1, hw, hs, fun fuel => ?_⟩
    refine Option.eq_none_iff_forall_ne_some.mpr fun ⟨rc, c'⟩ hr => ?_
    obtain ⟨-, hc'⟩ := (cleanTcp_async rfl (by decide)).mp hr
    exact cleanTcp_not_returns (by decide) (by decide) ⟨fuel, hc'⟩

end LibZio
