import LibZio.SocketCli.Peer

/-! # Reading all that was asked for

`__read_tcp_all` returns when it has `len` bytes and when a timeout runs out. Where the peer closes
the connection before, `select` reports the socket as readable and `recv` returns no byte, for ever,
and so does the loop. -/

namespace LibZio

variable {errno timeout : ℤ} {len : ℕ} {s : SocketCli} {buf : Buf} {c : Conn}

/-- A read that has returned has the bytes taken off the connection at the front of the buffer and
returns their number, or has failed and taken none. -/
def ReadResult.HasRead (r : ReadResult Conn) (c : Conn) (len : ℕ) : Prop :=
  (r.ret = -1 ∧ r.io.bytes = c.bytes) ∨
    ∃ n : ℕ, r.ret = n ∧ n ≤ len ∧ c.bytes = r.buf.front n ++ r.io.bytes

/-- The loop of a read from the connection `c`. -/
structure ReadLoop.Reading (l : ReadLoop Conn) (c : Conn) (len : ℕ) (timeout : ℤ) : Prop where
  le : l.readLen ≤ len
  bytes : c.bytes = l.buf.front l.readLen ++ l.io.bytes
  closes : ∃ d, l.io.ending = .closes d
  outlasts : l.io.Outlasts timeout ↔ c.Outlasts timeout

/-- The bytes read and those to come. -/
theorem ReadLoop.Reading.length {l : ReadLoop Conn} (h : l.Reading c len timeout) :
    c.bytes.length = l.readLen + l.io.bytes.length := by
  rw [h.bytes, List.length_append, Buf.front, List.length_map, List.length_range]

/-- **A round of the loop**: it is over, its timeout runs out, or it takes bytes, and none only at
the end. -/
theorem readTcpRound_cases {l : ReadLoop Conn} (h : l.Reading c len timeout) :
    (∃ r, readTcpRound Conn.socket errno len timeout l = some (.inr r) ∧ r.HasRead c len ∧
      (len ≤ c.bytes.length ∨ c.Outlasts timeout)) ∨
    ∃ l', readTcpRound Conn.socket errno len timeout l = some (.inl l') ∧ l'.Reading c len timeout ∧
      (l'.io.bytes.length < l.io.bytes.length ∨ c.bytes.length < len ∧ ¬ c.Outlasts timeout) := by
  have hlength := h.length
  obtain ⟨hle, hbytes, ⟨d, hd⟩, houtlasts⟩ := h
  rw [readTcpRound]
  by_cases hlt : l.readLen < len
  · rw [if_pos hlt]
    obtain ⟨c₁, hsel, hc₁, ho⟩ | ⟨rc, c₁, hsel, hrc, hwait⟩ :=
      Conn.selectOut_awaited hd errno timeout l.cli
    · rw [hsel]
      refine .inl ⟨_, rfl, .inr ⟨l.readLen, rfl, hle, ?_⟩, .inr (houtlasts.mp ho)⟩
      rw [hc₁]
      exact hbytes
    · obtain ⟨b, c₂, hrecv, happend, hb, hcloses, ho, hend⟩ := hwait.recv (len - l.readLen)
      have hrecv' : Conn.socket.recv (len - l.readLen) c₁ = some (some b, c₂) := hrecv
      rw [hsel]
      dsimp only
      rw [if_neg hrc, hrecv']
      refine .inr ⟨_, rfl, ⟨?_, ?_, hcloses, ho.trans houtlasts⟩, ?_⟩
      · dsimp only
        omega
      · rw [Buf.front_write, List.append_assoc, ← happend]
        exact hbytes
      · dsimp only
        have hshort : l.io.bytes.length = b.length + c₂.bytes.length := by
          rw [happend, List.length_append]
        by_cases hnone : b = []
        · obtain ⟨hempty, hno⟩ := hend (by omega) hnone
          rw [hempty, List.length_nil] at hlength
          exact .inr ⟨by omega, fun hc => hno (houtlasts.mpr hc)⟩
        · have := List.length_pos_iff.mpr hnone
          exact .inl (by omega)
  · rw [if_neg hlt]
    exact .inl ⟨_, rfl, .inr ⟨l.readLen, rfl, hle, hbytes⟩, .inl (by omega)⟩

/-- The loop does not return where neither enough bytes come nor a timeout runs out. -/
theorem ReadLoop.Reading.not_returns {l : ReadLoop Conn} (h : l.Reading c len timeout)
    (hno : ¬ (len ≤ c.bytes.length ∨ c.Outlasts timeout)) {r : ReadResult Conn} :
    ¬ Returns (readTcpRound Conn.socket errno len timeout) l r := by
  refine LibZio.not_returns (I := fun l => l.Reading c len timeout) (fun l hl => ?_) h
  obtain ⟨_, -, -, hc⟩ | ⟨l', hl', hreading, -⟩ := readTcpRound_cases hl
  · exact absurd hc hno
  · exact ⟨l', hl', hreading⟩

/-- **When the loop returns.** -/
theorem ReadLoop.Reading.returns_iff {l : ReadLoop Conn} (h : l.Reading c len timeout) :
    (∃ r, Returns (readTcpRound Conn.socket errno len timeout) l r ∧ r.HasRead c len) ↔
      len ≤ c.bytes.length ∨ c.Outlasts timeout := by
  constructor
  · rintro ⟨r, hr, -⟩
    by_contra hno
    exact h.not_returns hno hr
  · intro hc
    refine returns_of_measure (I := fun l => l.Reading c len timeout) (fun l => l.io.bytes.length)
      (fun l hl => ?_) h
    obtain ⟨r, hr, hread, -⟩ | ⟨l', hl', hreading, hlt | ⟨hshort, hno⟩⟩ := readTcpRound_cases hl
    · exact .inl ⟨r, hr, hread⟩
    · exact .inr ⟨l', hl', hreading, hlt⟩
    · exact absurd hc (by rw [not_or]; exact ⟨by omega, hno⟩)

/-- **The statements in front of the loop**: the timeout runs out, or they leave the loop with what
was read. -/
theorem readTcp_cases {d : ℕ} (hon : s.isConnect = true) (hsync : s.async = 0)
    (hd : c.ending = .closes d) :
    (∃ c₁, readTcp Conn.socket errno len timeout s buf c = some
      ⟨-1, { s with errCode := errno }, buf, c₁⟩ ∧ c₁.bytes = c.bytes ∧ c.Outlasts timeout) ∨
    ∃ b c₂, readTcp Conn.socket errno len timeout s buf c = some ⟨b.length, s, buf.write 0 b, c₂⟩ ∧
      ReadLoop.Reading ⟨b.length, s, buf.write 0 b, c₂⟩ c len timeout := by
  rw [readTcp, if_neg (by rw [hon]; decide), if_neg (not_not.mpr hsync)]
  obtain ⟨c₁, hsel, hc₁, ho⟩ | ⟨rc, c₁, hsel, hrc, hwait⟩ :=
    Conn.selectOut_awaited hd errno timeout s
  · rw [hsel]
    refine .inl ⟨c₁, ?_, hc₁, ho⟩
    dsimp only
    rw [if_pos rfl]
  · obtain ⟨b, c₂, hrecv, happend, hb, hcloses, ho, -⟩ := hwait.recv len
    have hrecv' : Conn.socket.recv len c₁ = some (some b, c₂) := hrecv
    rw [hsel]
    dsimp only
    rw [if_neg hrc, hrecv']
    refine .inr ⟨b, c₂, rfl, hb, ?_, hcloses, ho⟩
    have hfront := buf.front_write 0 b
    rw [Nat.zero_add] at hfront
    rw [hfront]
    exact happend

/-- **When a read of all bytes returns.** For a peer that closes the connection in the end, the call
returns after finitely many rounds, with the bytes read so far, exactly when it fails at once, the
peer sends the bytes that are asked for, or the peer keeps the reader waiting for longer than a
positive timeout. -/
theorem read_all_returns_iff (errno timeout : ℤ) (len d : ℕ) (s : SocketCli) (buf : Buf)
    (arrivals : List Arrival) :
    (∃ fuel r, socketReadAll Conn.socket errno len timeout fuel s buf
      ⟨arrivals, .closes d⟩ = some r ∧ r.HasRead ⟨arrivals, .closes d⟩ len) ↔
      s.isConnect = false ∨ s.async ≠ 0 ∨ len ≤ (Conn.mk arrivals (.closes d)).bytes.length ∨
        (Conn.mk arrivals (.closes d)).Outlasts timeout := by
  have failed : ∀ {r}, readTcp Conn.socket errno len timeout s buf ⟨arrivals, .closes d⟩ = some r →
      r.ret = -1 → r.io.bytes = (Conn.mk arrivals (.closes d)).bytes →
      ∃ fuel r,
        socketReadAll Conn.socket errno len timeout fuel s buf ⟨arrivals, .closes d⟩ = some r ∧
        r.HasRead ⟨arrivals, .closes d⟩ len :=
    fun h hr hb => ⟨0, _, readTcpAll_failed h hr 0, .inl ⟨hr, hb⟩⟩
  cases hon : s.isConnect with
  | false => exact iff_of_true (failed (readTcp_off hon) rfl rfl) (.inl rfl)
  | true =>
      by_cases hsync : s.async = 0
      · obtain ⟨c₁, hread, hb, ho⟩ | ⟨b, c₂, hread, hreading⟩ :=
          @readTcp_cases errno timeout len s buf ⟨arrivals, .closes d⟩ d hon hsync rfl
        · exact iff_of_true (failed hread rfl hb) (.inr (.inr (.inr ho)))
        · have hall := readTcpAll_loop hread (show (b.length : ℤ) ≠ -1 by omega)
          constructor
          · rintro ⟨fuel, r, hr, hhas⟩
            exact .inr (.inr (hreading.returns_iff.mp ⟨r, ⟨fuel, (hall fuel).symm.trans hr⟩, hhas⟩))
          · rintro (hoff | hasync | hc)
            · cases hoff
            · exact absurd hsync hasync
            · obtain ⟨r, ⟨fuel, hr⟩, hhas⟩ := hreading.returns_iff.mpr hc
              exact ⟨fuel, r, (hall fuel).trans hr, hhas⟩
      · exact iff_of_true (failed (readTcp_async hsync) rfl rfl) (.inr (.inl hsync))

/-- The peer sends the byte `7` and closes the connection. A read of two bytes does not return. -/
theorem read_all_not_returns : ∃ (w : CliWorld) (s : SocketCli),
    socketConnect ⟨some 3, true, 0⟩ (socketCliNew ⟨7, 8000⟩ 0 3000) = .ok (0, w) ∧ w.cli = some s ∧
      ∀ fuel, socketReadAll Conn.socket 0 2 1000 fuel s (fun _ => 0)
        ⟨[⟨0, [7], List.cons_ne_nil _ _⟩], .closes 0⟩ = none := by
  obtain ⟨w, hw, hs⟩ := connectedCli_connected 0
  refine ⟨w, connectedCli 0, hw, hs, fun fuel => ?_⟩
  obtain ⟨c₁, -, -, -, d, hmem, hlt⟩ | ⟨b, c₂, hread, hreading⟩ :=
    @readTcp_cases 0 1000 2 (connectedCli 0)
      (fun _ => 0) ⟨[⟨0, [7], List.cons_ne_nil _ _⟩], .closes 0⟩ 0 rfl rfl rfl
  · have hzero : d = 0 := by simpa [Conn.delays, Ending.delay] using hmem
    omega
  · rw [socketReadAll, readTcpAll_loop hread (show (b.length : ℤ) ≠ -1 by omega)]
    refine Option.eq_none_iff_forall_ne_some.mpr fun r hr => hreading.not_returns ?_ ⟨fuel, hr⟩
    rintro (hlen | ⟨-, d, hmem, hlt⟩)
    · exact absurd hlen (by decide)
    · have hzero : d = 0 := by simpa [Conn.delays, Ending.delay] using hmem
      omega

end LibZio
