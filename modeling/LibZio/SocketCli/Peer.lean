import LibZio.SocketCli.Reading

/-! # A peer

What a peer does on a connection, as a script: finitely many bytes in segments, each after some
delay, and an ending. A connection is a socket for the functions that read (`Conn.socket`): time
passes where `select` or `recv` waits, and a single `recv` takes bytes of one segment. The rules for
the two calls together (`Conn.selectOut_awaited`, `Conn.Awaited.recv`) are what the loops need. -/

namespace LibZio

/-- Bytes that arrive together, `delay` microseconds after what is in front of them. -/
structure Arrival where
  delay : ℕ
  bytes : List UInt8
  sent : bytes ≠ []

/-- What the peer does after its last byte. -/
inductive Ending
  /-- It closes the connection. -/
  | closes (delay : ℕ)
  /-- It aborts the connection. -/
  | resets (delay : ℕ)
  /-- It does nothing. -/
  | silent

/-- When the reader learns of it. -/
def Ending.delay : Ending → Option ℕ
  | .closes d => some d
  | .resets d => some d
  | .silent => none

/-- `usec` microseconds pass. -/
def Ending.elapse (usec : ℕ) : Ending → Ending
  | .closes d => .closes (d - usec)
  | .resets d => .resets (d - usec)
  | .silent => .silent

/-- What is left of a segment when `len` of its bytes have been read. -/
def Arrival.rest (g : Arrival) (len : ℕ) : List Arrival :=
  if h : g.bytes.drop len = [] then [] else [⟨0, g.bytes.drop len, h⟩]

/-- The bytes to come on a connection and its ending. What has arrived has the delay `0`. -/
structure Conn where
  arrivals : List Arrival
  ending : Ending

namespace Conn

/-- All bytes to come. -/
def bytes (c : Conn) : List UInt8 := c.arrivals.flatMap Arrival.bytes

/-- How long a reader who waits finds the socket not readable, before each segment and the
ending. -/
def delays (c : Conn) : List ℕ := c.arrivals.map Arrival.delay ++ c.ending.delay.toList

/-- Whether the socket is readable within `usec` microseconds. -/
def readable (usec : ℕ) (c : Conn) : Bool := c.delays.head?.any (· ≤ usec)

/-- `usec` microseconds pass, or less if the socket is readable before. -/
def elapse (usec : ℕ) : Conn → Conn
  | ⟨[], e⟩ => ⟨[], e.elapse usec⟩
  | ⟨g :: l, e⟩ => ⟨{ g with delay := g.delay - usec } :: l, e⟩

/-- `select` for reading. -/
def select (tvSec tvUsec : ℤ) (c : Conn) : ℤ × Conn :=
  -- `EINVAL`
  if tvSec < 0 ∨ tvUsec < 0 then (-1, c)
  else
    let usec := (tvSec * 1000000 + tvUsec).toNat
    (if c.readable usec then 1 else 0, c.elapse usec)

/-- `recv`. It waits for the next segment, and returns no byte at the end of the stream. -/
def recv (len : ℕ) : Conn → Option (Option (List UInt8) × Conn)
  | ⟨g :: l, e⟩ => some (some (g.bytes.take len), ⟨g.rest len ++ l, e⟩)
  | ⟨[], .closes _⟩ => some (some [], ⟨[], .closes 0⟩)
  | ⟨[], .resets _⟩ => some (none, ⟨[], .closes 0⟩)
  | ⟨[], .silent⟩ => none

/-- A connection as a socket. -/
def socket : SocketIo Conn where
  select := select
  recv := recv

/-! ## Time -/

variable {c c' : Conn} {usec : ℕ}

@[simp] theorem elapse_bytes (usec : ℕ) (c : Conn) : (c.elapse usec).bytes = c.bytes := by
  obtain ⟨_ | ⟨g, l⟩, e⟩ := c <;> rfl

/-- Time only passes in front. -/
theorem elapse_delays (usec : ℕ) (c : Conn) :
    (c.elapse usec).delays = (c.delays.head?.map (· - usec)).toList ++ c.delays.tail := by
  obtain ⟨_ | ⟨g, l⟩, e⟩ := c
  · cases e <;> rfl
  · rfl

/-- The socket stays unreadable for more than `usec` microseconds at some time. -/
def Stalls (usec : ℕ) (c : Conn) : Prop := ∃ d ∈ c.delays, usec < d

instance (usec : ℕ) (c : Conn) : Decidable (c.Stalls usec) :=
  inferInstanceAs (Decidable (∃ d ∈ c.delays, usec < d))

/-- A connection that is readable in time does not stall yet. -/
theorem stalls_of_readable (h : c.readable usec = true) :
    c.Stalls usec ↔ ∃ d ∈ c.delays.tail, usec < d := by
  rw [readable] at h
  cases hd : c.delays with
  | nil => rw [hd] at h; cases h
  | cons d l =>
      rw [hd] at h
      have hle : d ≤ usec := by simpa using h
      rw [Stalls, hd, List.tail_cons]
      simp [Nat.not_lt.mpr hle]

/-- What a wait in time leaves of the stalls. -/
theorem elapse_stalls (h : c.readable usec = true) :
    (c.elapse usec).Stalls usec ↔ c.Stalls usec := by
  rw [stalls_of_readable h, Stalls, elapse_delays]
  rw [readable] at h
  cases hd : c.delays with
  | nil => rw [hd] at h; cases h
  | cons d l =>
      rw [hd] at h
      have hle : d ≤ usec := by simpa using h
      simp [Nat.sub_eq_zero_of_le hle]

/-- A connection that is readable in time is readable afterwards. -/
theorem elapse_readable (h : c.readable usec = true) : (c.elapse usec).readable usec = true := by
  rw [readable] at h ⊢
  rw [elapse_delays]
  cases hd : c.delays with
  | nil => rw [hd] at h; cases h
  | cons d l =>
      rw [hd] at h
      have hle : d ≤ usec := by simpa using h
      simp [Nat.sub_eq_zero_of_le hle]

/-- A peer that closes the connection in the end still does. -/
theorem elapse_closes {d : ℕ} (he : c.ending = .closes d) :
    ∃ d, (c.elapse usec).ending = .closes d := by
  obtain ⟨_ | ⟨g, l⟩, e⟩ := c
  · cases he
    exact ⟨_, rfl⟩
  · exact ⟨d, he⟩

/-- A connection that the peer closes in the end is readable in time, or stalls. -/
theorem stalls_of_not_readable {d : ℕ} (he : c.ending = .closes d) (h : ¬ c.readable usec = true) :
    c.Stalls usec := by
  rw [readable] at h
  cases hd : c.delays with
  | nil =>
      rw [delays, he] at hd
      simp [Ending.delay] at hd
  | cons d l =>
      rw [hd] at h
      refine ⟨d, by rw [hd]; exact List.mem_cons_self, ?_⟩
      simpa using h

/-! ## The two calls -/

/-- The bytes that are left of a segment. -/
theorem rest_bytes (g : Arrival) (len : ℕ) :
    (g.rest len).flatMap Arrival.bytes = g.bytes.drop len := by
  rw [Arrival.rest]
  by_cases h : g.bytes.drop len = []
  · rw [dif_pos h, h]; rfl
  · rw [dif_neg h]; simp

/-- What is left of a segment can be read at once. -/
theorem rest_delay {g x : Arrival} {len : ℕ} (h : x ∈ g.rest len) : x.delay = 0 := by
  rw [Arrival.rest] at h
  by_cases hd : g.bytes.drop len = []
  · rw [dif_pos hd] at h
    cases h
  · rw [dif_neg hd, List.mem_singleton] at h
    rw [h]

/-- **What `recv` takes** of a connection with bytes to come. -/
theorem recv_of_bytes (h : c.bytes ≠ []) (len : ℕ) :
    ∃ b c', c.recv len = some (some b, c') ∧ c.bytes = b ++ c'.bytes ∧ b.length ≤ len ∧
      (0 < len → b ≠ []) ∧ c'.ending = c.ending ∧
      (c.readable usec = true → (c'.Stalls usec ↔ c.Stalls usec)) := by
  obtain ⟨_ | ⟨g, l⟩, e⟩ := c
  · exact absurd rfl h
  · refine ⟨_, _, rfl, ?_, List.length_take_le _ _, fun hlen hb => ?_, rfl, fun hr => ?_⟩
    · rw [bytes, bytes, List.flatMap_append, rest_bytes, ← List.append_assoc, List.take_append_drop]
      rfl
    · obtain hz | hg := List.take_eq_nil_iff.mp hb
      · omega
      · exact g.sent hg
    · rw [stalls_of_readable hr]
      constructor
      · rintro ⟨d, hd, hlt⟩
        rw [delays, List.map_append, List.append_assoc, List.mem_append] at hd
        obtain hd | hd := hd
        · obtain ⟨x, hx, rfl⟩ := List.mem_map.mp hd
          rw [rest_delay hx] at hlt
          omega
        · exact ⟨d, hd, hlt⟩
      · rintro ⟨d, hd, hlt⟩
        refine ⟨d, ?_, hlt⟩
        rw [delays, List.map_append, List.append_assoc, List.mem_append]
        exact .inr hd

/-- What `recv` finds once a peer has closed the connection. -/
theorem recv_of_closed (h : c.bytes = []) {d : ℕ} (he : c.ending = .closes d) (len : ℕ) :
    c.recv len = some (some [], ⟨[], .closes 0⟩) ∧ c.arrivals = [] := by
  obtain ⟨_ | ⟨g, l⟩, e⟩ := c
  · cases he
    exact ⟨rfl, rfl⟩
  · rw [bytes, List.flatMap_cons, List.append_eq_nil_iff] at h
    exact absurd h.1 g.sent

/-- A timeout that is not positive never runs out. -/
theorem selectOut_nonpos {timeout : ℤ} (h : timeout ≤ 0) (errno : ℤ) (s : SocketCli) (c : Conn) :
    ∃ rc, selectOut socket errno timeout s c = (rc, s, c) ∧ rc ≠ -1 := by
  rw [selectOut]
  by_cases hz : timeout = 0
  · rw [if_pos hz]
    exact ⟨1, rfl, by decide⟩
  · have hinval : timeout.tdiv 1000 < 0 ∨ timeout.tmod 1000 * 1000 < 0 := by
      have := Int.mul_tdiv_add_tmod timeout 1000
      omega
    have hselect : socket.select (timeout.tdiv 1000) (timeout.tmod 1000 * 1000) c = (-1, c) :=
      if_pos hinval
    rw [if_neg hz, hselect]
    exact ⟨0, rfl, by decide⟩

/-- A positive timeout runs out where the socket is not readable in time. -/
theorem selectOut_pos {timeout : ℤ} (h : 0 < timeout) (errno : ℤ) (s : SocketCli) (c : Conn) :
    selectOut socket errno timeout s c =
      if c.readable (1000 * timeout).toNat then (0, s, c.elapse (1000 * timeout).toNat)
      else (-1, { s with errCode := errno }, c.elapse (1000 * timeout).toNat) := by
  have hsec := Int.tdiv_nonneg h.le (show (0 : ℤ) ≤ 1000 by decide)
  have husec := Int.tmod_nonneg 1000 h.le
  have htime : timeout.tdiv 1000 * 1000000 + timeout.tmod 1000 * 1000 = 1000 * timeout := by
    have := Int.mul_tdiv_add_tmod timeout 1000
    omega
  have hselect : socket.select (timeout.tdiv 1000) (timeout.tmod 1000 * 1000) c =
      (if c.readable (1000 * timeout).toNat then 1 else 0, c.elapse (1000 * timeout).toNat) := by
    rw [← htime]
    exact if_neg (by omega)
  rw [selectOut, if_neg (by omega), hselect]
  dsimp only
  by_cases hr : c.readable (1000 * timeout).toNat = true
  · rw [if_pos hr, if_pos hr, if_neg (by decide)]
  · rw [if_neg hr, if_neg hr, if_pos rfl]

/-- Some wait for the peer outlasts the timeout of a read. -/
def Outlasts (c : Conn) (timeout : ℤ) : Prop := 0 < timeout ∧ c.Stalls (1000 * timeout).toNat

/-- What a `select` of a read leaves of a connection, where its timeout does not run out. -/
structure Awaited (c c₁ : Conn) (timeout : ℤ) : Prop where
  bytes : c₁.bytes = c.bytes
  closes : ∃ d, c₁.ending = .closes d
  outlasts : c₁.Outlasts timeout ↔ c.Outlasts timeout
  readable : 0 < timeout → c₁.readable (1000 * timeout).toNat = true

/-- **The `select` of a read**, on a connection that the peer closes in the end. -/
theorem selectOut_awaited {d : ℕ} (he : c.ending = .closes d) (errno timeout : ℤ) (s : SocketCli) :
    (∃ c₁, selectOut socket errno timeout s c = (-1, { s with errCode := errno }, c₁) ∧
      c₁.bytes = c.bytes ∧ c.Outlasts timeout) ∨
    ∃ rc c₁, selectOut socket errno timeout s c = (rc, s, c₁) ∧ rc ≠ -1 ∧ c.Awaited c₁ timeout := by
  by_cases hpos : 0 < timeout
  · rw [selectOut_pos hpos]
    by_cases hr : c.readable (1000 * timeout).toNat = true
    · rw [if_pos hr]
      exact .inr ⟨0, _, rfl, by decide, elapse_bytes _ _, elapse_closes he,
        and_congr_right fun _ => elapse_stalls hr, fun _ => elapse_readable hr⟩
    · rw [if_neg hr]
      exact .inl ⟨_, rfl, elapse_bytes _ _, hpos, stalls_of_not_readable he hr⟩
  · obtain ⟨rc, hrc, hne⟩ := selectOut_nonpos (Int.not_lt.mp hpos) errno s c
    exact .inr ⟨rc, c, hrc, hne, rfl, ⟨d, he⟩, Iff.rfl, fun h => absurd h hpos⟩

/-- **The `recv` of a read** takes bytes, and none only at the end. -/
theorem Awaited.recv {c₁ : Conn} {timeout : ℤ} (h : c.Awaited c₁ timeout) (len : ℕ) :
    ∃ b c₂, c₁.recv len = some (some b, c₂) ∧ c.bytes = b ++ c₂.bytes ∧ b.length ≤ len ∧
      (∃ d, c₂.ending = .closes d) ∧ (c₂.Outlasts timeout ↔ c.Outlasts timeout) ∧
      (0 < len → b = [] → c.bytes = [] ∧ ¬ c.Outlasts timeout) := by
  obtain ⟨hbytes, ⟨d, hd⟩, houtlasts, hreadable⟩ := h
  by_cases hb : c₁.bytes = []
  · obtain ⟨hrecv, hnone⟩ := recv_of_closed hb hd len
    -- the end can be read, so that no wait is ahead
    have hover : ¬ c₁.Outlasts timeout := by
      rintro ⟨hpos, hstalls⟩
      rw [stalls_of_readable (hreadable hpos), delays, hnone, hd] at hstalls
      simp [Ending.delay] at hstalls
    have hclosed : ¬ Outlasts ⟨[], .closes 0⟩ timeout := by
      rintro ⟨-, d, hmem, hlt⟩
      simp [delays, Ending.delay] at hmem
      omega
    exact ⟨[], _, hrecv, by rw [← hbytes, hb]; rfl, Nat.zero_le _, ⟨0, rfl⟩,
      (iff_of_false hclosed hover).trans houtlasts,
        fun _ _ => ⟨hbytes ▸ hb, fun ho => hover (houtlasts.mpr ho)⟩⟩
  · obtain ⟨b, c₂, hrecv, happend, hle, hsome, hending, hstalls⟩ := recv_of_bytes hb len
    refine ⟨b, c₂, hrecv, hbytes ▸ happend, hle, ⟨d, hending.trans hd⟩, ?_,
      fun hlen hnone => absurd hnone (hsome hlen)⟩
    rw [← houtlasts]
    exact and_congr_right fun hpos => hstalls (hreadable hpos)

end Conn

end LibZio
