import LibZio.Zsocket.Runs

/-! # What is watched

Whether a socket is read from is recorded in its state word, in `__fds_read` and in `read_cb`, and
whether it is written to in its state word, in `__fds_write` and in `wbuf`. `World.Watching` says
that these agree on every open listed socket. A failed `recv` clears both enable bits and nothing
else, so they agree in every state between two handlers only while every failed `recv` is answered,
in its `read_cb`, by closing the socket or, if nothing is to be written, by starting to read
anew. -/

namespace LibZio

variable {w w' : World} {s t pos : Sid} {z z' : ZSocket} {X Y : Sid → Prop}

/-! ## The invariant -/

namespace World

/-- The three records of reading agree. -/
structure ReadOk (w : World) (z : ZSocket) : Prop where
  watched : z.readEnable = true ↔ z.fd ∈ w.fdsRead
  callback : z.type ≠ .server → (z.readEnable = true ↔ z.readCb.isSome)

/-- The three records of writing agree. -/
structure WriteOk (w : World) (z : ZSocket) : Prop where
  watched : z.writeEnable = true ↔ z.fd ∈ w.fdsWrite
  buffer : z.writeEnable = true ↔ z.wbuf.isSome

/-- The records agree on every open listed socket, except for reading on those in `X` and for
writing on those in `Y`. -/
structure WatchingBut (w : World) (X Y : Sid → Prop) : Prop where
  read : ∀ s z, w.mem s = .live z → z.node = .linked → z.eof = false → ¬ X s → w.ReadOk z
  write : ∀ s z, w.mem s = .live z → z.node = .linked → z.eof = false → ¬ Y s → w.WriteOk z

end World

/-! ## The descriptor sets under a move -/

/-- Adding a descriptor changes nothing for the others. -/
theorem mem_insert_iff_of_ne {d e : ℤ} {fds : Finset ℤ} (h : d ≠ e) :
    d ∈ insert e fds ↔ d ∈ fds := by
  simp [h]

/-- Removing a descriptor changes nothing for the others. -/
theorem mem_erase_iff_of_ne {d e : ℤ} {fds : Finset ℤ} (h : d ≠ e) : d ∈ fds.erase e ↔ d ∈ fds := by
  simp [h]

/-- A move does not change whether another socket is watched for reading. -/
theorem Move.mem_fdsRead {a : Act} (m : Move a w w') (hw : w.WF) (hz : w.mem t = .live z)
    (hfd : 0 ≤ z.fd) (h : a.socket ≠ some t) : z.fd ∈ w'.fdsRead ↔ z.fd ∈ w.fdsRead := by
  have other : ∀ {s y}, w.mem s = .live y → some s ≠ some t → z.fd ≠ y.fd := by
    intro s y hy hst hfds
    exact hst (congrArg some (hw.inj t s z y hz hy hfd hfds).symm)
  cases m with
  | init hu =>
      -- before the library is initialised there is no socket
      cases hi : w.libInit with
      | true => rfl
      | false => exact absurd ((hw.libInit_of_live hz).symm.trans hi) Bool.false_ne_true.symm
  | watch live node eof off fd hcb => exact mem_insert_iff_of_ne (other live h)
  | unwatch live node eof on fd => exact mem_erase_iff_of_ne (other live h)
  | close live node eof fd => exact mem_erase_iff_of_ne (other live h)
  | abandon live node eof fd mask same =>
      exact mem_erase_iff_of_ne fun hc => other live h (hc.trans same.fd)
  | recount live node eof fd mask same =>
      exact mem_erase_iff_of_ne fun hc => other live h (hc.trans same.fd)
  | log | mode | «open» | watchWrite | touch | receive | recvFail | unlink | release | «free» => rfl

/-- A move does not change whether another socket is watched for writing. -/
theorem Move.mem_fdsWrite {a : Act} (m : Move a w w') (hw : w.WF) (hz : w.mem t = .live z)
    (hfd : 0 ≤ z.fd) (h : a.socket ≠ some t) : z.fd ∈ w'.fdsWrite ↔ z.fd ∈ w.fdsWrite := by
  have other : ∀ {s y}, w.mem s = .live y → some s ≠ some t → z.fd ≠ y.fd := by
    intro s y hy hst hfds
    exact hst (congrArg some (hw.inj t s z y hz hy hfd hfds).symm)
  cases m with
  | init hu =>
      -- before the library is initialised there is no socket
      cases hi : w.libInit with
      | true => rfl
      | false => exact absurd ((hw.libInit_of_live hz).symm.trans hi) Bool.false_ne_true.symm
  | watchWrite live node eof off fd => exact mem_insert_iff_of_ne (other live h)
  | close live node eof fd => exact mem_erase_iff_of_ne (other live h)
  | abandon live node eof fd mask same =>
      exact mem_erase_iff_of_ne fun hc => other live h (hc.trans same.fd)
  | recount live node eof fd mask same =>
      exact mem_erase_iff_of_ne fun hc => other live h (hc.trans same.fd)
  | log | mode | «open» | watch | unwatch | touch | receive | recvFail | unlink | release
  | «free» => rfl

/-- A new descriptor is watched for nothing. -/
theorem World.WF.fresh_notMem (hw : w.WF) {fd : ℤ} (h : fd ∉ w.openFds) :
    fd ∉ w.fdsRead ∧ fd ∉ w.fdsWrite := by
  have owned : (∃ s z, w.mem s = .live z ∧ z.node = .linked ∧ z.eof = false ∧ z.fd = fd) →
      fd ∈ w.openFds := by
    rintro ⟨s, z, hz, hn, -, rfl⟩
    exact hw.owned s z hz (hw.shape_linked hz hn).1
  exact ⟨fun hd => h (owned (hw.read fd hd)), fun hd => h (owned (hw.write fd hd))⟩

/-! ## Steps of the invariant -/

namespace World.WatchingBut

/-- Fewer claims. -/
theorem mono {X' Y' : Sid → Prop} (h : w.WatchingBut X Y) (hX : ∀ t, X t → X' t)
    (hY : ∀ t, Y t → Y' t) : w.WatchingBut X' Y' :=
  ⟨fun s z hz hn he hs => h.read s z hz hn he fun hc => hs (hX s hc),
    fun s z hz hn he hs => h.write s z hz hn he fun hc => hs (hY s hc)⟩

/-- On a socket that is EOF nothing is claimed. -/
theorem closed (h : w.WatchingBut X Y) (hz : w.mem s = .live z) (he : z.eof = true) :
    w.WatchingBut (fun t => X t ∧ t ≠ s) fun t => Y t ∧ t ≠ s := by
  have hne : ∀ t y, w.mem t = .live y → y.eof = false → t ≠ s := by
    rintro t y hy hye rfl
    obtain rfl : z = y := Slot.live.inj (hz.symm.trans hy)
    rw [he] at hye; cases hye
  exact ⟨fun t y hy hn hye ht => h.read t y hy hn hye fun hc => ht ⟨hc, hne t y hy hye⟩,
    fun t y hy hn hye ht => h.write t y hy hn hye fun hc => ht ⟨hc, hne t y hy hye⟩⟩

/-- What replaces the fields of one socket, and changes the sets for no other, keeps the records
when it keeps or mends them on this socket. -/
theorem replace (h : w.WatchingBut X Y) (hw : w.WF) {X' Y' : Sid → Prop}
    (hX : ∀ t, t ≠ s → X t → X' t) (hY : ∀ t, t ≠ s → Y t → Y' t)
    (hmem : ∀ t, t ≠ s → w'.mem t = w.mem t)
    (hread : ∀ t y, t ≠ s → w.mem t = .live y → 0 ≤ y.fd → (y.fd ∈ w'.fdsRead ↔ y.fd ∈ w.fdsRead))
    (hwrite : ∀ t y, t ≠ s → w.mem t = .live y → 0 ≤ y.fd →
      (y.fd ∈ w'.fdsWrite ↔ y.fd ∈ w.fdsWrite))
    (hself : ∀ z', w'.mem s = .live z' → z'.node = .linked → z'.eof = false →
      (¬ X' s → w'.ReadOk z') ∧ (¬ Y' s → w'.WriteOk z')) : w'.WatchingBut X' Y' := by
  constructor
  · intro t y hy hn he ht
    by_cases hts : t = s
    · subst hts; exact (hself y hy hn he).1 ht
    · rw [hmem t hts] at hy
      obtain ⟨hwatched, hcb⟩ := h.read t y hy hn he fun hc => ht (hX t hts hc)
      exact ⟨hwatched.trans (hread t y hts hy (hw.shape_linked hy hn).1).symm, hcb⟩
  · intro t y hy hn he ht
    by_cases hts : t = s
    · subst hts; exact (hself y hy hn he).2 ht
    · rw [hmem t hts] at hy
      obtain ⟨hwatched, hbuf⟩ := h.write t y hy hn he fun hc => ht (hY t hts hc)
      exact ⟨hwatched.trans (hwrite t y hts hy (hw.shape_linked hy hn).1).symm, hbuf⟩

end World.WatchingBut

/-- The records of reading are about the state word, the type, the descriptor and the callback. -/
theorem World.ReadOk.congr (h : w.ReadOk z) (hset : z.fd ∈ w'.fdsRead ↔ z.fd ∈ w.fdsRead)
    (hfd : z'.fd = z.fd) (hon : z'.readEnable = z.readEnable) (htype : z'.type = z.type)
    (hcb : z'.readCb = z.readCb) : w'.ReadOk z' := by
  refine ⟨?_, ?_⟩
  · rw [hon, hfd, hset]; exact h.watched
  · rw [hon, htype, hcb]; exact h.callback

/-- The records of writing are about the state word, the descriptor and the buffer. -/
theorem World.WriteOk.congr (h : w.WriteOk z) (hset : z.fd ∈ w'.fdsWrite ↔ z.fd ∈ w.fdsWrite)
    (hfd : z'.fd = z.fd) (hon : z'.writeEnable = z.writeEnable)
    (hbuf : z'.wbuf.isSome = z.wbuf.isSome) : w'.WriteOk z' := by
  refine ⟨?_, ?_⟩
  · rw [hon, hfd, hset]; exact h.watched
  · rw [hon, hbuf]; exact h.buffer

/-- What a move leaves to be exempt from the records of reading. -/
def Act.exemptRead (X : Sid → Prop) (a : Act) (t : Sid) : Prop :=
  match a with
  | .recvFail s => X t ∨ t = s
  | .watch s | .close s => X t ∧ t ≠ s
  | _ => X t

/-- What a move leaves to be exempt from the records of writing. -/
def Act.exemptWrite (Y : Sid → Prop) (a : Act) (t : Sid) : Prop :=
  match a with
  | .recvFail s => Y t ∨ t = s
  | .close s => Y t ∧ t ≠ s
  | _ => Y t

/-- A socket that is not enabled for reading, not watched and without a callback. -/
theorem World.ReadOk.off (hoff : z.readEnable = false) (hfd : z.fd ∉ w.fdsRead)
    (hcb : z.readCb = none) : w.ReadOk z := by
  constructor
  · rw [hoff]
    exact ⟨fun hc => (nomatch hc), fun hc => absurd hc hfd⟩
  · intro _
    rw [hoff, hcb]
    simp

/-- A socket that is not enabled for writing, not watched and without a buffer. -/
theorem World.WriteOk.off (hoff : z.writeEnable = false) (hfd : z.fd ∉ w.fdsWrite)
    (hbuf : z.wbuf = none) : w.WriteOk z := by
  constructor
  · rw [hoff]
    exact ⟨fun hc => (nomatch hc), fun hc => absurd hc hfd⟩
  · rw [hoff, hbuf]
    simp

/-- A socket that is enabled for reading, watched and with a callback unless it is a server. -/
theorem World.ReadOk.on (hon : z.readEnable = true) (hfd : z.fd ∈ w.fdsRead)
    (hcb : z.type ≠ .server → z.readCb.isSome) : w.ReadOk z :=
  ⟨⟨fun _ => hfd, fun _ => hon⟩, fun ht => ⟨fun _ => hcb ht, fun _ => hon⟩⟩

/-- A socket that is enabled for writing, watched and with a buffer. -/
theorem World.WriteOk.on (hon : z.writeEnable = true) (hfd : z.fd ∈ w.fdsWrite)
    (hbuf : z.wbuf.isSome) : w.WriteOk z :=
  ⟨⟨fun _ => hfd, fun _ => hon⟩, ⟨fun _ => hbuf, fun _ => hon⟩⟩

/-- A socket that has just been opened is neither enabled nor watched. -/
theorem World.WF.opened_records {fd : ℕ} {source : Option Sid} (hw : w.WF)
    (hz : w.mem s = .live z) (hn : z.node = .self) (fresh : (fd : ℤ) ∉ w.openFds)
    (opened : z.OpenedAs z' fd) :
    (w.openedWorld s z' fd source).ReadOk z' ∧ (w.openedWorld s z' fd source).WriteOk z' := by
  obtain ⟨-, hstate, hwbuf, hread, -⟩ := hw.shape_self hz hn
  obtain ⟨hnr, hnw⟩ := hw.fresh_notMem fresh
  constructor
  · refine .off ?_ (opened.fd ▸ hnr) (opened.readCb.trans hread)
    rw [ZSocket.readEnable, opened.state, hstate]
    exact hasFlag_zero _
  · refine .off ?_ (opened.fd ▸ hnw) (opened.wbuf.trans hwbuf)
    rw [ZSocket.writeEnable, opened.state, hstate]
    exact hasFlag_zero _

/-- **The records of the socket of a move.** -/
theorem Move.records {a : Act} (m : Move a w w') (hw : w.WF) (h : w.WatchingBut X Y)
    (hs : a.socket = some s) (hz' : w'.mem s = .live z') (hn : z'.node = .linked)
    (he : z'.eof = false) :
    (¬ a.exemptRead X s → w'.ReadOk z') ∧ (¬ a.exemptWrite Y s → w'.WriteOk z') := by
  -- every case but the last writes an object, which is then the one that is read
  cases m with
  | log | mode => cases hs
  | init unused =>
      obtain rfl := Option.some.inj hs
      obtain rfl := Slot.live.inj ((World.put_mem_self _ _ _).symm.trans hz')
      cases hn
  | «open» live node fresh opened accepted =>
      obtain rfl := Option.some.inj hs
      obtain rfl := Slot.live.inj ((World.put_mem_self _ _ _).symm.trans hz')
      obtain ⟨hread, hwrite⟩ := hw.opened_records live node fresh opened
      exact ⟨fun _ => hread, fun _ => hwrite⟩
  | watch live node eof off fd hcb =>
      obtain rfl := Option.some.inj hs
      obtain rfl := Slot.live.inj ((World.put_mem_self _ _ _).symm.trans hz')
      refine ⟨fun _ => .on ?_ (Finset.mem_insert_self _ _) hcb, fun hY => ?_⟩
      · exact hasFlag_or_self _ (by decide)
      · exact (h.write _ _ live node eof hY).congr Iff.rfl rfl
          (hasFlag_or_of_disjoint _ (by decide))
          rfl
  | unwatch live node eof on fd =>
      obtain rfl := Option.some.inj hs
      obtain rfl := Slot.live.inj ((World.put_mem_self _ _ _).symm.trans hz')
      refine ⟨fun _ => .off (hasFlag_andNot_self _ _) ?_ rfl, fun hY => ?_⟩
      · exact fun hc => Finset.ne_of_mem_erase hc rfl
      · exact (h.write _ _ live node eof hY).congr Iff.rfl rfl
          (hasFlag_andNot_of_disjoint _ (by decide)) rfl
  | watchWrite live node eof off fd =>
      obtain rfl := Option.some.inj hs
      obtain rfl := Slot.live.inj ((World.put_mem_self _ _ _).symm.trans hz')
      refine ⟨fun hX => ?_, fun _ => .on ?_ (Finset.mem_insert_self _ _) rfl⟩
      · exact (h.read _ _ live node eof hX).congr Iff.rfl rfl (hasFlag_or_of_disjoint _ (by decide))
          rfl rfl
      · exact hasFlag_or_self _ (by decide)
  | @touch _ _ z _ live same | @receive _ _ z _ live same =>
      obtain rfl := Option.some.inj hs
      obtain rfl := Slot.live.inj ((World.put_mem_self _ _ _).symm.trans hz')
      have hn' : z.node = .linked := same.node.symm.trans hn
      have he' : z.eof = false := by rw [← he, ZSocket.eof, ZSocket.eof, same.state]
      refine ⟨fun hX => ?_, fun hY => ?_⟩
      · exact (h.read _ z live hn' he' hX).congr (by rw [← same.fd]; rfl) same.fd
          (by rw [ZSocket.readEnable, same.state]) same.type same.readCb
      · exact (h.write _ z live hn' he' hY).congr (by rw [← same.fd]; rfl) same.fd
          (by rw [ZSocket.writeEnable, same.state]) same.wbuf
  | recvFail live node eof same =>
      obtain rfl := Option.some.inj hs
      exact ⟨fun hX => absurd (.inr rfl) hX, fun hY => absurd (.inr rfl) hY⟩
  | close | abandon | recount =>
      obtain rfl := Option.some.inj hs
      obtain rfl := Slot.live.inj ((World.put_mem_self _ _ _).symm.trans hz')
      rw [ZSocket.closed_eof] at he
      cases he
  | unlink live node eof =>
      obtain rfl := Option.some.inj hs
      obtain rfl := Slot.live.inj ((World.put_mem_self _ _ _).symm.trans hz')
      cases hn
  | release live node =>
      obtain rfl := Option.some.inj hs
      obtain rfl := Slot.live.inj ((World.put_mem_self _ _ _).symm.trans hz')
      rw [ZSocket.torn, node] at hn
      cases hn
  | «free» live node =>
      obtain rfl := Option.some.inj hs
      rw [World.log_mem] at hz'
      simp at hz'

/-- A visit of the poll in which `recv` fails and `read_cb` makes the calls `script`. -/
def VisitIo.failing (script : List Api) : VisitIo where
  recv :=
    { callocSelf := true, callocRaw := true, recv := none, now := 0, script := script, nr := 0,
      grow := none }
  send := none

/-- The connection `1` is read from, and in the next pass its `recv` fails. -/
def recvFails (script : List Api) : List Input :=
  readOne 8000 ++ [.loop 1000 (.ready {4} ∅), .visit (.failing script)]

end LibZio
