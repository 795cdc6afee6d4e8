import LibZio.Serial.OpenCount

/-! # A shared port is not closed under a user

Every call keeps the invariant `Used` if the holders use their handles fairly, so a port stays open
while it is in use, and the backend closes nothing before the last use ends (`serial_staysOpen`). -/

namespace LibZio

variable {w w' : UnixPorts}

/-! ## The backend -/

/-- An opening that fails leaves the open descriptors, and the port without one. -/
theorem UnixOpens.failed {answer : UnixOpenAnswer} {fds : List ℤ} {ctx ctx' : Serial UnixDev}
    {rc : ℤ} {es : List (DevEvent Termios)} (h : UnixOpens answer fds ctx rc ctx' es)
    (failed : rc ≠ 0) (p : Pid) (tr : List UnixEvent) :
    ctx.isOpen = false ∧ ctx'.isOpen = false ∧ ctx'.s = -1 ∧
      Ledger.held SerialEvent.onFds (es.map (SerialEvent.device p) ++ tr) =
        Ledger.held SerialEvent.onFds tr := by
  cases h with
  | already => exact absurd rfl failed
  | noDevice off => exact ⟨off, off, rfl, rfl⟩
  | noSpeed off => exact ⟨off, off, rfl, List.erase_cons_head ..⟩
  | noSettings off => exact ⟨off, off, rfl, List.erase_cons_head ..⟩
  | opened => exact absurd rfl failed

/-- An opening that succeeds leaves the port as it was, open, or gives it a new descriptor. -/
theorem UnixOpens.succeeded {answer : UnixOpenAnswer} {fds : List ℤ} {ctx ctx' : Serial UnixDev}
    {es : List (DevEvent Termios)} (h : UnixOpens answer fds ctx 0 ctx' es)
    (p : Pid) (tr : List UnixEvent) :
    (ctx.isOpen = true ∧ ctx' = ctx ∧
        Ledger.held SerialEvent.onFds (es.map (SerialEvent.device p) ++ tr) =
          Ledger.held SerialEvent.onFds tr) ∨
      (ctx'.s ≠ -1 ∧ ctx'.s ∉ fds ∧
        Ledger.held SerialEvent.onFds (es.map (SerialEvent.device p) ++ tr) =
          ctx'.s :: Ledger.held SerialEvent.onFds tr) := by
  cases h with
  | already on => exact .inl ⟨on, rfl, rfl⟩
  | @opened fd off some fresh =>
      refine .inr ⟨?_, fresh, rfl⟩
      change (fd : ℤ) ≠ -1
      omega

/-- What a backend does to a port that is not in use, or to which no handle is out. -/
theorem closesUnused_device {p : Pid} {es : List (DevEvent Termios)} {tr : List UnixEvent}
    (idle : useBalance p tr = 0 ∨ handleCount p (Ledger.held SerialEvent.onHandles tr) = 0)
    (h : ClosesUnused tr) : ClosesUnused (es.map (SerialEvent.device p) ++ tr) := by
  induction es with
  | nil => exact h
  | cons d es ih =>
      refine ⟨?_, ih⟩
      cases d with
      | opened fd => trivial
      | configured fd settings => trivial
      | closed fd =>
          have handles : Ledger.held SerialEvent.onHandles
              (es.map (SerialEvent.device (B := linuxSerialBackend) p) ++ tr) =
                Ledger.held SerialEvent.onHandles tr := by
            refine Ledger.held_append _ fun e he => ?_
            obtain ⟨d, -, rfl⟩ := List.mem_map.mp he
            rfl
          have balance : useBalance p (es.map (SerialEvent.device p) ++ tr) = useBalance p tr :=
            useBalance_append onUses_device
          exact idle.imp (fun zero => balance.trans zero)
            fun none => (congrArg (handleCount p) handles).trans none

/-! ## The calls -/

namespace Used

/-- **A port that keeps its entry.** A call that writes the entry and the object of the port `p`,
and leaves the other ports and their descriptors, keeps the invariant if what it has written
satisfies it. -/
theorem rewritten (inv : Used w) (sm : Manger) (ctx : Serial UnixDev) {p : Pid} (ht : sm.t = p)
    (es : List UnixEvent) (counted : Counted w') (trace : w'.trace = es ++ w.trace)
    (mangers : w'.mangers = (w.putManger sm).mangers)
    (mem : w'.mem = Function.update w.mem p (.live ctx))
    (local_ : ∀ e ∈ es, ∀ q, q ≠ p → e.onUses q = .neither)
    (sound : Ledger.Sound (SerialEvent.onUses p) w'.trace)
    (fds : ∀ fd ∈ w.openFds, (∀ ctx : Serial UnixDev, p ∈ w.registry.ports → w.mem p = .live ctx →
      fd ≠ ctx.s) → fd ∈ w'.openFds)
    (port : PortOpen w' sm ctx)
    (own : ctx.s = -1 ∨ ctx.s ∉ w.openFds ∨
      ∃ ctx₀ : Serial UnixDev, p ∈ w.registry.ports ∧ w.mem p = .live ctx₀ ∧ ctx.s = ctx₀.s)
    (unused : ClosesUnused w'.trace) : Used w' := by
  have live : w'.mem p = .live ctx := by rw [mem, Function.update_self]
  refine inv.frame p es counted trace local_ sound ?entries ?mem ?used fds ?port unused
  case entries =>
    intro m hm hq
    rw [mangers] at hm
    rcases SerialWorld.mem_putManger hm with rfl | ⟨hm, -⟩
    · exact absurd ht hq
    · exact hm
  case mem =>
    intro q hq
    rw [mem, Function.update_of_ne hq]
  case used =>
    intro none
    cases live.symm.trans none
  case port =>
    intro m hm hq ctx' live'
    rw [mangers] at hm
    cases live.symm.trans live'
    rcases SerialWorld.mem_putManger hm with rfl | ⟨-, hne⟩
    · exact ⟨port, own⟩
    · exact absurd (hq.trans ht.symm) hne

/-- The entry of a port to which a handle is out, as `findSerial` finds it. -/
theorem entry (inv : Used w) {k : Handle} (out : k ∈ w.handles) {ctx : Serial UnixDev}
    (live : w.mem k.port = .live ctx) {sm : Manger}
    (found : w.findSerial ctx.backendData.device = .ok (some sm)) :
    sm ∈ w.mangers ∧ sm.t = k.port ∧ PortOpen w sm ctx := by
  obtain ⟨hsm, ht⟩ := inv.counted.found_eq out live found
  exact ⟨hsm, ht, inv.port sm hsm ctx (by rw [ht]; exact live)⟩

/-- A port that is not counted as open is not in use. -/
theorem balance_zero (inv : Used w) {sm : Manger} {ctx : Serial UnixDev}
    (before : PortOpen w sm ctx) (unopened : ¬0 < sm.opencount) : useBalance sm.t w.trace = 0 := by
  have balance := before.balance (inv.sound sm.t)
  have uses := useBalance_eq (inv.sound sm.t)
  omega

/-- `serial_open` keeps the invariant. -/
theorem opens (inv : Used w) {k : Handle} (out : k ∈ w.handles) {answer : UnixOpenAnswer} {rc : ℤ}
    (h : OpenStep (B := linuxSerialBackend) k answer w rc w') : Used w' := by
  have counted := (inv.counted.opens out h).2
  have listed := inv.counted.valid.listed k out
  cases h with
  | orphan live none => exact absurd none (inv.counted.not_orphan out live)
  | @again ctx sm live found inUse room =>
      obtain ⟨-, ht, before⟩ := inv.entry out live found
      refine inv.rewritten { sm with opencount := sm.opencount + 1 } { ctx with isOpen := true } ht
        [.opened k ctx.backendData.dev] counted rfl rfl rfl
        ?neither ?sound ?fds ?port (.inr (.inr ⟨ctx, listed, live, rfl⟩)) ?unused
      case neither =>
        intro e he q hq
        rw [List.mem_singleton.mp he]
        exact onUses_opened_of_ne hq
      case sound =>
        exact (Ledger.sound_acquire _ (onUses_opened k _)).mpr (inv.sound k.port)
      case fds =>
        intro fd hfd _
        exact hfd
      case port =>
        exact before.again (inv.sound sm.t) ht inUse rfl rfl
      case unused =>
        exact ⟨trivial, inv.unused⟩
  | @failed ctx ctx' sm rc es live found unopened backend failed =>
      obtain ⟨hsm, ht, before⟩ := inv.entry out live found
      obtain ⟨-, off, none, fds⟩ := (unixSerialOpen_opens backend).failed failed k.port w.trace
      refine inv.rewritten sm ctx' ht (es.map (SerialEvent.device k.port)) counted rfl
        (SerialWorld.putManger_self inv.counted.valid.nodup hsm).symm rfl
        ?neither ?sound ?fds ?port (.inl none) ?unused
      case neither =>
        exact fun e he q _ => onUses_device e he
      case sound =>
        exact (Ledger.sound_append _ onUses_device).mpr (inv.sound k.port)
      case fds =>
        intro fd hfd _
        change fd ∈ Ledger.held SerialEvent.onFds (es.map (SerialEvent.device k.port) ++ w.trace)
        rw [fds]
        exact hfd
      case port =>
        refine .off ?_ unopened off none
        exact before.count.trans
          (congrArg (fun l : List Handle => (l.length : ℤ))
            (Ledger.held_append _ onUses_device).symm)
      case unused =>
        have idle := inv.balance_zero before unopened
        rw [ht] at idle
        exact closesUnused_device (.inl idle) inv.unused
  | @opened ctx ctx' sm es live found unopened backend =>
      obtain ⟨-, ht, before⟩ := inv.entry out live found
      have idle := inv.balance_zero before unopened
      rw [ht] at idle
      have way := (unixSerialOpen_opens backend).succeeded k.port w.trace
      -- the descriptors afterwards, and the one of the port
      have some : ctx'.s ≠ -1 := by
        rcases way with ⟨on, rfl, -⟩ | ⟨some, -, -⟩
        · exact before.flag.mp on
        · exact some
      have fds : ∀ fd ∈ w.openFds,
          fd ∈ Ledger.held SerialEvent.onFds (es.map (SerialEvent.device k.port) ++ w.trace) := by
        intro fd hfd
        rcases way with ⟨-, -, same⟩ | ⟨-, -, more⟩
        · exact same.symm ▸ hfd
        · exact more.symm ▸ List.mem_cons_of_mem _ hfd
      have own : ctx'.s ∈
          Ledger.held SerialEvent.onFds (es.map (SerialEvent.device k.port) ++ w.trace) := by
        rcases way with ⟨on, rfl, -⟩ | ⟨-, -, more⟩
        · exact fds _ (before.fd some)
        · exact more.symm ▸ List.mem_cons_self ..
      refine inv.rewritten { sm with opencount := sm.opencount + 1 } { ctx' with isOpen := true } ht
        (.opened k ctx'.backendData.dev :: es.map (SerialEvent.device k.port))
        counted rfl rfl (Function.update_idem ..) ?neither ?sound ?fds ?port ?own ?unused
      case neither =>
        intro e he q hq
        rcases List.mem_cons.mp he with rfl | he
        · exact onUses_opened_of_ne hq
        · exact onUses_device e he
      case sound =>
        exact (Ledger.sound_acquire _ (onUses_opened k _)).mpr
          ((Ledger.sound_append _ onUses_device).mpr (inv.sound k.port))
      case fds =>
        intro fd hfd _
        exact fds fd hfd
      case port =>
        exact before.fresh ht (Ledger.held_append _ onUses_device)
          ((useBalance_append onUses_device).trans idle) rfl some own
      case own =>
        rcases way with ⟨-, rfl, -⟩ | ⟨-, new, -⟩
        · exact .inr (.inr ⟨ctx', listed, live, rfl⟩)
        · exact .inr (.inl new)
      case unused =>
        exact ⟨trivial, closesUnused_device (.inl idle) inv.unused⟩

/-- `serial_new` with a known parity keeps the invariant. -/
theorem news (inv : Used w) {holder : ℕ} {asked : Request} {answer : NewAnswer linuxSerialBackend}
    {r : Option Pid} (known : parityKnown asked.parity = true)
    (h : NewStep holder asked answer w r w') : Used w' := by
  have counted := (inv.counted.news h).2
  cases h with
  | refused => exact inv
  | @shared sm t found live sharing shares baud parity dataBit stopBit room =>
      obtain ⟨hsm, -⟩ := findIn_some found
      have before := inv.port sm hsm t live
      have listed : sm.t ∈ w.registry.ports := List.mem_map_of_mem hsm
      refine inv.rewritten { sm with refcount := sm.refcount + 1 } t rfl
        [.acquired ⟨holder, sm.t, asked⟩] counted rfl rfl (SerialWorld.mem_eq_update live)
        ?neither (inv.sound sm.t) ?fds ?port (.inr (.inr ⟨t, listed, live, rfl⟩)) ?unused
      case neither =>
        intro e he q _
        rw [List.mem_singleton.mp he]
        rfl
      case fds =>
        exact fun fd hfd _ => hfd
      case port =>
        exact before.congr rfl rfl rfl rfl id
      case unused =>
        exact ⟨trivial, inv.unused⟩
  | rejected none unused parity => exact absurd (known.symm.trans parity) nofun
  | @created none unused parity =>
      have fresh : ∀ m ∈ w.mangers, m.t ≠ answer.ptr := by
        intro m hm same
        obtain ⟨ctx, live, -⟩ := findIn_none none hm
        rw [same, unused] at live
        cases live
      refine inv.frame answer.ptr [.acquired ⟨holder, answer.ptr, asked⟩] counted
        rfl ?neither ?sound ?entries ?mem ?used ?fds ?port ?unused
      case neither =>
        intro e he q _
        rw [List.mem_singleton.mp he]
        rfl
      case sound =>
        exact inv.sound answer.ptr
      case entries =>
        intro m hm hq
        rcases List.mem_cons.mp hm with rfl | hm
        · exact absurd rfl hq
        · exact hm
      case mem =>
        intro q hq
        exact Function.update_of_ne hq ..
      case used =>
        intro none
        cases (Function.update_self answer.ptr _ w.mem).symm.trans none
      case fds =>
        exact fun fd hfd _ => hfd
      case port =>
        intro m hm hq ctx live
        cases (Function.update_self answer.ptr _ w.mem).symm.trans live
        rcases List.mem_cons.mp hm with rfl | hm
        · have uses := inv.fresh answer.ptr unused
          exact ⟨.off (congrArg (fun l : List Handle => (l.length : ℤ)) uses).symm (Int.lt_irrefl 0)
            rfl rfl, .inl rfl⟩
        · exact absurd hq (fresh m hm)
      case unused =>
        exact ⟨trivial, inv.unused⟩

/-- A backend asked to close a port leaves the descriptors of the others. -/
theorem mem_held_close (answer : UnixCloseAnswer) {ctx : Serial UnixDev} {p : Pid} {fd : ℤ}
    {tr : List UnixEvent} (h : fd ∈ Ledger.held SerialEvent.onFds tr) (other : fd ≠ ctx.s) :
    fd ∈ Ledger.held SerialEvent.onFds
      ((unixSerialClose answer ctx).2.2.map (SerialEvent.device p) ++ tr) := by
  have way := unixSerialClose_closes answer ctx
  generalize unixSerialClose answer ctx = done at way
  cases way with
  | idle => exact h
  | stuck => exact h
  | closed => exact Ledger.mem_held_of_ne _ rfl other h

/-- `serial_close` by a holder that has the port open keeps the invariant. -/
theorem closes (inv : Used w) {k : Handle} (out : k ∈ w.handles) (uses : k ∈ w.uses k.port)
    {answer : UnixCloseAnswer} {rc : ℤ}
    (h : CloseStep (B := linuxSerialBackend) k answer w rc w') : Used w' := by
  have counted := (inv.counted.closes out h).2
  have listed := inv.counted.valid.listed k out
  have sound : Ledger.Sound (SerialEvent.onUses k.port) (.closed k :: w.trace) :=
    (Ledger.sound_release _ (onUses_closed k)).mpr ⟨uses, inv.sound k.port⟩
  cases h with
  | orphan live none => exact absurd none (inv.counted.not_orphan out live)
  | @kept ctx sm live found inUse =>
      obtain ⟨-, ht, before⟩ := inv.entry out live found
      have ht' : sm.countClose.t = k.port := sm.countClose_t.trans ht
      obtain ⟨pos, count⟩ := before.countClose_eq ht uses
      refine inv.rewritten sm.countClose ctx ht' [.closed k] counted rfl rfl
        (SerialWorld.mem_eq_update live) ?neither sound ?fds ?port
        (.inr (.inr ⟨ctx, listed, live, rfl⟩)) ?unused
      case neither =>
        intro e he q hq
        rw [List.mem_singleton.mp he]
        exact onUses_closed_of_ne hq
      case fds =>
        exact fun fd hfd _ => hfd
      case port =>
        constructor
        · rw [ht']
          exact count
        · exact before.flag
        · intro _
          rw [sm.countClose_t]
          exact before.opened pos
        · exact before.fd
      case unused =>
        exact ⟨trivial, inv.unused⟩
  | @backend ctx sm live found unused =>
      obtain ⟨-, ht, before⟩ := inv.entry out live found
      have ht' : sm.countClose.t = k.port := sm.countClose_t.trans ht
      obtain ⟨pos, count⟩ := before.countClose_eq ht uses
      -- the close that is asked of the backend ends the last use
      have idle : useBalance k.port (.closed k :: w.trace) = 0 := by
        rw [useBalance_eq sound, ← count]
        exact unused
      have idle' : useBalance k.port (.closing k.port :: .closed k :: w.trace) = 0 := idle
      obtain ⟨on, -⟩ := before.opened pos
      have some := before.flag.mp on
      have own :=
        PortOpen.asked answer on (before.fd some) some k.port [.closing k.port, .closed k] rfl
      refine inv.rewritten sm.countClose (unixSerialClose answer ctx).2.1 ht'
        ((unixSerialClose answer ctx).2.2.map (SerialEvent.device k.port) ++
          [.closing k.port, .closed k])
        counted ?trace rfl rfl ?neither ?sound ?fds ?port ?own ?unused
      case trace =>
        rw [List.append_assoc]
        rfl
      case neither =>
        intro e he q hq
        rcases List.mem_append.mp he with he | he
        · exact onUses_device e he
        · rcases List.mem_cons.mp he with rfl | he
          · rfl
          · rw [List.mem_singleton.mp he]
            exact onUses_closed_of_ne hq
      case sound =>
        exact (Ledger.sound_append _ onUses_device).mpr sound
      case fds =>
        exact fun fd hfd other => mem_held_close answer hfd (other ctx listed live)
      case port =>
        have uses' : Ledger.held (SerialEvent.onUses k.port) ((unixSerialClose answer ctx).2.2.map
            (SerialEvent.device k.port) ++ .closing k.port :: .closed k :: w.trace) =
              Ledger.held (SerialEvent.onUses k.port) (.closed k :: w.trace) :=
          Ledger.held_append _ onUses_device
        have count' : sm.countClose.opencount = (Ledger.held (SerialEvent.onUses sm.countClose.t)
            ((unixSerialClose answer ctx).2.2.map (SerialEvent.device k.port) ++
              .closing k.port :: .closed k :: w.trace)).length := by
          rw [ht', uses']
          exact count
        have unopened : ¬0 < sm.countClose.opencount :=
          fun inUse => absurd unused (Int.ne_of_gt inUse)
        -- the backend fails and leaves the port open, or closes its descriptor
        rcases own with ⟨on', same, own⟩ | ⟨off, none⟩
        · refine ⟨count', ?_, fun inUse => absurd inUse unopened, fun _ => same.symm ▸ own⟩
          exact iff_of_true on' fun h => some (same.symm.trans h)
        · exact .off count' unopened off none
      case own =>
        rcases own with ⟨-, same, -⟩ | ⟨-, none⟩
        · exact .inr (.inr ⟨ctx, listed, live, same⟩)
        · exact .inl none
      case unused =>
        exact closesUnused_device (.inl idle') ⟨idle, trivial, inv.unused⟩

/-- `serial_destory` keeps the invariant. -/
theorem destorys (inv : Used w) {k : Handle} (out : k ∈ w.handles) {answer : UnixCloseAnswer}
    (h : DestoryStep (B := linuxSerialBackend) k answer w w') : Used w' := by
  have counted := (inv.counted.destorys out h).2
  have listed := inv.counted.valid.listed k out
  cases h with
  | orphan live none => exact absurd none (inv.counted.not_orphan out live)
  | @kept ctx sm live found more =>
      obtain ⟨-, ht, before⟩ := inv.entry out live found
      have ht' : sm.countRelease.t = k.port := sm.countRelease_t.trans ht
      refine inv.rewritten sm.countRelease ctx ht' [.released k] counted rfl rfl
        (SerialWorld.mem_eq_update live) ?neither (inv.sound k.port) ?fds ?port
        (.inr (.inr ⟨ctx, listed, live, rfl⟩)) ?unused
      case neither =>
        intro e he q _
        rw [List.mem_singleton.mp he]
        rfl
      case fds =>
        exact fun fd hfd _ => hfd
      case port =>
        exact before.congr sm.countRelease_t sm.countRelease_opencount rfl rfl id
      case unused =>
        exact ⟨trivial, inv.unused⟩
  | @last ctx sm live found none =>
      obtain ⟨hsm, ht⟩ := inv.counted.found_eq out live found
      have ht' : sm.countRelease.t = k.port := sm.countRelease_t.trans ht
      -- the last handle is released before the device is closed
      have gone : handleCount k.port (w.handles.erase k) = 0 := by
        have one := Registry.handleCount_erase_self out
        have before := inv.counted.refcount sm hsm
        rw [ht] at before
        have pos : 0 < sm.refcount := by omega
        rw [Manger.countRelease, if_pos pos] at none
        change sm.refcount - 1 = 0 at none
        omega
      refine inv.frame k.port (.freed k.port :: ((unixSerialClose answer ctx).2.2.map
        (SerialEvent.device k.port) ++ [.released k])) counted
        ?trace ?neither ?sound ?entries ?mem ?used ?fds ?port ?unused
      case trace =>
        rw [List.cons_append, List.append_assoc]
        rfl
      case neither =>
        intro e he q _
        rcases List.mem_cons.mp he with rfl | he
        · rfl
        · rcases List.mem_append.mp he with he | he
          · exact onUses_device e he
          · rw [List.mem_singleton.mp he]
            rfl
      case sound =>
        exact (@Ledger.sound_append _ _ _ _ _ (.released k :: w.trace) onUses_device).mpr
          (inv.sound k.port)
      case entries =>
        intro m hm hq
        rcases SerialWorld.mem_putManger (List.mem_of_mem_filter hm) with rfl | ⟨hm, -⟩
        · exact absurd ht' hq
        · exact hm
      case mem =>
        intro q hq
        exact Function.update_of_ne hq ..
      case used =>
        intro none
        cases (Function.update_self k.port _ w.mem).symm.trans none
      case fds =>
        exact fun fd hfd other => mem_held_close answer hfd (other ctx listed live)
      case port =>
        intro m hm hq ctx' live'
        cases (Function.update_self k.port _ w.mem).symm.trans live'
      case unused =>
        refine ⟨trivial, closesUnused_device (.inr gone) ⟨trivial, inv.unused⟩⟩

/-- **Every fair call keeps the invariant.** -/
theorem step (inv : Used w) {c : SerialCall linuxSerialBackend} (fair : UsesFairly w c)
    (h : c.run w = .ok w') : Used w' := by
  cases c with
  | new holder asked answer =>
      obtain ⟨⟨r, v⟩, hn, rfl⟩ := map_eq_ok.mp h
      exact inv.news fair (serialNewRecord_step hn)
  | openPort k answer =>
      obtain ⟨⟨rc, v⟩, ho, rfl⟩ := map_eq_ok.mp h
      exact inv.opens fair (serialOpenRecord_step ho)
  | closePort k answer =>
      obtain ⟨⟨rc, v⟩, hc, rfl⟩ := map_eq_ok.mp h
      exact inv.closes fair.1 fair.2 (serialCloseRecord_step hc)
  | destory k answer => exact inv.destorys fair (serialDestoryRecord_step h)

/-- The invariant gives the property. -/
theorem staysOpen (inv : Used w) : StaysOpen w where
  inUse p positive := by
    rintro ⟨k, out, rfl⟩
    obtain ⟨sm, hsm, ht⟩ := inv.counted.entry_of_handle out
    obtain ⟨ctx, live, -⟩ := inv.counted.object out
    have port := inv.port sm hsm ctx (by rw [ht]; exact live)
    have count := port.count
    rw [ht] at count
    have balance : sm.opencount = useBalance k.port w.trace :=
      count.trans (useBalance_eq (inv.sound k.port)).symm
    obtain ⟨on, risen⟩ := port.opened (balance ▸ positive)
    have some := port.flag.mp on
    rw [ht] at risen
    exact ⟨sm, hsm, ht, balance, ctx, live, on, some, port.fd some, risen⟩
  unused := inv.unused

end Used

/-- **A shared port is never closed under a user.** -/
theorem serial_staysOpen (h : (serialPorts linuxSerialBackend).Reach UsesFairly w) :
    StaysOpen w := by
  have used : Used w := h.invariant Used.initial fun _ _ _ _ inv fair run => inv.step fair run
  exact used.staysOpen

/-- Two opens and one close leave the port open. -/
theorem serial_staysOpen_twice : ∃ w : UnixPorts, StaysOpen w ∧ useBalance 0 w.trace = 1 := by
  let blank : Serial UnixDev := ⟨false, false, 0, 0, ⟨"", 0, 0, 0, 0, ⟨{}, 0⟩⟩⟩
  let asked : Request := ⟨1, 9600, 'N'.toUInt8, 8, 1, 1⟩
  have run := @Machine.Reach.of_leadsTo _ _ _ (serialPorts linuxSerialBackend) UsesFairly _
    (fun w => useBalance 0 w.trace = 1)
    [.new 0 asked ⟨0, blank, ⟨true, 0⟩⟩, .openPort ⟨0, 0, asked⟩ ⟨some 3, none, true, true, 0⟩,
      .openPort ⟨0, 0, asked⟩ ⟨some 4, none, true, true, 0⟩, .closePort ⟨0, 0, asked⟩ ⟨true, 0⟩] _
    .init (by decide +kernel)
  obtain ⟨w, reached, one⟩ := run
  exact ⟨w, serial_staysOpen reached, of_decide_eq_true one⟩

end LibZio
