import LibZio.Serial.Sharing
import LibZio.Serial.Unix

/-! # When a shared port is open

On Unix a port is open in three places: in the count of the manager, in the flag of the port object
and in its descriptor. `StaysOpen` says that while holders use the port, that is while it was opened
more often than closed, the three agree and the descriptor is the one the port got when its use
began. `Used` is the invariant that gives it; a call on one port keeps it if what the call makes of
that port satisfies it (`Used.frame`). -/

namespace LibZio

/-- The manager on Unix. -/
abbrev UnixPorts : Type := SerialWorld linuxSerialBackend

/-- The events of the manager on Unix. -/
abbrev UnixEvent : Type := SerialEvent linuxSerialBackend

/-- The successful opens minus the closes of the port `p`. -/
def useBalance (p : Pid) (es : List UnixEvent) : ℤ :=
  (Ledger.acquired (SerialEvent.onUses p) es).length -
    (Ledger.released (SerialEvent.onUses p) es).length

/-- The descriptor of the port `p` when its balance last rose from zero. -/
def risenFd (p : Pid) : List UnixEvent → ℤ
  | [] => -1
  | .opened k dev :: es => if k.port = p ∧ useBalance p es = 0 then dev.s else risenFd p es
  | _ :: es => risenFd p es

/-- No backend closes a port in use: `serial_close` asks it to only when the balance is zero, and
the descriptor is closed only then or when no handle to the port is out. -/
def ClosesUnused : List UnixEvent → Prop
  | [] => True
  | e :: es =>
      (match e with
        | .closing p => useBalance p es = 0
        | .device p (.closed _) =>
            useBalance p es = 0 ∨ handleCount p (Ledger.held SerialEvent.onHandles es) = 0
        | _ => True) ∧ ClosesUnused es

/-- A port in use is open: while its balance is positive and a handle to it is out, the count of the
manager is the balance, the flag is set, and the descriptor is open and unchanged since the balance
rose from zero. -/
structure StaysOpen (w : UnixPorts) : Prop where
  inUse : ∀ p, 0 < useBalance p w.trace → (∃ k ∈ w.handles, k.port = p) →
    ∃ sm ∈ w.mangers, sm.t = p ∧ sm.opencount = useBalance p w.trace ∧
      ∃ ctx : Serial UnixDev, w.mem p = .live ctx ∧ ctx.isOpen = true ∧ ctx.s ≠ -1 ∧
        ctx.s ∈ w.openFds ∧ ctx.s = risenFd p w.trace
  unused : ClosesUnused w.trace

/-- Holders use their handles, close no more often than they opened, and ask for known parities. -/
def UsesFairly (w : UnixPorts) : SerialCall linuxSerialBackend → Prop
  | .new _ asked _ => parityKnown asked.parity = true
  | .openPort k _ => k ∈ w.handles
  | .closePort k _ => k ∈ w.handles ∧ k ∈ w.uses k.port
  | .destory k _ => k ∈ w.handles

instance (w : UnixPorts) (c : SerialCall linuxSerialBackend) : Decidable (UsesFairly w c) := by
  cases c <;> unfold UsesFairly <;> infer_instance

variable {w w' : UnixPorts}

/-! ## The invariant -/

/-- What holds of an entry and its port object. -/
structure PortOpen (w : UnixPorts) (sm : Manger) (ctx : Serial UnixDev) : Prop where
  count : sm.opencount = (w.uses sm.t).length
  flag : ctx.isOpen = true ↔ ctx.s ≠ -1
  opened : 0 < sm.opencount → ctx.isOpen = true ∧ ctx.s = risenFd sm.t w.trace
  fd : ctx.s ≠ -1 → ctx.s ∈ w.openFds

/-- What holds of the manager under fair use. -/
structure Used (w : UnixPorts) : Prop where
  counted : Counted w
  sound : ∀ p, Ledger.Sound (SerialEvent.onUses p) w.trace
  port : ∀ sm ∈ w.mangers, ∀ ctx, w.mem sm.t = .live ctx → PortOpen w sm ctx
  ownFd : ∀ sm ∈ w.mangers, ∀ sm' ∈ w.mangers, ∀ ctx ctx' : Serial UnixDev,
    w.mem sm.t = .live ctx → w.mem sm'.t = .live ctx' → ctx.s = ctx'.s → ctx.s ≠ -1 → sm.t = sm'.t
  fresh : ∀ p, w.mem p = .unused → w.uses p = []
  unused : ClosesUnused w.trace

/-- Under sound use the balance is the number of uses. -/
theorem useBalance_eq {p : Pid} {es : List UnixEvent}
    (sound : Ledger.Sound (SerialEvent.onUses p) es) :
    useBalance p es = (Ledger.held (SerialEvent.onUses p) es).length := by
  have perm := (Ledger.acquired_perm (SerialEvent.onUses p) sound).length_eq
  rw [List.length_append] at perm
  unfold useBalance
  omega

/-- Events that do not use a port leave its balance. -/
theorem useBalance_append {p : Pid} {es fs : List UnixEvent}
    (h : ∀ e ∈ es, e.onUses p = .neither) : useBalance p (es ++ fs) = useBalance p fs := by
  rw [useBalance, Ledger.acquired_append _ h, Ledger.released_append _ h]
  rfl

/-- Events that do not use a port leave the descriptor it rose with. -/
theorem risenFd_append {p : Pid} {es fs : List UnixEvent}
    (h : ∀ e ∈ es, e.onUses p = .neither) : risenFd p (es ++ fs) = risenFd p fs := by
  induction es with
  | nil => rfl
  | cons e es ih =>
      have ih := ih fun e' he' => h e' (List.mem_cons_of_mem _ he')
      have he := h e (List.mem_cons_self ..)
      cases e with
      | opened k dev =>
          have other : k.port ≠ p := by
            intro same
            rw [SerialEvent.onUses, if_pos same] at he
            cases he
          rw [List.cons_append, risenFd, if_neg fun h => other h.1]
          exact ih
      | acquired k => exact ih
      | released k => exact ih
      | closed k => exact ih
      | closing q => exact ih
      | device q d => exact ih
      | freed q => exact ih

/-- What a backend does to its device uses no port. -/
theorem onUses_device {p q : Pid} {es : List (DevEvent Termios)} :
    ∀ e ∈ es.map (SerialEvent.device (B := linuxSerialBackend) q), e.onUses p = .neither := by
  intro e he
  obtain ⟨d, -, rfl⟩ := List.mem_map.mp he
  rfl

/-- An open uses its port. -/
theorem onUses_opened (k : Handle) (dev : UnixDev) :
    (SerialEvent.opened (B := linuxSerialBackend) k dev).onUses k.port = .acquire k := if_pos rfl

/-- An open uses no other port. -/
theorem onUses_opened_of_ne {k : Handle} {dev : UnixDev} {q : Pid} (h : q ≠ k.port) :
    (SerialEvent.opened (B := linuxSerialBackend) k dev).onUses q = .neither :=
  if_neg fun same => h same.symm

/-- A close ends a use of its port. -/
theorem onUses_closed (k : Handle) :
    (SerialEvent.closed (B := linuxSerialBackend) k).onUses k.port = .release k := if_pos rfl

/-- A close ends no use of another port. -/
theorem onUses_closed_of_ne {k : Handle} {q : Pid} (h : q ≠ k.port) :
    (SerialEvent.closed (B := linuxSerialBackend) k).onUses q = .neither :=
  if_neg fun same => h same.symm

/-- An open adds one use of its port. -/
theorem uses_opened (k : Handle) (dev : UnixDev) (tr : List UnixEvent) :
    ((Ledger.held (SerialEvent.onUses k.port) (.opened k dev :: tr)).length : ℤ) =
      (Ledger.held (SerialEvent.onUses k.port) tr).length + 1 := by
  have held := @Ledger.held_acquire _ _ (SerialEvent.onUses k.port) _ _ tr _ (onUses_opened k dev)
  rw [held, List.length_cons, Int.natCast_succ]

namespace PortOpen

variable {sm : Manger} {ctx ctx' : Serial UnixDev} {k : Handle} {dev : UnixDev}

/-- A port in use has a positive balance. -/
theorem balance (before : PortOpen w sm ctx)
    (sound : Ledger.Sound (SerialEvent.onUses sm.t) w.trace) :
    useBalance sm.t w.trace = sm.opencount :=
  (useBalance_eq sound).trans before.count.symm

/-- A port that is in use is opened once more. -/
theorem again (before : PortOpen w sm ctx) (sound : Ledger.Sound (SerialEvent.onUses sm.t) w.trace)
    (ht : sm.t = k.port) (inUse : 0 < sm.opencount) (trace : w'.trace = .opened k dev :: w.trace)
    (fds : w'.openFds = w.openFds) :
    PortOpen w' { sm with opencount := sm.opencount + 1 } { ctx with isOpen := true } := by
  obtain ⟨on, risen⟩ := before.opened inUse
  have balance := before.balance sound
  have count := before.count
  rw [ht] at balance count risen
  constructor
  · change sm.opencount + 1 = ((Ledger.held (SerialEvent.onUses sm.t) w'.trace).length : ℤ)
    rw [ht, trace, uses_opened, count]
  · exact iff_of_true rfl (before.flag.mp on)
  · intro _
    refine ⟨rfl, risen.trans ?_⟩
    change risenFd k.port w.trace = risenFd sm.t w'.trace
    rw [ht, trace, risenFd, if_neg fun h => Int.ne_of_gt inUse (balance.symm.trans h.2)]
  · rw [fds]
    exact before.fd

/-- A port that is not in use is opened, with the descriptor the backend has given it. -/
theorem fresh (before : PortOpen w sm ctx) (ht : sm.t = k.port) {tr : List UnixEvent}
    (uses : Ledger.held (SerialEvent.onUses k.port) tr = w.uses k.port)
    (idle : useBalance k.port tr = 0) (trace : w'.trace = .opened k ctx'.backendData.dev :: tr)
    (some : ctx'.s ≠ -1) (own : ctx'.s ∈ w'.openFds) :
    PortOpen w' { sm with opencount := sm.opencount + 1 } { ctx' with isOpen := true } := by
  have count := before.count
  rw [ht] at count
  constructor
  · change sm.opencount + 1 = ((Ledger.held (SerialEvent.onUses sm.t) w'.trace).length : ℤ)
    rw [ht, trace, uses_opened, uses, count]
  · exact iff_of_true rfl some
  · intro _
    refine ⟨rfl, ?_⟩
    change ctx'.s = risenFd sm.t w'.trace
    rw [ht, trace, risenFd]
    exact (if_pos ⟨rfl, idle⟩).symm
  · exact fun _ => own

/-- A port that is not in use may be without a descriptor. -/
theorem off (count : sm.opencount = (w.uses sm.t).length) (unopened : ¬0 < sm.opencount)
    (off : ctx.isOpen = false) (none : ctx.s = -1) : PortOpen w sm ctx where
  count := count
  flag := iff_of_false (by rw [off]; exact Bool.false_ne_true) (not_not.mpr none)
  opened := fun inUse => absurd inUse unopened
  fd := fun some => absurd none some

/-- What holds of a port depends on its entry, its object and what happened to it alone. -/
theorem congr {sm' : Manger} (before : PortOpen w sm ctx) (ht : sm'.t = sm.t)
    (same : sm'.opencount = sm.opencount) (uses : w'.uses sm.t = w.uses sm.t)
    (risen : risenFd sm.t w'.trace = risenFd sm.t w.trace)
    (fd : ctx.s ∈ w.openFds → ctx.s ∈ w'.openFds) : PortOpen w' sm' ctx where
  count := by rw [ht, same, uses]; exact before.count
  flag := before.flag
  opened := by rw [ht, same, risen]; exact before.opened
  fd := fun some => fd (before.fd some)

/-- A close by a holder that has the port open takes one off the count, which is then the number of
uses that are left. -/
theorem countClose_eq (before : PortOpen w sm ctx) (ht : sm.t = k.port) (uses : k ∈ w.uses k.port) :
    0 < sm.opencount ∧ sm.countClose.opencount =
      (Ledger.held (SerialEvent.onUses k.port) (.closed k :: w.trace)).length := by
  have count := before.count
  rw [ht] at count
  have held := @Ledger.held_release _ _ (SerialEvent.onUses k.port) _ _ w.trace _ (onUses_closed k)
  have one := List.length_pos_of_mem uses
  have less := List.length_erase_of_mem uses
  have pos : 0 < sm.opencount := by omega
  refine ⟨pos, ?_⟩
  rw [Manger.countClose, if_pos pos, held, less]
  change sm.opencount - 1 = _
  omega

/-- A backend that is asked to close an open port leaves it as it is, or without its descriptor. -/
theorem asked (answer : UnixCloseAnswer) (on : ctx.isOpen = true) (own : ctx.s ∈ w.openFds)
    (some : ctx.s ≠ -1) (p : Pid) (es : List UnixEvent)
    (same : Ledger.held SerialEvent.onFds (es ++ w.trace) = w.openFds) :
    ((unixSerialClose answer ctx).2.1.isOpen = true ∧ (unixSerialClose answer ctx).2.1.s = ctx.s ∧
        ctx.s ∈ Ledger.held SerialEvent.onFds
          ((unixSerialClose answer ctx).2.2.map (SerialEvent.device p) ++ (es ++ w.trace))) ∨
      ((unixSerialClose answer ctx).2.1.isOpen = false ∧
        (unixSerialClose answer ctx).2.1.s = -1) := by
  have way := unixSerialClose_closes answer ctx
  generalize unixSerialClose answer ctx = done at way
  cases way with
  | idle none => exact absurd none some
  | stuck => exact .inl ⟨on, rfl, same.symm ▸ own⟩
  | closed => exact .inr ⟨rfl, rfl⟩

end PortOpen

namespace Used

/-- At the start. -/
theorem initial : Used ({} : UnixPorts) where
  counted := Counted.initial
  sound _ := trivial
  port _ h := nomatch h
  ownFd _ h := nomatch h
  fresh _ _ := rfl
  unused := trivial

/-- **One port at a time.** A call on the port `p` that leaves the other ports and their descriptors
keeps the invariant if what it makes of `p` satisfies it, with no descriptor, the same or a new
one. -/
theorem frame (inv : Used w) (p : Pid) (es : List UnixEvent) (counted : Counted w')
    (trace : w'.trace = es ++ w.trace) (local_ : ∀ e ∈ es, ∀ q, q ≠ p → e.onUses q = .neither)
    (sound : Ledger.Sound (SerialEvent.onUses p) w'.trace)
    (entries : ∀ m ∈ w'.mangers, m.t ≠ p → m ∈ w.mangers)
    (mem : ∀ q, q ≠ p → w'.mem q = w.mem q) (used : w'.mem p ≠ .unused)
    (fds : ∀ fd ∈ w.openFds, (∀ ctx : Serial UnixDev, p ∈ w.registry.ports → w.mem p = .live ctx →
      fd ≠ ctx.s) → fd ∈ w'.openFds)
    (port : ∀ sm ∈ w'.mangers, sm.t = p → ∀ ctx, w'.mem p = .live ctx → PortOpen w' sm ctx ∧
      (ctx.s = -1 ∨ ctx.s ∉ w.openFds ∨
        ∃ ctx₀ : Serial UnixDev, p ∈ w.registry.ports ∧ w.mem p = .live ctx₀ ∧ ctx.s = ctx₀.s))
    (unused : ClosesUnused w'.trace) : Used w' := by
  -- the other ports see none of the events
  have neither : ∀ {q}, q ≠ p → ∀ e ∈ es, e.onUses q = .neither := fun hq e he => local_ e he _ hq
  have uses : ∀ {q}, q ≠ p → w'.uses q = w.uses q := by
    intro q hq
    rw [SerialWorld.uses, trace]
    exact Ledger.held_append _ (neither hq)
  have entry : ∀ {m}, m ∈ w'.mangers → m.t ≠ p → ∀ {ctx}, w'.mem m.t = .live ctx →
      m ∈ w.mangers ∧ w.mem m.t = .live ctx := by
    intro m hm hq ctx live
    rw [mem _ hq] at live
    exact ⟨entries m hm hq, live⟩
  -- a descriptor of another port is not one that `p` has after the call
  have apart : ∀ {m}, m ∈ w'.mangers → m.t ≠ p → ∀ {sm}, sm ∈ w'.mangers → sm.t = p →
      ∀ {ctx ctx' : Serial UnixDev}, w'.mem m.t = .live ctx → w'.mem p = .live ctx' →
        ctx.s = ctx'.s → ctx.s = -1 := by
    intro m hm hq sm hsm ht ctx ctx' live live' same
    by_contra some
    obtain ⟨hm₀, live₀⟩ := entry hm hq live
    obtain ⟨-, none | new | ⟨ctx₀, listed, hctx₀, old⟩⟩ := port sm hsm ht ctx' live'
    · exact some (same.trans none)
    · rw [← same] at new
      exact new ((inv.port m hm₀ ctx live₀).fd some)
    · obtain ⟨sm₀, hsm₀, rfl⟩ := List.mem_map.mp listed
      exact hq (inv.ownFd m hm₀ sm₀ hsm₀ ctx ctx₀ live₀ hctx₀ (same.trans old) some)
  constructor
  case counted => exact counted
  case sound =>
    intro q
    by_cases hq : q = p
    · rw [hq]
      exact sound
    · rw [trace]
      exact (Ledger.sound_append _ (neither hq)).mpr (inv.sound q)
  case port =>
    intro m hm ctx live
    by_cases hq : m.t = p
    · rw [hq] at live
      exact (port m hm hq ctx live).1
    · obtain ⟨hm₀, live₀⟩ := entry hm hq live
      have before := inv.port m hm₀ ctx live₀
      constructor
      · rw [uses hq]
        exact before.count
      · exact before.flag
      · rw [trace, risenFd_append (neither hq)]
        exact before.opened
      · intro some
        refine fds _ (before.fd some) fun ctx₀ listed hctx₀ same => ?_
        obtain ⟨sm₀, hsm₀, rfl⟩ := List.mem_map.mp listed
        exact hq (inv.ownFd m hm₀ sm₀ hsm₀ ctx ctx₀ live₀ hctx₀ same some)
  case ownFd =>
    intro m hm m' hm' ctx ctx' live live' same some
    by_cases hq : m.t = p
    · by_cases hq' : m'.t = p
      · exact hq.trans hq'.symm
      · rw [hq] at live
        exact absurd (same.trans (apart hm' hq' hm hq live' live same.symm)) some
    · by_cases hq' : m'.t = p
      · rw [hq'] at live'
        exact absurd (apart hm hq hm' hq' live live' same) some
      · obtain ⟨hm₀, live₀⟩ := entry hm hq live
        obtain ⟨hm₀', live₀'⟩ := entry hm' hq' live'
        exact inv.ownFd m hm₀ m' hm₀' ctx ctx' live₀ live₀' same some
  case fresh =>
    intro q hmem
    by_cases hq : q = p
    · rw [hq] at hmem
      exact absurd hmem used
    · rw [mem q hq] at hmem
      rw [uses hq]
      exact inv.fresh q hmem
  case unused => exact unused

end Used

end LibZio
