import LibZio.Foundation.Owners
import LibZio.Serial.OpenCount
import LibZio.Serial.PortSteps
import LibZio.Serial.Rejected

/-! # The descriptors of the ports

A descriptor that `unix_serial_open` has obtained belongs to its port until it is passed to `close`:
by the open that fails behind it, by the close that ends the last use, or by the destroy that takes
the last handle. Whatever the callers do, it is closed once, but for two ways to go wrong, which are
exact (`descriptors_closed_iff`): the last destroy cannot restore the settings of the line and leaks
the descriptor, or a `serial_new` that rejects its arguments finds the descriptor in the memory it
got and closes it once more. -/

namespace LibZio

open Ledger

variable {w w' : UnixPorts} {p : Pid}

/-- The descriptor of a port object, if it has one. -/
def Serial.ownFd (ctx : Serial UnixDev) : Option ℤ := if ctx.s = -1 then none else some ctx.s

/-- The descriptor of the port behind a pointer. -/
def SerialWorld.fdOf (w : UnixPorts) (p : Pid) : Option ℤ :=
  match w.mem p with
  | .live ctx => ctx.ownFd
  | _ => none

/-- `fd` is the descriptor of a port to which a handle is out. -/
def SerialWorld.Keeps (w : UnixPorts) (fd : ℤ) : Prop :=
  ∃ k ∈ w.handles, ∃ ctx : Serial UnixDev, w.mem k.port = .live ctx ∧ ctx.s = fd ∧ fd ≠ -1

/-- Every descriptor that was obtained has been passed to `close` once since, but for one that a
port to which a handle is out still keeps. -/
structure ClosesEach (w : UnixPorts) : Prop where
  kept : ∀ fd, w.Keeps fd →
    obtained SerialEvent.onFds fd w.trace = returned SerialEvent.onFds fd w.trace + 1
  closed : ∀ fd, ¬w.Keeps fd →
    obtained SerialEvent.onFds fd w.trace = returned SerialEvent.onFds fd w.trace

/-- The settings of a line that is still open are restored where its last handle goes, and a
rejected `serial_new` does not find a descriptor in its memory that a port had before. -/
def ReleasesEach (w : UnixPorts) : SerialCall linuxSerialBackend → Prop
  | .new _ asked answer => w.findSerial (linuxSerialBackend.devname asked.index) = .ok none →
      w.mem answer.ptr = .unused → parityKnown asked.parity = false →
      answer.garbage.s ≠ -1 → answer.close.tcsetattr = true →
      answer.garbage.s ∉ acquired SerialEvent.onFds w.trace
  | .destory k answer => ∀ m ∈ w.mangers, m.t = k.port → m.refcount = 1 →
      ∀ ctx : Serial UnixDev, w.mem k.port = .live ctx → ctx.s ≠ -1 → answer.tcsetattr = true
  | _ => True

/-! ## What the backend does to the descriptor -/

variable {f : Pid → Option ℤ} {tr : List UnixEvent}

theorem Serial.ownFd_none {ctx : Serial UnixDev} (h : ctx.s = -1) : ctx.ownFd = none := if_pos h

theorem Serial.ownFd_some {ctx : Serial UnixDev} (h : ctx.s ≠ -1) : ctx.ownFd = some ctx.s :=
  if_neg h

/-- A backend that opens a line gives its port a new descriptor or none. -/
theorem UnixOpens.owned {answer : UnixOpenAnswer} {ctx ctx' : Serial UnixDev} {rc : ℤ}
    {es : List (DevEvent Termios)} (h : Owned SerialEvent.onFds f tr) (hp : f p = ctx.ownFd)
    (hoff : ctx.isOpen = false → ctx.s = -1)
    (opens : UnixOpens answer (held SerialEvent.onFds tr) ctx rc ctx' es) :
    Owned SerialEvent.onFds (Function.update f p ctx'.ownFd)
      (es.map (SerialEvent.device (B := linuxSerialBackend) p) ++ tr) := by
  have settings (d : ℕ) (t : Termios) :
      (SerialEvent.device (B := linuxSerialBackend) p (.configured (d : ℤ) t)).onFds = .neither :=
        rfl
  cases opens with
  | already isOpen => rwa [← hp, Function.update_eq_self]
  | noDevice off none =>
      rw [Serial.ownFd_none rfl, ← Serial.ownFd_none (hoff off), ← hp, Function.update_eq_self]
      exact h
  | @noSpeed fd off some fresh =>
      have hgot :=
        h.acquire (e := .device p (.opened fd)) rfl fresh (hp.trans (Serial.ownFd_none (hoff off)))
      have hgave := hgot.release (e := .device p (.closed fd)) rfl (Function.update_self ..)
      rw [Function.update_idem] at hgave
      exact hgave
  | @noSettings fd off some fresh =>
      have hgot :=
        h.acquire (e := .device p (.opened fd)) rfl fresh (hp.trans (Serial.ownFd_none (hoff off)))
      have hset := hgot.neither (settings fd (unixTermios ctx.backendData))
      have hgave := hset.release (e := .device p (.closed fd)) rfl (Function.update_self ..)
      rw [Function.update_idem] at hgave
      exact hgave
  | @opened fd off some fresh =>
      have hgot :=
        h.acquire (e := .device p (.opened fd)) rfl fresh (hp.trans (Serial.ownFd_none (hoff off)))
      have hset := hgot.neither (settings fd (unixTermios ctx.backendData))
      rw [Serial.ownFd_some (show (fd : ℤ) ≠ -1 by omega)]
      exact hset

/-- A backend that closes a line takes the descriptor of its port, or leaves it. -/
theorem UnixCloses.owned {answer : UnixCloseAnswer} {ctx : Serial UnixDev}
    {out : ℤ × Serial UnixDev × List (DevEvent Termios)} (h : Owned SerialEvent.onFds f tr)
    (hp : f p = ctx.ownFd) (closes : UnixCloses answer ctx out) :
    Owned SerialEvent.onFds (Function.update f p out.2.1.ownFd)
      (out.2.2.map (SerialEvent.device (B := linuxSerialBackend) p) ++ tr) := by
  have settings := h.neither (e := .device p (.configured ctx.s ctx.backendData.dev.oldTios)) rfl
  cases closes with
  | idle none => rwa [← hp, Function.update_eq_self]
  | stuck some failed =>
      have same : ({ ctx with errCode := answer.errno } : Serial UnixDev).ownFd = f p := hp.symm
      rw [same, Function.update_eq_self]
      exact settings
  | closed some restored =>
      have hgave := settings.release (e := .device p (.closed ctx.s)) rfl
        (hp.trans (Serial.ownFd_some some))
      exact hgave

/-! ## The invariant -/

/-- What holds of an entry and its port object. -/
structure FdPair (m : Manger) (ctx : Serial UnixDev) : Prop where
  refcount : 1 ≤ m.refcount
  flag : ctx.isOpen = true ↔ ctx.s ≠ -1
  inUse : 0 < m.opencount → ctx.isOpen = true

/-- A line whose flag is not set has no descriptor. -/
theorem FdPair.off {m : Manger} {ctx : Serial UnixDev} (h : FdPair m ctx)
    (off : ctx.isOpen = false) : ctx.s = -1 := by
  by_contra hs
  rw [h.flag.mpr hs] at off
  cases off

/-- The entries and objects go in pairs, and each has a handle that is out. -/
structure HandlesPorts (w : UnixPorts) : Prop where
  pairs : Paired FdPair w
  handles : ∀ m ∈ w.mangers, m.refcount ≤ handleCount m.t w.handles

/-- The descriptors belong to the ports. -/
structure OwnsFds (w : UnixPorts) : Prop extends HandlesPorts w where
  owned : Owned SerialEvent.onFds w.fdOf w.trace

/-- The descriptor of a live object. -/
theorem fdOf_of_live {ctx : Serial UnixDev} (live : w.mem p = .live ctx) :
    w.fdOf p = ctx.ownFd := by
  rw [SerialWorld.fdOf, live]

/-- The descriptors after an object is written. -/
theorem fdOf_update {ctx : Serial UnixDev} (mem : w'.mem = Function.update w.mem p (.live ctx)) :
    w'.fdOf = Function.update w.fdOf p ctx.ownFd := by
  funext q
  by_cases hq : q = p
  · rw [hq, Function.update_self, SerialWorld.fdOf, mem, Function.update_self]
  · rw [Function.update_of_ne hq, SerialWorld.fdOf, mem, Function.update_of_ne hq]
    rfl

/-- The descriptors after an object is freed. -/
theorem fdOf_freed (mem : w'.mem = Function.update w.mem p .freed) :
    w'.fdOf = Function.update w.fdOf p none := by
  funext q
  by_cases hq : q = p
  · rw [hq, Function.update_self, SerialWorld.fdOf, mem, Function.update_self]
  · rw [Function.update_of_ne hq, SerialWorld.fdOf, mem, Function.update_of_ne hq]
    rfl

/-- Unused memory has no descriptor. -/
theorem fdOf_unused (unused : w.mem p = .unused) : w.fdOf p = none := by
  rw [SerialWorld.fdOf, unused]

namespace HandlesPorts

/-- The descriptors that are kept are those of the ports. -/
theorem keeps_iff (inv : HandlesPorts w) {fd : ℤ} : w.Keeps fd ↔ ∃ p, w.fdOf p = some fd := by
  constructor
  · rintro ⟨k, -, ctx, live, rfl, hne⟩
    exact ⟨k.port, (fdOf_of_live live).trans (Serial.ownFd_some hne)⟩
  · rintro ⟨p, hp⟩
    cases hmem : w.mem p with
    | unused => rw [fdOf_unused hmem] at hp; cases hp
    | freed => rw [SerialWorld.fdOf, hmem] at hp; cases hp
    | live ctx =>
        rw [fdOf_of_live hmem, Serial.ownFd] at hp
        by_cases hs : ctx.s = -1
        · rw [if_pos hs] at hp
          cases hp
        · rw [if_neg hs] at hp
          cases hp
          obtain ⟨m, hm, rfl⟩ := inv.pairs.entry p ctx hmem
          -- the count of the entry is positive, so that a handle is out
          have hpos := (inv.pairs.pair hm hmem).refcount
          have hcount := inv.handles m hm
          obtain ⟨k, hk, hport⟩ :=
            List.countP_pos_iff.mp (show 0 < handleCount m.t w.handles by omega)
          have hkp : k.port = m.t := of_decide_eq_true hport
          exact ⟨k, hk, ctx, hkp ▸ hmem, rfl, hs⟩

/-- Every descriptor is closed once if and only if all are accounted for. -/
theorem closesEach_iff (inv : HandlesPorts w) :
    ClosesEach w ↔ Accounted SerialEvent.onFds w.fdOf w.trace := by
  constructor
  · intro h
    refine ⟨fun p fd hp => h.kept fd (inv.keeps_iff.mpr ⟨p, hp⟩),
      fun fd hno => h.closed fd fun hk => ?_⟩
    obtain ⟨p, hp⟩ := inv.keeps_iff.mp hk
    exact hno p hp
  · intro h
    refine ⟨fun fd hk => ?_, fun fd hno => h.settled fd fun p hp => hno (inv.keeps_iff.mpr ⟨p, hp⟩)⟩
    obtain ⟨p, hp⟩ := inv.keeps_iff.mp hk
    exact h.owned p fd hp

end HandlesPorts

/-! ## Turns -/

variable {sm sm' : Manger} {ctx ctx' : Serial UnixDev} {c : SerialCall linuxSerialBackend}
  {es : List UnixEvent} {fds : List ℤ}

/-- A turn keeps what holds of the pair. -/
theorem FdPair.turn (h : FdPair sm ctx)
    (turn : Turn (B := linuxSerialBackend) fds sm ctx c es sm' ctx') : FdPair sm' ctx' := by
  have hcount := h.refcount
  cases turn with
  | shared => exact ⟨by simp only; omega, h.flag, h.inUse⟩
  | again port inUse =>
      exact ⟨hcount, iff_of_true rfl (h.flag.mp (h.inUse inUse)), fun _ => rfl⟩
  | failed port unopened backend failed =>
      cases unixSerialOpen_opens backend with
      | already isOpen => exact absurd rfl failed
      | opened off some fresh => exact absurd rfl failed
      | noDevice off | noSpeed off | noSettings off =>
          refine ⟨hcount, iff_of_false ?_ (not_not.mpr rfl), (absurd · unopened)⟩
          exact ne_true_of_eq_false off
  | opened port unopened backend =>
      cases unixSerialOpen_opens backend with
      | already isOpen => exact ⟨hcount, iff_of_true rfl (h.flag.mp isOpen), fun _ => rfl⟩
      | @opened fd off some fresh =>
          exact ⟨hcount, iff_of_true rfl (show (fd : ℤ) ≠ -1 by omega), fun _ => rfl⟩
  | stays port inUse =>
      refine ⟨by rw [Manger.countClose_refcount]; exact hcount, h.flag, fun hpos => h.inUse ?_⟩
      rw [Manger.countClose] at hpos
      split at hpos <;> omega
  | @asks k answer port unused =>
      have way : UnixCloses answer ctx (linuxSerialBackend.closeDev answer ctx) :=
        unixSerialClose_closes answer ctx
      generalize linuxSerialBackend.closeDev answer ctx = out at way ⊢
      have hflag : out.2.1.isOpen = true ↔ out.2.1.s ≠ -1 := by
        cases way with
        | idle none => exact h.flag
        | stuck some failed => exact h.flag
        | closed some restored => exact iff_of_false Bool.false_ne_true (not_not.mpr rfl)
      refine ⟨by rw [Manger.countClose_refcount]; exact hcount, hflag, fun hpos => ?_⟩
      rw [unused] at hpos
      exact absurd hpos (Int.lt_irrefl 0)
  | kept port more =>
      rw [Manger.countRelease] at more ⊢
      split
      · next hpos =>
          rw [if_pos hpos] at more
          simp only at more
          exact ⟨by simp only; omega, h.flag, h.inUse⟩
      · exact h

/-- A turn does with the descriptor what the backend does. -/
theorem FdPair.owned (h : FdPair sm ctx) (hown : Owned SerialEvent.onFds f tr)
    (hp : f sm.t = ctx.ownFd)
    (turn : Turn (B := linuxSerialBackend) (held SerialEvent.onFds tr) sm ctx c es sm' ctx') :
    Owned SerialEvent.onFds (Function.update f sm.t ctx'.ownFd) (es ++ tr) := by
  have same : Function.update f sm.t ctx.ownFd = f := by rw [← hp, Function.update_eq_self]
  cases turn with
  | shared =>
      rw [same]
      exact hown.neither rfl
  | again port inUse =>
      have hsame : ({ ctx with isOpen := true } : Serial UnixDev).ownFd = ctx.ownFd := rfl
      rw [hsame, same]
      exact hown.neither rfl
  | failed port unopened backend failed =>
      rw [port]
      exact (unixSerialOpen_opens backend).owned hown hp h.off
  | opened port unopened backend =>
      rw [port]
      exact ((unixSerialOpen_opens backend).owned hown hp h.off).neither rfl
  | stays port inUse =>
      rw [same]
      exact hown.neither rfl
  | @asks k answer port unused =>
      have hasked := (hown.neither (e := .closed k) rfl).neither (e := .closing k.port) rfl
      rw [port, List.append_assoc]
      rw [port] at hasked
      exact (unixSerialClose_closes answer ctx).owned hasked hp
  | kept port more =>
      rw [same]
      exact hown.neither rfl

/-- What a backend does to its device hands out no handle. -/
theorem handles_device (q : Pid) (es : List (DevEvent Termios)) (tr : List UnixEvent) :
    held SerialEvent.onHandles (es.map (SerialEvent.device (B := linuxSerialBackend) q) ++ tr)
      = held SerialEvent.onHandles tr := by
  refine held_append _ fun e he => ?_
  obtain ⟨d, -, rfl⟩ := List.mem_map.mp he
  rfl

/-- A turn hands out a handle to its port, or takes one back, or does neither. -/
theorem Turn.handles (turn : Turn (B := linuxSerialBackend) fds sm ctx c es sm' ctx')
    (tr : List UnixEvent) :
    (sm'.refcount = sm.refcount + 1 ∧ ∃ k : Handle, k.port = sm.t ∧
      held SerialEvent.onHandles (es ++ tr) = k :: held SerialEvent.onHandles tr) ∨
    (sm' = sm.countRelease ∧ ∃ k : Handle, k.port = sm.t ∧
      held SerialEvent.onHandles (es ++ tr) = (held SerialEvent.onHandles tr).erase k) ∨
    (sm'.refcount = sm.refcount ∧
      held SerialEvent.onHandles (es ++ tr) = held SerialEvent.onHandles tr) := by
  cases turn with
  | shared => exact .inl ⟨rfl, _, rfl, rfl⟩
  | again port inUse => exact .inr (.inr ⟨rfl, rfl⟩)
  | failed port unopened backend failed => exact .inr (.inr ⟨rfl, handles_device _ _ _⟩)
  | opened port unopened backend => exact .inr (.inr ⟨rfl, handles_device _ _ _⟩)
  | stays port inUse => exact .inr (.inr ⟨Manger.countClose_refcount sm, rfl⟩)
  | asks port unused =>
      refine .inr (.inr ⟨Manger.countClose_refcount sm, ?_⟩)
      rw [List.append_assoc, handles_device]
      rfl
  | @kept k answer port more => exact .inr (.inl ⟨rfl, k, port, rfl⟩)

/-! ## Steps -/

namespace HandlesPorts

/-- At the start. -/
theorem initial : HandlesPorts ({} : UnixPorts) := ⟨Paired.initial, fun _ h => nomatch h⟩

/-- **Every call keeps the pairs and a handle for each.** -/
theorem step (inv : HandlesPorts w) (h : c.run w = .ok w') : HandlesPorts w' := by
  have hstep := inv.pairs.portStep h
  refine ⟨inv.pairs.keeps hstep (fun sm ctx es sm' ctx' _ _ hpair turn => hpair.turn turn)
    fun asked garbage p => ⟨Int.le_refl 1, iff_of_false Bool.false_ne_true (not_not.mpr rfl),
      fun hpos => absurd hpos (Int.lt_irrefl 0)⟩, fun m hm => ?_⟩
  cases hstep with
  | refused => exact inv.handles m hm
  | @rejected holder asked answer none unused parity =>
      have hsame : ((w.logDev answer.ptr (unixSerialDestory answer.close
          (badPort asked answer.garbage))).free answer.ptr).handles = w.handles :=
        handles_device _ _ w.trace
      rw [hsame]
      exact inv.handles m hm
  | @created holder asked answer none unused =>
      change m.refcount ≤ handleCount m.t (⟨holder, answer.ptr, asked⟩ :: w.handles)
      rcases List.mem_cons.mp hm with rfl | hm
      · have hone := Registry.handleCount_cons_self ⟨holder, answer.ptr, asked⟩ w.handles
        change (1 : ℤ) ≤ handleCount answer.ptr (⟨holder, answer.ptr, asked⟩ :: w.handles)
        rw [hone]
        omega
      · rw [Registry.handleCount_cons_of_ne (inv.pairs.ne_of_unused unused hm).symm]
        exact inv.handles m hm
  | @turn _ sm sm' ctx ctx' es _ listed live turn mangers mem trace =>
      have ht := turn.t_eq
      have hcount := inv.handles sm listed
      rw [mangers] at hm
      rw [SerialWorld.handles, trace]
      obtain ⟨hr, k, hk, hheld⟩ | ⟨rfl, k, hk, hheld⟩ | ⟨hr, hheld⟩ := turn.handles w.trace
      · rw [hheld]
        obtain rfl | ⟨hm, hne⟩ := SerialWorld.mem_putManger hm
        · have hone := Registry.handleCount_cons_self k w.handles
          rw [hk] at hone
          rw [ht, hr, hone]
          omega
        · rw [Registry.handleCount_cons_of_ne (by rw [hk, ← ht]; exact hne.symm)]
          exact inv.handles m hm
      · rw [hheld]
        obtain rfl | ⟨hm, hne⟩ := SerialWorld.mem_putManger hm
        · rw [ht]
          have hless : handleCount sm.t w.handles ≤ handleCount sm.t (w.handles.erase k) + 1 := by
            by_cases hmem : k ∈ w.handles
            · have herase := Registry.handleCount_erase_self hmem
              rw [hk] at herase
              omega
            · rw [List.erase_of_not_mem hmem]
              omega
          have hrefcount := (inv.pairs.pair listed live).refcount
          rw [Manger.countRelease, if_pos (by omega)]
          change sm.refcount - 1 ≤ (handleCount sm.t (w.handles.erase k) : ℤ)
          omega
        · rw [Registry.handleCount_erase_of_ne (by rw [hk, ← ht]; exact hne.symm)]
          exact inv.handles m hm
      · rw [hheld]
        obtain rfl | ⟨hm, hne⟩ := SerialWorld.mem_putManger hm
        · rw [ht, hr]
          exact hcount
        · exact inv.handles m hm
  | @removed k answer sm ctx _ listed port live none mangers mem trace =>
      rw [mangers, List.mem_filter] at hm
      have hne : m.t ≠ sm.t := of_decide_eq_true hm.2
      have hheld : w'.handles = w.handles.erase k := by
        rw [SerialWorld.handles, trace]
        exact handles_device _ _ (.released k :: w.trace)
      rw [hheld, Registry.handleCount_erase_of_ne (by rw [port]; exact hne.symm)]
      exact inv.handles m hm.1

end HandlesPorts

/-- Giving up an object closes the descriptor it seems to have, if the settings can be restored. -/
theorem unixSerialDestory_cases (answer : UnixCloseAnswer) (ctx : Serial UnixDev) :
    (ctx.s = -1 ∧ unixSerialDestory answer ctx = []) ∨
    (ctx.s ≠ -1 ∧ answer.tcsetattr = false ∧
      unixSerialDestory answer ctx = [.configured ctx.s ctx.backendData.dev.oldTios]) ∨
    (ctx.s ≠ -1 ∧ answer.tcsetattr = true ∧ unixSerialDestory answer ctx
      = [.closed ctx.s, .configured ctx.s ctx.backendData.dev.oldTios]) := by
  rw [unixSerialDestory]
  have way := unixSerialClose_closes answer ctx
  generalize unixSerialClose answer ctx = out at way
  cases way with
  | idle none => exact .inl ⟨none, rfl⟩
  | stuck some failed => exact .inr (.inl ⟨some, failed, rfl⟩)
  | closed some restored => exact .inr (.inr ⟨some, restored, rfl⟩)

namespace OwnsFds

/-- At the start. -/
theorem initial : OwnsFds ({} : UnixPorts) := ⟨HandlesPorts.initial, Owned.initial fun _ => rfl⟩

/-- **A rejected `serial_new`** keeps the descriptors accounted for if and only if it does not close
one that a port had before. -/
theorem rejects (inv : OwnsFds w) (asked : Request) (answer : NewAnswer linuxSerialBackend)
    (unused : w.mem answer.ptr = .unused) (mem : w'.mem = Function.update w.mem answer.ptr .freed)
    (trace : w'.trace = .freed answer.ptr :: ((unixSerialDestory answer.close
      (badPort (B := linuxSerialBackend) asked answer.garbage)).map
        (SerialEvent.device (B := linuxSerialBackend) answer.ptr) ++ w.trace)) :
    (Accounted SerialEvent.onFds w'.fdOf w'.trace → answer.garbage.s ≠ -1 →
        answer.close.tcsetattr = true → answer.garbage.s ∉ acquired SerialEvent.onFds w.trace) ∧
      ((answer.garbage.s ≠ -1 → answer.close.tcsetattr = true →
        answer.garbage.s ∉ acquired SerialEvent.onFds w.trace) →
        Owned SerialEvent.onFds w'.fdOf w'.trace) := by
  have hfd : w'.fdOf = w.fdOf := by
    rw [fdOf_freed mem, ← fdOf_unused unused, Function.update_eq_self]
  rw [hfd, trace, accounted_neither rfl]
  have hset := inv.owned.neither (e := .device answer.ptr (.configured answer.garbage.s
    answer.garbage.backendData.dev.oldTios)) rfl
  obtain ⟨hs, hd⟩ | ⟨hs, hfailed, hd⟩ | ⟨hs, hrestored, hd⟩ :=
    unixSerialDestory_cases answer.close (badPort (B := linuxSerialBackend) asked answer.garbage)
  · rw [hd]
    exact ⟨fun _ hne => absurd hs hne, fun _ => inv.owned.neither rfl⟩
  · rw [hd]
    refine ⟨fun _ _ htrue => ?_, fun _ => hset.neither rfl⟩
    rw [hfailed] at htrue
    cases htrue
  · rw [hd]
    refine ⟨fun hacc _ _ hmem => ?_, fun hno => ?_⟩
    · have hlost :=
        hset.not_accounted_release (e := .device answer.ptr (.closed answer.garbage.s)) rfl hmem
      exact hlost hacc
    · have hclosed :=
        hset.stranger (e := .device answer.ptr (.closed answer.garbage.s)) rfl (hno hs hrestored)
      exact hclosed.neither rfl

/-- **The last `serial_destory`** keeps the descriptors accounted for if and only if it can restore
the settings of a line that is open. -/
theorem removes (inv : OwnsFds w) {k : Handle} {answer : UnixCloseAnswer} {ctx : Serial UnixDev}
    (live : w.mem p = .live ctx) (port : k.port = p)
    (mem : w'.mem = Function.update w.mem p .freed)
    (trace : w'.trace = .freed k.port :: ((unixSerialDestory answer ctx).map
      (SerialEvent.device (B := linuxSerialBackend) k.port) ++ .released k :: w.trace)) :
    (Accounted SerialEvent.onFds w'.fdOf w'.trace → ctx.s ≠ -1 → answer.tcsetattr = true) ∧
      ((ctx.s ≠ -1 → answer.tcsetattr = true) → Owned SerialEvent.onFds w'.fdOf w'.trace) := by
  have hp : w.fdOf p = ctx.ownFd := fdOf_of_live live
  rw [fdOf_freed mem, trace, accounted_neither rfl, port]
  have hreleased := inv.owned.neither (e := .released k) rfl
  have hset :=
    hreleased.neither (e := .device p (.configured ctx.s ctx.backendData.dev.oldTios)) rfl
  obtain ⟨hs, hd⟩ | ⟨hs, hfailed, hd⟩ | ⟨hs, hrestored, hd⟩ := unixSerialDestory_cases answer ctx
  · rw [hd, ← (Serial.ownFd_none hs), ← hp, Function.update_eq_self]
    exact ⟨fun _ hne => absurd hs hne, fun _ => hreleased.neither rfl⟩
  · rw [hd]
    refine ⟨fun hacc _ => ?_, fun htrue => ?_⟩
    · exact absurd hacc (hset.not_accounted_lost (hp.trans (Serial.ownFd_some hs)))
    · rw [hfailed] at htrue
      cases htrue hs
  · rw [hd]
    refine ⟨fun _ _ => hrestored, fun _ => ?_⟩
    have hgave :=
      hset.release (e := .device p (.closed ctx.s)) rfl (hp.trans (Serial.ownFd_some hs))
    exact hgave.neither rfl

/-- A turn keeps the descriptors accounted for. -/
theorem turn (inv : OwnsFds w) (listed : sm ∈ w.mangers) (live : w.mem sm.t = .live ctx)
    (turn : Turn (B := linuxSerialBackend) w.openFds sm ctx c es sm' ctx')
    (mem : w'.mem = Function.update w.mem sm.t (.live ctx')) (trace : w'.trace = es ++ w.trace) :
    Owned SerialEvent.onFds w'.fdOf w'.trace := by
  rw [fdOf_update mem, trace]
  exact (inv.pairs.pair listed live).owned inv.owned (fdOf_of_live live) turn

/-- **Every call** keeps the descriptors accounted for if and only if it releases as it should. -/
theorem step (inv : OwnsFds w) (h : c.run w = .ok w') :
    (Accounted SerialEvent.onFds w'.fdOf w'.trace → ReleasesEach w c) ∧
      (ReleasesEach w c → Owned SerialEvent.onFds w'.fdOf w'.trace) := by
  have hstep := inv.pairs.portStep h
  cases c with
  | new holder asked answer =>
      by_cases hrejects : w.findSerial (linuxSerialBackend.devname asked.index) = .ok none ∧
          w.mem answer.ptr = .unused ∧ parityKnown asked.parity = false
      · obtain ⟨absent, unused, parity⟩ := hrejects
        obtain ⟨⟨r, _⟩, hnew, rfl⟩ := map_eq_ok.mp h
        rw [serialNewRecord_rejects holder absent unused parity] at hnew
        cases hnew
        refine ⟨fun hacc _ _ _ => ?_, fun hc => ?_⟩
        · exact (inv.rejects asked answer unused (by rfl) (by rfl)).1 hacc
        · exact (inv.rejects asked answer unused (by rfl) (by rfl)).2 (hc absent unused parity)
      · refine ⟨fun _ absent unused parity => absurd ⟨absent, unused, parity⟩ hrejects, fun _ => ?_⟩
        cases hstep with
        | refused => exact inv.owned
        | rejected absent unused parity => exact absurd ⟨absent, unused, parity⟩ hrejects
        | created absent unused =>
            have hfd :
                (addSerial answer.ptr (w.put answer.ptr (newPort asked answer.garbage))).fdOf =
                  Function.update w.fdOf answer.ptr _ := fdOf_update rfl
            rw [Serial.ownFd_none rfl, ← fdOf_unused unused, Function.update_eq_self] at hfd
            change Owned _
              (addSerial answer.ptr (w.put answer.ptr (newPort asked answer.garbage))).fdOf _
            rw [hfd]
            exact inv.owned.neither rfl
        | turn listed live turn mangers mem trace => exact inv.turn listed live turn mem trace
  | openPort k answer =>
      refine ⟨fun _ => trivial, fun _ => ?_⟩
      cases hstep with
      | turn listed live turn mangers mem trace => exact inv.turn listed live turn mem trace
  | closePort k answer =>
      refine ⟨fun _ => trivial, fun _ => ?_⟩
      cases hstep with
      | turn listed live turn mangers mem trace => exact inv.turn listed live turn mem trace
  | destory k answer =>
      cases hstep with
      | @turn _ sm sm' ctx ctx' es _ listed live turn mangers mem trace =>
          refine ⟨fun _ m hm ht hone => ?_, fun _ => inv.turn listed live turn mem trace⟩
          cases turn with
          | kept port more =>
              -- the count was not one, so that this was not the last handle
              obtain rfl := inv.pairs.unique hm listed (ht.trans port)
              rw [Manger.countRelease, if_pos (by omega)] at more
              simp only at more
              omega
      | @removed _ _ sm ctx _ listed port live none mangers mem trace =>
          obtain ⟨hif, hthen⟩ := inv.removes live port mem trace
          refine ⟨fun hacc m hm ht _ ctx' live' hs => ?_, fun hc => hthen fun hs => ?_⟩
          · rw [port, live] at live'
            cases live'
            exact hif hacc hs
          · have hpos := (inv.pairs.pair listed live).refcount
            rw [Manger.countRelease, if_pos (by omega)] at none
            simp only at none
            exact hc sm listed port.symm (by omega) ctx (port ▸ live) hs

end OwnsFds

/-- **One call.** Where the descriptors belong to the ports, a call leaves each closed once if and
only if it releases as it should. -/
theorem OwnsFds.closesEach_iff (inv : OwnsFds w) (h : c.run w = .ok w') :
    ClosesEach w' ↔ ReleasesEach w c := by
  obtain ⟨hif, hthen⟩ := inv.step h
  rw [(inv.toHandlesPorts.step h).closesEach_iff]
  exact ⟨hif, fun hc => (hthen hc).toAccounted⟩

/-- A handle to a port can always be destroyed. -/
theorem HandlesPorts.destory_made {k : Handle} (inv : HandlesPorts w) (answer : UnixCloseAnswer)
    (live : w.mem k.port = .live ctx) :
    ∃ w', (SerialCall.destory (B := linuxSerialBackend) k answer).run w = .ok w' := by
  obtain ⟨sm, -, -, found⟩ := inv.pairs.found live
  have hderef : (w.log (.released k)).deref k.port = .ok ctx := derefIn_eq_ok.mpr live
  have hfound : (w.log (.released k)).findSerial ctx.backendData.device = .ok (some sm) := found
  simp only [SerialCall.run, serialDestoryRecord, serialDestory, hderef, hfound, ok_bind]
  split <;> split <;> exact ⟨_, rfl⟩

/-- **Every descriptor is closed once.** A run of calls leaves, after each, every descriptor that
was obtained closed once or kept by a port with a handle out, if and only if the last
`serial_destory` of an open port can restore its line, and no rejected `serial_new` finds such a
descriptor in its memory. -/
theorem descriptors_closed_iff (is : List (SerialCall linuxSerialBackend)) :
    (serialPorts linuxSerialBackend).Throughout (fun _ _ w' => ClosesEach w') is {} ↔
      (serialPorts linuxSerialBackend).Meets ReleasesEach is {} := by
  refine Machine.throughout_iff_meets (I := OwnsFds) (fun w c w' inv h => ?_)
    (fun w c w' inv releases h => ?_) (fun w c inv hno => ?_) OwnsFds.initial
  · exact inv.closesEach_iff h
  · exact ⟨inv.toHandlesPorts.step h, (inv.step h).2 releases⟩
  · cases c with
    | new holder asked answer =>
        obtain ⟨absent, hno⟩ := Classical.not_imp.mp hno
        obtain ⟨unused, hno⟩ := Classical.not_imp.mp hno
        obtain ⟨parity, -⟩ := Classical.not_imp.mp hno
        have hrejects := serialNewRecord_rejects holder absent unused parity
        exact ⟨_, congrArg (Prod.snd <$> ·) hrejects⟩
    | destory k answer =>
        refine Classical.byContradiction fun hstuck => hno fun m _ _ _ ctx live _ => ?_
        exact absurd (inv.destory_made answer live) hstuck
    | openPort k answer => exact absurd trivial hno
    | closePort k answer => exact absurd trivial hno

/-- A port is opened as the descriptor `3`, and its handle is destroyed while the settings of the
line cannot be restored. The port is gone, and the descriptor was not closed. -/
theorem descriptor_leaked :
    ¬ (serialPorts linuxSerialBackend).Throughout (fun _ _ w' => ClosesEach w')
      [.new 0 ⟨0, 9600, 'N'.toUInt8, 8, 1, 0⟩
        ⟨0, ⟨false, false, 0, 0, ⟨"", 0, 0, 0, 0, ⟨{}, 0⟩⟩⟩, ⟨true, 0⟩⟩,
        .openPort ⟨0, 0, ⟨0, 9600, 'N'.toUInt8, 8, 1, 0⟩⟩ ⟨some 3, some {}, true, true, 0⟩,
        .destory ⟨0, 0, ⟨0, 9600, 'N'.toUInt8, 8, 1, 0⟩⟩ ⟨false, 5⟩] {} := by
  intro all
  obtain ⟨-, -, w, closes, hend⟩ := all.at_end (G := Machine.anyStep)
    (Q := fun w : UnixPorts => decide (w.handles = [] ∧
      obtained SerialEvent.onFds 3 w.trace ≠ returned SerialEvent.onFds 3 w.trace))
    nofun (by decide +kernel)
  obtain ⟨handles, unsettled⟩ := of_decide_eq_true hend
  refine unsettled (closes.closed 3 ?_)
  rintro ⟨k, hk, -⟩
  rw [handles] at hk
  cases hk

end LibZio
