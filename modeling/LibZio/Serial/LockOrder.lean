import LibZio.Foundation.Locks
import LibZio.Serial.Registry

/-! # The locks of the serial manager

Every call of `serial_port.c` as its sequence of locks and unlocks, on `g_mangers` and on the mutex
of a port, with the reads of the manager's list in between that decide how it goes on. The threads
that call it interleave at every instruction. `serial_new` and `serial_destory` lock a port inside
`g_mangers`; a caller that holds a port through `serial_lock` and makes a call that locks
`g_mangers`, or another port, closes a cycle with them (`serial_deadlocks`). While no thread asks
for a mutex with a port in its hands there is none (`serial_not_deadlocked`). -/

namespace LibZio

/-- The mutexes: `g_mangers`, and `sm->mt` for the port of an index. -/
inductive Mutex
  | gMangers
  | port (index : UInt8)
  deriving DecidableEq, Repr

/-- What the calls read and write of an entry of `serial_mangers`. -/
structure PortEntry where
  asked : Request
  refcount : ℤ
  opencount : ℤ
  deriving DecidableEq, Repr

/-- The entry for each index. -/
abbrev PortTable : Type := UInt8 → Option PortEntry

namespace PortTable

/-- Write to the entry of an index, if there is one. -/
def modify (index : UInt8) (f : PortEntry → PortEntry) (d : PortTable) : PortTable :=
  Function.update d index ((d index).map f)

/-- Count `d` references more. -/
def addRef (index : UInt8) (n : ℤ) : PortTable → PortTable :=
  modify index fun e => { e with refcount := e.refcount + n }

/-- Count `d` opens more. -/
def addOpen (index : UInt8) (n : ℤ) : PortTable → PortTable :=
  modify index fun e => { e with opencount := e.opencount + n }

end PortTable

/-- Code of the manager. -/
abbrev SerialCode : Type := Code Mutex PortTable

/-- Change the table under the mutex of a port. -/
def underPort (index : UInt8) (f : PortTable → PortTable) (next : SerialCode) : SerialCode :=
  .lock (.port index) (.update f (.unlock (.port index) next))

/-- `serial_new`. -/
def serialNewCode (asked : Request) : SerialCode :=
  .lock .gMangers <| .branch fun d =>
    match d asked.index with
    | some e =>
        if asked.shareMode = 0 ∨ e.asked.shareMode = 0 then .unlock .gMangers .done
        else if e.asked.baud ≠ asked.baud ∨ e.asked.parity ≠ asked.parity ∨
            e.asked.dataBit ≠ asked.dataBit ∨ e.asked.stopBit ≠ asked.stopBit then
          .unlock .gMangers .done
        else underPort asked.index (.addRef asked.index 1) (.unlock .gMangers .done)
    | none =>
        if !parityKnown asked.parity then .unlock .gMangers .done
        else
          .update (fun d => Function.update d asked.index (some ⟨asked, 1, 0⟩))
            (.unlock .gMangers .done)

/-- `serial_open`, where the backend answers `opens`. -/
def serialOpenCode (index : UInt8) (opens : Bool) : SerialCode :=
  .branch fun d =>
    match d index with
    | none => .done
    | some e =>
        if 0 < e.opencount then underPort index (.addOpen index 1) .done
        else if opens then underPort index (.addOpen index 1) .done
        else .done

/-- `serial_close`. What it does after it has counted locks nothing. -/
def serialCloseCode (index : UInt8) : SerialCode :=
  .branch fun d =>
    match d index with
    | none => .done
    | some e => if 0 < e.opencount then underPort index (.addOpen index (-1)) .done else .done

/-- The end of `serial_destory`. -/
def serialDestoryEnd (index : UInt8) : SerialCode :=
  .branch fun d =>
    match d index with
    | none => .unlock .gMangers .done
    | some e =>
        if e.refcount = 0 then
          .update (fun d => Function.update d index none) (.unlock .gMangers .done)
        else .unlock .gMangers .done

/-- `serial_destory`. -/
def serialDestoryCode (index : UInt8) : SerialCode :=
  .lock .gMangers <| .branch fun d =>
    match d index with
    | none => .unlock .gMangers .done
    | some e =>
        if 0 < e.refcount then underPort index (.addRef index (-1)) (serialDestoryEnd index)
        else serialDestoryEnd index

/-- `serial_lock`. -/
def serialLockCode (index : UInt8) : SerialCode :=
  .branch fun d =>
    match d index with
    | none => .done
    | some _ => .lock (.port index) .done

/-- `serial_unlock`. -/
def serialUnlockCode (index : UInt8) : SerialCode :=
  .branch fun d =>
    match d index with
    | none => .done
    | some _ => .unlock (.port index) .done

/-! ## Threads that use the manager -/

/-- A call of the manager. -/
inductive LockCall
  | new (asked : Request)
  | openPort (index : UInt8) (opens : Bool)
  | closePort (index : UInt8)
  | destory (index : UInt8)
  | lock (index : UInt8)
  | unlock (index : UInt8)

/-- The port of a call. -/
def LockCall.index : LockCall → UInt8
  | .new asked => asked.index
  | .openPort index _ => index
  | .closePort index => index
  | .destory index => index
  | .lock index => index
  | .unlock index => index

/-- The code of a call. -/
def LockCall.code : LockCall → SerialCode
  | .new asked => serialNewCode asked
  | .openPort index opens => serialOpenCode index opens
  | .closePort index => serialCloseCode index
  | .destory index => serialDestoryCode index
  | .lock index => serialLockCode index
  | .unlock index => serialUnlockCode index

/-- The threads, any number of them. -/
abbrev SerialThreads : Type := Threads ℕ Mutex PortTable

/-- What a thread does next. -/
inductive ThreadStep
  /-- It makes a call. -/
  | call (c : LockCall)
  /-- It runs one instruction of its call. -/
  | run

/-- One step of the thread `i.1`. -/
def SerialThreads.step (s : SerialThreads) (i : ℕ × ThreadStep) : Except LockFault SerialThreads :=
  match i.2 with
  | .call c =>
      match s.code i.1 with
      | .done => .ok (s.load i.1 c.code)
      | _ => .error .idle
  | .run => Threads.step s i.1

/-- The threads as a machine: at the start none runs a call and there are no ports. -/
def serialThreads : Machine SerialThreads (ℕ × ThreadStep) LockFault where
  init := { code := fun _ => .done, owner := fun _ => none, data := fun _ => none }
  step := SerialThreads.step

/-- The thread holds a port. -/
def SerialThreads.HoldsPort (s : SerialThreads) (t : ℕ) : Prop := ∃ p, s.owner (.port p) = some t

/-- Threads balance `serial_lock` and `serial_unlock`, lock one port at a time, and make no other
call on the port they have locked. -/
def BalancesLocks (s : SerialThreads) (i : ℕ × ThreadStep) : Prop :=
  match i.2 with
  | .run => True
  | .call (.unlock index) => s.owner (.port index) = some i.1
  | .call (.lock _) => ¬s.HoldsPort i.1
  | .call c => s.owner (.port c.index) ≠ some i.1

/-- A thread that comes to ask for a mutex holds no port. -/
def AsksEmptyHanded (s : SerialThreads) (i : ℕ × ThreadStep) : Prop :=
  ∀ s', serialThreads.step s i = .ok s' → ∀ m, s'.Asks i.1 m → ¬s'.HoldsPort i.1

/-- A thread that holds no port after its step holds none when it asks. -/
theorem AsksEmptyHanded.of_holdsNone {s s' : SerialThreads} {i : ℕ × ThreadStep}
    (run : serialThreads.step s i = .ok s') (none : ¬s'.HoldsPort i.1) : AsksEmptyHanded s i := by
  intro s'' h m _
  rw [run] at h
  cases h
  exact none

/-! ## No deadlock without ports in hand -/

/-- The code takes and gives back `g_mangers` properly, when it does (`true`) or does not hold
it. -/
def PairsGlobal : Bool → SerialCode → Prop
  | held, .done => held = false
  | held, .lock .gMangers next => held = false ∧ PairsGlobal true next
  | held, .lock (.port _) next => PairsGlobal held next
  | held, .unlock .gMangers next => held = true ∧ PairsGlobal false next
  | held, .unlock (.port _) next => PairsGlobal held next
  | held, .branch next => ∀ d, PairsGlobal held (next d)
  | held, .update _ next => PairsGlobal held next

/-- Every call pairs the global lock. -/
theorem LockCall.pairsGlobal (c : LockCall) : PairsGlobal false c.code := by
  have finish : ∀ index, PairsGlobal true (serialDestoryEnd index) := by
    intro index d
    dsimp only
    split
    · exact ⟨rfl, rfl⟩
    · split <;> exact ⟨rfl, rfl⟩
  cases c with
  | new asked =>
      refine ⟨rfl, fun d => ?_⟩
      dsimp only
      split
      · split
        · exact ⟨rfl, rfl⟩
        · split <;> exact ⟨rfl, rfl⟩
      · split <;> exact ⟨rfl, rfl⟩
  | openPort index opens =>
      intro d
      dsimp only
      split
      · rfl
      · split
        · rfl
        · split <;> rfl
  | closePort index =>
      intro d
      dsimp only
      split
      · rfl
      · split <;> rfl
  | destory index =>
      refine ⟨rfl, fun d => ?_⟩
      dsimp only
      split
      · exact ⟨rfl, rfl⟩
      · split
        · exact finish index
        · exact finish index
  | lock index =>
      intro d
      dsimp only
      split <;> rfl
  | unlock index =>
      intro d
      dsimp only
      split <;> rfl

/-- The invariant of threads that ask empty-handed. -/
structure EmptyHanded (s : SerialThreads) : Prop where
  pairs : ∀ t, PairsGlobal (decide (s.owner .gMangers = some t)) (s.code t)
  asks : ∀ t m, s.Asks t m → ¬s.HoldsPort t

namespace EmptyHanded

variable {s s' : SerialThreads}

/-- At the start. -/
theorem initial : EmptyHanded serialThreads.init where
  pairs _ := rfl
  asks _ _ h := nomatch h

/-- One instruction pairs the global lock, for the thread that runs it. -/
theorem pairs_stepped (inv : EmptyHanded s) {t : ℕ} (h : s.Stepped t s') :
    PairsGlobal (decide (s'.owner .gMangers = some t)) (s'.code t) := by
  have before := inv.pairs t
  cases h with
  | @lock m next code free =>
      rw [code] at before
      rw [Threads.load_code_self]
      cases m with
      | gMangers =>
          rw [Threads.load_owner, Threads.own_owner_self, decide_eq_true rfl]
          exact before.2
      | port p => exact before
  | @unlock m next code mine =>
      rw [code] at before
      rw [Threads.load_code_self]
      cases m with
      | gMangers =>
          rw [Threads.load_owner, Threads.own_owner_self, decide_eq_false nofun]
          exact before.2
      | port p => exact before
  | @branch next code =>
      rw [code] at before
      rw [Threads.load_code_self]
      exact before s.data
  | @update f next code =>
      rw [code] at before
      rw [Threads.load_code_self]
      exact before

/-- One instruction, after which the thread asks empty-handed, keeps the invariant. -/
theorem stepped (inv : EmptyHanded s) {t : ℕ} (h : s.Stepped t s')
    (empty : ∀ m, s'.Asks t m → ¬s'.HoldsPort t) : EmptyHanded s' := by
  constructor
  · intro t'
    by_cases ht : t' = t
    · rw [ht]
      exact inv.pairs_stepped h
    · rw [h.code_of_ne ht, decide_eq_decide.mpr (h.owner_of_ne ht .gMangers)]
      exact inv.pairs t'
  · intro t' m asks
    by_cases ht : t' = t
    · rw [ht] at asks ⊢
      exact empty m asks
    · rintro ⟨p, holds⟩
      have before : s.Asks t' m := by rwa [Threads.Asks, h.code_of_ne ht] at asks
      exact inv.asks t' m before ⟨p, (h.owner_of_ne ht (.port p)).mp holds⟩

/-- A call, after whose start the thread asks empty-handed, keeps the invariant. -/
theorem called (inv : EmptyHanded s) {t : ℕ} {c : LockCall} (idle : s.code t = .done)
    (empty : ∀ m, (s.load t c.code).Asks t m → ¬s.HoldsPort t) : EmptyHanded (s.load t c.code) := by
  constructor
  · intro t'
    by_cases ht : t' = t
    · have before := inv.pairs t
      rw [idle] at before
      have none : decide (s.owner .gMangers = some t) = false := before
      rw [ht, Threads.load_code_self]
      change PairsGlobal (decide (s.owner .gMangers = some t)) c.code
      rw [none]
      exact c.pairsGlobal
    · rw [Threads.load_code_of_ne s ht]
      exact inv.pairs t'
  · intro t' m asks
    by_cases ht : t' = t
    · rw [ht] at asks ⊢
      exact empty m asks
    · rw [Threads.Asks, Threads.load_code_of_ne s ht] at asks
      exact inv.asks t' m asks

/-- **Every step after which the thread asks empty-handed keeps the invariant.** -/
theorem step (inv : EmptyHanded s) {i : ℕ × ThreadStep} (empty : AsksEmptyHanded s i)
    (h : serialThreads.step s i = .ok s') : EmptyHanded s' := by
  have empty := empty s' h
  obtain ⟨t, a⟩ := i
  cases a with
  | run => exact inv.stepped (Threads.stepped_of_step h) empty
  | call c =>
      change (match s.code t with
        | .done => .ok (s.load t c.code)
        | _ => .error .idle : Except LockFault SerialThreads) = .ok s' at h
      cases hc : s.code t with
      | done =>
          rw [hc] at h
          cases h
          exact inv.called hc empty
      | lock m next => rw [hc] at h; cases h
      | unlock m next => rw [hc] at h; cases h
      | branch next => rw [hc] at h; cases h
      | update f next => rw [hc] at h; cases h

/-- `g_mangers` ranks below the ports. -/
def rank : Mutex → ℕ
  | .gMangers => 0
  | .port _ => 1

/-- Threads that ask empty-handed are not deadlocked. -/
theorem not_deadlocked (inv : EmptyHanded s) : ¬s.Deadlocked := by
  refine Threads.not_deadlocked rank fun t m asks m' holds => ?_
  cases m' with
  | port p => exact absurd ⟨p, holds⟩ (inv.asks t m asks)
  | gMangers =>
      cases m with
      | port p => exact Nat.zero_lt_one
      | gMangers =>
          -- a thread that holds the global lock does not ask for it
          obtain ⟨next, code⟩ := asks
          have pairs := inv.pairs t
          rw [code, decide_eq_true holds] at pairs
          exact absurd pairs.1 nofun

end EmptyHanded

/-- **Lock order.** Threads that ask for a mutex only while they hold no port are never
deadlocked. -/
theorem serial_not_deadlocked {s : SerialThreads}
    (h : serialThreads.Reach (fun s i => BalancesLocks s i ∧ AsksEmptyHanded s i) s) :
    ¬s.Deadlocked := by
  have inv : EmptyHanded s := h.invariant EmptyHanded.initial
    fun _ _ _ _ inv fits run => inv.step fits.2 run
  exact inv.not_deadlocked

/-- Two threads that call `serial_lock`: the one waits for the other, which holds the port and asks
for nothing. -/
theorem serial_not_deadlocked_waiting : ∃ s : SerialThreads, s.Waits 1 0 ∧ ¬s.Deadlocked := by
  let one : Request := ⟨1, 9600, 'N'.toUInt8, 8, 1, 1⟩
  have r : serialThreads.Reach (fun s i => BalancesLocks s i ∧ AsksEmptyHanded s i)
    serialThreads.init := .init
  -- thread 0 creates port 1
  have r := r.step (i := ((0 : ℕ), ThreadStep.call (.new one)))
    ⟨(fun h => nomatch h), .of_holdsNone rfl (by rintro ⟨p, hp⟩; cases hp)⟩ rfl
  have r := r.step (i := ((0 : ℕ), ThreadStep.run))
    ⟨trivial, .of_holdsNone rfl (by rintro ⟨p, hp⟩; cases hp)⟩ rfl
  have r := r.step (i := ((0 : ℕ), ThreadStep.run))
    ⟨trivial, .of_holdsNone rfl (by rintro ⟨p, hp⟩; cases hp)⟩ rfl
  have r := r.step (i := ((0 : ℕ), ThreadStep.run))
    ⟨trivial, .of_holdsNone rfl (by rintro ⟨p, hp⟩; cases hp)⟩ rfl
  have r := r.step (i := ((0 : ℕ), ThreadStep.run))
    ⟨trivial, .of_holdsNone rfl (by rintro ⟨p, hp⟩; cases hp)⟩ rfl
  -- and locks it: it asks while it holds no port, and holds it when it asks no more
  have r := r.step (i := ((0 : ℕ), ThreadStep.call (.lock 1)))
    ⟨(by rintro ⟨p, hp⟩; cases hp), .of_holdsNone rfl (by rintro ⟨p, hp⟩; cases hp)⟩ rfl
  have r := r.step (i := ((0 : ℕ), ThreadStep.run))
    ⟨trivial, .of_holdsNone rfl (by rintro ⟨p, hp⟩; cases hp)⟩ rfl
  have r := r.step (i := ((0 : ℕ), ThreadStep.run))
    ⟨trivial, by rintro s' h m ⟨next, code⟩ -; cases h; cases code⟩ rfl
  -- thread 1 asks for it, and holds none
  have others : ∀ {s : SerialThreads} {p : UInt8},
      (s.own (.port 1) (some 0)).owner (.port p) = some 1 → s.owner (.port p) = some 1 := by
    intro s p hp
    by_cases hport : Mutex.port p = .port 1
    · rw [hport, Threads.own_owner_self] at hp
      cases hp
    · exact (Function.update_of_ne hport _ _).symm.trans hp
  have r := r.step (i := ((1 : ℕ), ThreadStep.call (.lock 1)))
    ⟨(by rintro ⟨p, hp⟩; cases others hp),
      .of_holdsNone rfl (by rintro ⟨p, hp⟩; cases others hp)⟩ rfl
  have r := r.step (i := ((1 : ℕ), ThreadStep.run))
    ⟨trivial, .of_holdsNone rfl (by rintro ⟨p, hp⟩; cases others hp)⟩ rfl
  exact ⟨_, ⟨.port 1, ⟨_, rfl⟩, rfl⟩, serial_not_deadlocked r⟩

/-- A thread that holds port 1 and asks for port 2 through `serial_new`, while another thread in
`serial_new` asks for port 1: each waits for the other. -/
theorem serial_deadlocks : ¬∀ s, serialThreads.Reach BalancesLocks s → ¬s.Deadlocked := by
  intro claim
  let one : Request := ⟨1, 9600, 'N'.toUInt8, 8, 1, 1⟩
  let two : Request := ⟨2, 9600, 'N'.toUInt8, 8, 1, 1⟩
  have r : serialThreads.Reach BalancesLocks serialThreads.init := .init
  -- thread 0 creates port 1
  have r := r.step (i := ((0 : ℕ), ThreadStep.call (.new one))) (fun h => nomatch h) rfl
  have r := r.step (i := ((0 : ℕ), ThreadStep.run)) trivial rfl
  have r := r.step (i := ((0 : ℕ), ThreadStep.run)) trivial rfl
  have r := r.step (i := ((0 : ℕ), ThreadStep.run)) trivial rfl
  have r := r.step (i := ((0 : ℕ), ThreadStep.run)) trivial rfl
  -- and locks it
  have r := r.step (i := ((0 : ℕ), ThreadStep.call (.lock 1))) (by rintro ⟨p, h⟩; cases h) rfl
  have r := r.step (i := ((0 : ℕ), ThreadStep.run)) trivial rfl
  have r := r.step (i := ((0 : ℕ), ThreadStep.run)) trivial rfl
  -- thread 1 shares port 1, up to the lock of the port
  have r := r.step (i := ((1 : ℕ), ThreadStep.call (.new one))) (fun h => nomatch h) rfl
  have r := r.step (i := ((1 : ℕ), ThreadStep.run)) trivial rfl
  have r := r.step (i := ((1 : ℕ), ThreadStep.run)) trivial rfl
  -- thread 0 asks for port 2
  have r := r.step (i := ((0 : ℕ), ThreadStep.call (.new two))) (fun h => nomatch h) rfl
  refine claim _ r ⟨0, .tail (.single (b := 1) ?_) ?_⟩
  · exact ⟨.gMangers, ⟨_, rfl⟩, rfl⟩
  · exact ⟨.port 1, ⟨_, rfl⟩, rfl⟩

end LibZio
