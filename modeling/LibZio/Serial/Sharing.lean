import LibZio.Serial.Registry
import LibZio.Serial.Steps
import LibZio.Serial.Unix
import Mathlib.Data.List.Nodup

/-! # Who shares a serial port

The manager is a registry of shared ports: every call is a step of the registry, as long as callers
use only handles that are out. The invariant on the way says that the reference counts of the code
are the numbers of handles (`Counted`). What holds of registries then holds of the manager
(`serial_sharing`). -/

namespace LibZio

variable {B : Backend} {w w' : SerialWorld B}

/-- The life of what the memory holds. -/
def SerialSlot.life {Dev : Type} : SerialSlot Dev → Life
  | .unused => .unused
  | .live ctx => .live ctx.info
  | .freed => .freed

/-- The registry that the manager implements. -/
def SerialWorld.registry (w : SerialWorld B) : Registry where
  ports := w.mangers.map (·.t)
  life := SerialSlot.life ∘ w.mem
  handles := w.handles
  granted := w.granted
  freed := fun p => w.trace.countP (SerialEvent.frees p)

/-- A live object is live in the registry. -/
theorem SerialWorld.registry_life {p : Pid} {ctx : Serial B.Dev} (h : w.mem p = .live ctx) :
    w.registry.life p = .live ctx.info := by
  change (w.mem p).life = _
  rw [h]
  rfl

/-- A life in the registry is that of an object. -/
theorem SerialWorld.live_of_registry {p : Pid} {info : PortInfo}
    (h : w.registry.life p = .live info) : ∃ ctx, w.mem p = .live ctx ∧ ctx.info = info := by
  change (w.mem p).life = _ at h
  cases hm : w.mem p with
  | unused => rw [hm] at h; cases h
  | freed => rw [hm] at h; cases h
  | live ctx => rw [hm] at h; cases h; exact ⟨ctx, rfl, rfl⟩

/-! ## What the operations do to the registry -/

namespace SerialWorld

@[simp] theorem putManger_map_t (w : SerialWorld B) (sm : Manger) :
    (w.putManger sm).mangers.map (·.t) = w.mangers.map (·.t) := by
  simp only [putManger, List.map_map]
  refine List.map_congr_left fun m _ => ?_
  rw [Function.comp_apply]
  split
  · next h => exact h.symm
  · rfl

/-- Writing an entry does not change the registry. -/
@[simp] theorem registry_putManger (w : SerialWorld B) (sm : Manger) :
    (w.putManger sm).registry = w.registry := by
  have ports := putManger_map_t w sm
  unfold registry
  rw [ports]
  rfl

/-- Writing an object with the same settings does not change the registry. -/
theorem registry_put {p : Pid} {ctx ctx' : Serial B.Dev} (live : w.mem p = .live ctx)
    (same : ctx'.info = ctx.info) : (w.put p ctx').registry = w.registry := by
  have life : SerialSlot.life ∘ Function.update w.mem p (.live ctx') = SerialSlot.life ∘ w.mem := by
    rw [Function.comp_update]
    refine Function.update_eq_self_iff.mpr ?_
    rw [Function.comp_apply, live, SerialSlot.life, SerialSlot.life, same]
  unfold registry put
  dsimp only
  rw [life]

/-- What a backend does to its device does not change the registry. -/
@[simp] theorem registry_logDev (w : SerialWorld B) (p : Pid) (es : List (DevEvent B.Settings)) :
    (w.logDev p es).registry = w.registry := by
  have neither : ∀ e ∈ es.map (SerialEvent.device (B := B) p), e.onHandles = .neither := by
    intro e he
    obtain ⟨d, -, rfl⟩ := List.mem_map.mp he
    rfl
  have handles := @Ledger.held_append _ _ SerialEvent.onHandles _ _ w.trace neither
  have granted := @Ledger.acquired_append _ _ SerialEvent.onHandles _ w.trace neither
  have freed : ∀ q, (es.map (SerialEvent.device (B := B) p) ++ w.trace).countP
      (SerialEvent.frees q) = w.trace.countP (SerialEvent.frees q) := by
    intro q
    rw [List.countP_append, List.countP_map]
    have none : List.countP (SerialEvent.frees q ∘ SerialEvent.device (B := B) p) es = 0 :=
      List.countP_eq_zero.mpr fun e _ => Bool.false_ne_true
    rw [none, Nat.zero_add]
  change Registry.mk (w.mangers.map (·.t)) (SerialSlot.life ∘ w.mem)
    (Ledger.held SerialEvent.onHandles (es.map (SerialEvent.device p) ++ w.trace))
    (Ledger.acquired SerialEvent.onHandles (es.map (SerialEvent.device p) ++ w.trace))
    (fun q => (es.map (SerialEvent.device p) ++ w.trace).countP (SerialEvent.frees q)) = w.registry
  rw [handles, granted]
  simp only [freed]
  rfl

/-- Freeing an object. -/
theorem registry_free (w : SerialWorld B) (p : Pid) :
    (w.free p).registry = { w.registry with
      life := Function.update w.registry.life p .freed
      freed := Function.update w.registry.freed p (w.registry.freed p + 1) } := by
  have life : SerialSlot.life ∘ Function.update w.mem p .freed =
      Function.update (SerialSlot.life ∘ w.mem) p .freed := Function.comp_update ..
  have freed : (fun q => (SerialEvent.freed (B := B) p :: w.trace).countP (SerialEvent.frees q)) =
      Function.update (fun q => w.trace.countP (SerialEvent.frees q)) p
        (w.trace.countP (SerialEvent.frees p) + 1) := by
    funext q
    by_cases hq : q = p
    · subst hq
      rw [Function.update_self]
      exact List.countP_cons_of_pos (p := SerialEvent.frees q) (decide_eq_true rfl)
    · rw [Function.update_of_ne hq]
      refine List.countP_cons_of_neg ?_
      rw [SerialEvent.frees, decide_eq_true_eq]
      exact fun h => hq h.symm
  unfold registry free
  dsimp only
  rw [life, freed]
  rfl

/-- Handing out a handle. -/
theorem registry_acquired (w : SerialWorld B) (k : Handle) :
    (w.log (.acquired k)).registry =
      { w.registry with handles := k :: w.handles, granted := k :: w.granted } := rfl

/-- Taking a handle back. -/
theorem registry_released (w : SerialWorld B) (k : Handle) :
    (w.log (.released k)).registry = { w.registry with handles := w.handles.erase k } := rfl

/-- A new entry for a new object. -/
theorem registry_addSerial (w : SerialWorld B) (p : Pid) (ctx : Serial B.Dev) :
    (addSerial p (w.put p ctx)).registry = { w.registry with
      ports := p :: w.registry.ports
      life := Function.update w.registry.life p (.live ctx.info) } := by
  have life : SerialSlot.life ∘ Function.update w.mem p (.live ctx) =
      Function.update (SerialSlot.life ∘ w.mem) p (.live ctx.info) := Function.comp_update ..
  unfold registry addSerial put
  dsimp only
  rw [life]
  rfl

/-- An object that a call leaves is written as it is. -/
theorem mem_eq_update {p : Pid} {ctx : Serial B.Dev} (live : w.mem p = .live ctx) :
    w.mem = Function.update w.mem p (.live ctx) := by
  rw [← live, Function.update_eq_self]

/-- The entries after one is written. -/
theorem mem_putManger {sm m : Manger} (h : m ∈ (w.putManger sm).mangers) :
    m = sm ∨ m ∈ w.mangers ∧ m.t ≠ sm.t := by
  obtain ⟨m', hm', rfl⟩ := List.mem_map.mp h
  split
  · exact .inl rfl
  · next hne => exact .inr ⟨hm', hne⟩

/-- Writing an entry as it is changes nothing. -/
theorem putManger_self (nodup : (w.mangers.map (·.t)).Nodup) {sm : Manger} (hsm : sm ∈ w.mangers) :
    (w.putManger sm).mangers = w.mangers := by
  have same : ∀ m ∈ w.mangers, (if m.t = sm.t then sm else m) = m := by
    intro m hm
    by_cases h : m.t = sm.t
    · rw [if_pos h, List.inj_on_of_nodup_map nodup hm hsm h]
    · exact if_neg h
  rw [putManger, List.map_congr_left same, List.map_id']

end SerialWorld

/-! ## The invariant -/

/-- The registry is valid, and the reference counts are the numbers of handles. -/
structure Counted (w : SerialWorld B) : Prop where
  valid : Registry.Valid B.devname w.registry
  refcount : ∀ sm ∈ w.mangers, sm.refcount = handleCount sm.t w.handles

/-- Callers use handles that are out. -/
def HoldsHandles (w : SerialWorld B) : SerialCall B → Prop
  | .new _ _ _ => True
  | .openPort k _ => k ∈ w.handles
  | .closePort k _ => k ∈ w.handles
  | .destory k _ => k ∈ w.handles

instance (w : SerialWorld B) (c : SerialCall B) : Decidable (HoldsHandles w c) := by
  cases c <;> unfold HoldsHandles <;> infer_instance

namespace Counted

/-- At the start. -/
theorem initial : Counted ({} : SerialWorld B) where
  valid := Registry.empty_valid
  refcount _ h := nomatch h

/-- The entry for a device is that of the port. -/
theorem entry_eq (inv : Counted w) {sm : Manger} {p : Pid} {ctx ctx' : Serial B.Dev}
    (hsm : sm ∈ w.mangers) (live : w.mem sm.t = .live ctx') (hp : p ∈ w.registry.ports)
    (live' : w.mem p = .live ctx) (same : ctx'.backendData.device = ctx.backendData.device) :
    sm.t = p :=
  inv.valid.oneEntry sm.t (List.mem_map_of_mem hsm) p hp _ _ (SerialWorld.registry_life live)
    (SerialWorld.registry_life live') same

/-- Entries of one port are the same entry. -/
theorem entry_unique (inv : Counted w) {sm sm' : Manger} (h : sm ∈ w.mangers)
    (h' : sm' ∈ w.mangers) (same : sm.t = sm'.t) : sm = sm' :=
  List.inj_on_of_nodup_map inv.valid.nodup h h' same

/-- The port of a handle has an entry. -/
theorem entry_of_handle (inv : Counted w) {k : Handle} (out : k ∈ w.handles) :
    ∃ sm ∈ w.mangers, sm.t = k.port :=
  List.mem_map.mp (inv.valid.listed k out)

/-- **A live handle is found.** -/
theorem found (inv : Counted w) {k : Handle} (out : k ∈ w.handles) {ctx : Serial B.Dev}
    (live : w.mem k.port = .live ctx) :
    ∃ sm ∈ w.mangers, sm.t = k.port ∧
      w.findSerial ctx.backendData.device = .ok (some sm) := by
  obtain ⟨sm, hsm, ht⟩ := inv.entry_of_handle out
  refine ⟨sm, hsm, ht, findIn_eq ?_ hsm ?_ (by rw [ht]; exact live) rfl⟩
  · intro m hm
    obtain ⟨info, h⟩ := inv.valid.live m.t (List.mem_map_of_mem hm)
    obtain ⟨ctx', h', -⟩ := SerialWorld.live_of_registry h
    exact ⟨ctx', h'⟩
  · intro m hm ctx' h' same
    refine inv.entry_unique hm hsm ?_
    rw [ht]
    exact inv.entry_eq hm h' (inv.valid.listed k out) live same

/-- The entry that a handle finds is that of its port. -/
theorem found_eq (inv : Counted w) {k : Handle} (out : k ∈ w.handles) {ctx : Serial B.Dev}
    (live : w.mem k.port = .live ctx) {sm : Manger}
    (h : w.findSerial ctx.backendData.device = .ok (some sm)) : sm ∈ w.mangers ∧ sm.t = k.port := by
  obtain ⟨sm', hsm', ht, h'⟩ := inv.found out live
  rw [h] at h'
  cases h'
  exact ⟨hsm', ht⟩

/-- A handle that is out always finds an entry. -/
theorem not_orphan (inv : Counted w) {k : Handle} (out : k ∈ w.handles) {ctx : Serial B.Dev}
    (live : w.mem k.port = .live ctx) : w.findSerial ctx.backendData.device ≠ .ok none := by
  intro h
  obtain ⟨sm', -, -, h'⟩ := inv.found out live
  rw [h] at h'
  cases h'

/-- What leaves the registry and the reference counts keeps the invariant. -/
theorem same (inv : Counted w) (registry : w'.registry = w.registry)
    (entries : ∀ m ∈ w'.mangers, ∃ m' ∈ w.mangers, m.t = m'.t ∧ m.refcount = m'.refcount) :
    Counted w' := by
  have handles : w'.handles = w.handles := congrArg Registry.handles registry
  constructor
  · rw [registry]
    exact inv.valid
  · intro m hm
    obtain ⟨m', hm', ht, hr⟩ := entries m hm
    rw [hr, ht, handles]
    exact inv.refcount m' hm'

/-- Writing an entry with the same port and reference count. -/
theorem entries_putManger {sm sm' : Manger} (h : sm ∈ w.mangers) (t : sm'.t = sm.t)
    (refcount : sm'.refcount = sm.refcount) :
    ∀ m ∈ (w.putManger sm').mangers, ∃ m' ∈ w.mangers, m.t = m'.t ∧ m.refcount = m'.refcount := by
  intro m hm
  rcases SerialWorld.mem_putManger hm with rfl | ⟨hm, -⟩
  · exact ⟨sm, h, t, refcount⟩
  · exact ⟨m, hm, rfl, rfl⟩

/-! ### The calls -/

/-- `serial_open` leaves the registry. -/
theorem opens (inv : Counted w) {k : Handle} (out : k ∈ w.handles) {answer : B.OpenAnswer} {rc : ℤ}
    (h : OpenStep k answer w rc w') : w'.registry = w.registry ∧ Counted w' := by
  cases h with
  | orphan live none => exact absurd none (inv.not_orphan out live)
  | @again ctx sm live found inUse =>
      have same : Serial.info { ctx with isOpen := true } = ctx.info := rfl
      have registry := (SerialWorld.registry_put (w := w.putManger { sm with
        opencount := sm.opencount + 1 }) live same).trans (SerialWorld.registry_putManger w _)
      exact ⟨registry, inv.same registry
        (entries_putManger (inv.found_eq out live found).1 rfl rfl)⟩
  | @failed ctx ctx' sm rc es live found unopened backend failed =>
      have registry := (SerialWorld.registry_logDev (w.put k.port ctx') k.port es).trans
        (SerialWorld.registry_put live (B.openDev_info backend))
      exact ⟨registry, inv.same registry fun m hm => ⟨m, hm, rfl, rfl⟩⟩
  | @opened ctx ctx' sm es live found unopened backend =>
      have first := (SerialWorld.registry_logDev (w.put k.port ctx') k.port es).trans
        (SerialWorld.registry_put live (B.openDev_info backend))
      have live' : (((w.put k.port ctx').logDev k.port es).putManger { sm with
          opencount := sm.opencount + 1 }).mem k.port = .live ctx' := Function.update_self ..
      have same : Serial.info { ctx' with isOpen := true } = ctx'.info := rfl
      have registry := (SerialWorld.registry_put live' same).trans
        ((SerialWorld.registry_putManger _ _).trans first)
      exact ⟨registry, inv.same registry
        (entries_putManger (inv.found_eq out live found).1 rfl rfl)⟩

/-- `serial_close` leaves the registry. -/
theorem closes (inv : Counted w) {k : Handle} (out : k ∈ w.handles) {answer : B.CloseAnswer}
    {rc : ℤ} (h : CloseStep k answer w rc w') : w'.registry = w.registry ∧ Counted w' := by
  cases h with
  | orphan live none => exact absurd none (inv.not_orphan out live)
  | @kept ctx sm live found inUse =>
      have registry := SerialWorld.registry_putManger (w.log (.closed k)) sm.countClose
      exact ⟨registry, inv.same registry (entries_putManger (w := w.log (.closed k))
        (inv.found_eq out live found).1 sm.countClose_t sm.countClose_refcount)⟩
  | @backend ctx sm live found unused =>
      have first := SerialWorld.registry_putManger (w.log (.closed k)) sm.countClose
      have second := SerialWorld.registry_put (w := ((w.log (.closed k)).putManger
        sm.countClose).log (.closing k.port)) live (B.closeDev_info answer ctx)
      have registry := (SerialWorld.registry_logDev _ k.port (B.closeDev answer ctx).2.2).trans
        (second.trans first)
      exact ⟨registry, inv.same registry (entries_putManger (w := w.log (.closed k))
        (inv.found_eq out live found).1 sm.countClose_t sm.countClose_refcount)⟩

/-- `serial_new` is a step of the registry. -/
theorem news (inv : Counted w) {holder : ℕ} {asked : Request} {answer : NewAnswer B}
    {r : Option Pid}
    (h : NewStep holder asked answer w r w') :
    Registry.Step B.devname w.registry w'.registry ∧ Counted w' := by
  cases h with
  | refused found => exact ⟨.stay _, inv⟩
  | @shared sm t found live sharing shares baud parity dataBit stopBit room =>
      obtain ⟨hsm, ctx, hctx, device⟩ := findIn_some found
      rw [live] at hctx
      cases hctx
      have step : Registry.Step B.devname w.registry ((w.putManger { sm with
          refcount := sm.refcount + 1 }).log (.acquired ⟨holder, sm.t, asked⟩)).registry := by
        rw [SerialWorld.registry_acquired, SerialWorld.registry_putManger]
        -- the entry found is listed, and the checks of `serial_new` say that it serves the request
        exact .share w.registry ⟨holder, sm.t, asked⟩ t.info (List.mem_map_of_mem hsm)
          (SerialWorld.registry_life live) ⟨device, baud, parity, dataBit, stopBit⟩ shares sharing
      refine ⟨step, inv.valid.step step, ?_⟩
      intro m hm
      change m.refcount = handleCount m.t (⟨holder, sm.t, asked⟩ :: w.handles)
      rcases SerialWorld.mem_putManger hm with rfl | ⟨hm, hne⟩
      · change sm.refcount + 1 = handleCount (Handle.mk holder sm.t asked).port _
        rw [inv.refcount sm hsm, Registry.handleCount_cons_self, Int.natCast_succ]
      · rw [Registry.handleCount_cons_of_ne (fun same => hne same.symm)]
        exact inv.refcount m hm
  | @rejected none unused parity =>
      have life : w.registry.life answer.ptr = .unused := congrArg SerialSlot.life unused
      have step : Registry.Step B.devname w.registry ((w.logDev answer.ptr
          (B.destory answer.close (badPort asked answer.garbage))).free answer.ptr).registry := by
        rw [SerialWorld.registry_free, SerialWorld.registry_logDev]
        -- the object is allocated and freed, and no handle is given out
        exact .reject w.registry answer.ptr life
      have handles : ((w.logDev answer.ptr (B.destory answer.close
          (badPort asked answer.garbage))).free answer.ptr).handles = w.handles :=
        congrArg Registry.handles (SerialWorld.registry_logDev w answer.ptr _)
      refine ⟨step, inv.valid.step step, ?_⟩
      intro m hm
      rw [handles]
      exact inv.refcount m hm
  | @created none unused parity =>
      have life : w.registry.life answer.ptr = .unused := congrArg SerialSlot.life unused
      have step : Registry.Step B.devname w.registry ((addSerial answer.ptr (w.put answer.ptr
          (newPort asked answer.garbage))).log
            (.acquired ⟨holder, answer.ptr, asked⟩)).registry := by
        rw [SerialWorld.registry_acquired, SerialWorld.registry_addSerial]
        refine .create w.registry ⟨holder, answer.ptr, asked⟩ life fun p hp info live => ?_
        -- no entry was found, so that no port has the device
        obtain ⟨m, hm, rfl⟩ := List.mem_map.mp hp
        obtain ⟨ctx, hctx, hne⟩ := findIn_none none hm
        rw [SerialWorld.registry_life hctx] at live
        cases live
        exact hne
      have fresh : ∀ k ∈ w.handles, k.port ≠ answer.ptr := by
        intro k hk same
        obtain ⟨info, live⟩ := inv.valid.live k.port (inv.valid.listed k hk)
        rw [same, life] at live
        cases live
      have zero : handleCount answer.ptr w.handles = 0 := by
        refine List.countP_eq_zero.mpr fun k hk => ?_
        rw [decide_eq_true_eq]
        exact fresh k hk
      refine ⟨step, inv.valid.step step, ?_⟩
      intro m hm
      change m.refcount = handleCount m.t (⟨holder, answer.ptr, asked⟩ :: w.handles)
      rcases List.mem_cons.mp hm with rfl | hm
      · change (1 : ℤ) = handleCount (Handle.mk holder answer.ptr asked).port _
        rw [Registry.handleCount_cons_self, zero]
        rfl
      · have other : answer.ptr ≠ m.t := by
          intro same
          obtain ⟨info, live⟩ := inv.valid.live m.t (List.mem_map_of_mem hm)
          rw [← same, life] at live
          cases live
        rw [Registry.handleCount_cons_of_ne other]
        exact inv.refcount m hm

/-- `serial_destory` is a step of the registry. -/
theorem destorys (inv : Counted w) {k : Handle} (out : k ∈ w.handles) {answer : B.CloseAnswer}
    (h : DestoryStep k answer w w') :
    Registry.Step B.devname w.registry w'.registry ∧ Counted w' := by
  -- what the reference count of the port becomes
  have count : ∀ {sm : Manger}, sm ∈ w.mangers → sm.t = k.port →
      sm.countRelease.refcount = handleCount k.port (w.handles.erase k) := by
    intro sm hsm ht
    have before := inv.refcount sm hsm
    have one := Registry.handleCount_erase_self out
    rw [ht, ← one, Int.natCast_succ] at before
    rw [Manger.countRelease, if_pos (by omega)]
    change sm.refcount - 1 = _
    omega
  cases h with
  | orphan live none => exact absurd none (inv.not_orphan out live)
  | @kept ctx sm live found more =>
      obtain ⟨hsm, ht⟩ := inv.found_eq out live found
      rw [count hsm ht, ne_eq, Int.natCast_eq_zero] at more
      have step : Registry.Step B.devname w.registry
          ((w.log (.released k)).putManger sm.countRelease).registry := by
        rw [SerialWorld.registry_putManger, SerialWorld.registry_released]
        exact .release w.registry k out more
      refine ⟨step, inv.valid.step step, ?_⟩
      intro m hm
      change m.refcount = handleCount m.t (w.handles.erase k)
      rcases SerialWorld.mem_putManger hm with rfl | ⟨hm, hne⟩
      · rw [count hsm ht, sm.countRelease_t, ht]
      · rw [sm.countRelease_t, ht] at hne
        rw [Registry.handleCount_erase_of_ne hne.symm]
        exact inv.refcount m hm
  | @last ctx sm live found none =>
      obtain ⟨hsm, ht⟩ := inv.found_eq out live found
      rw [count hsm ht, Int.natCast_eq_zero] at none
      have entries := SerialWorld.putManger_map_t (w.log (.released k)) sm.countRelease
      have ports : (((w.log (.released k)).putManger sm.countRelease).mangers.filter fun m =>
          m.t ≠ sm.countRelease.t).map (·.t) =
            w.registry.ports.filter fun p => p ≠ k.port := by
        have filtered := List.filter_map (f := fun m : Manger => m.t)
          (p := fun p => decide (p ≠ k.port))
          (l := ((w.log (.released k)).putManger sm.countRelease).mangers)
        rw [entries] at filtered
        rw [sm.countRelease_t, ht]
        exact filtered.symm
      have registry : (({ (w.log (.released k)).putManger sm.countRelease with
          mangers := ((w.log (.released k)).putManger sm.countRelease).mangers.filter fun m =>
            m.t ≠ sm.countRelease.t }.logDev k.port (B.destory answer ctx)).free k.port).registry =
          { w.registry with
            ports := w.registry.ports.filter fun p => p ≠ k.port
            life := Function.update w.registry.life k.port .freed
            handles := w.handles.erase k
            freed := Function.update w.registry.freed k.port (w.registry.freed k.port + 1) } := by
        rw [SerialWorld.registry_free, SerialWorld.registry_logDev, ← ports]
        rfl
      have step := (congrArg (Registry.Step B.devname w.registry) registry).mpr
        (.last w.registry k out none)
      have handles := congrArg Registry.handles registry
      refine ⟨step, inv.valid.step step, ?_⟩
      intro m hm
      obtain ⟨hm, hne⟩ := List.mem_filter.mp hm
      have hne := of_decide_eq_true hne
      rw [sm.countRelease_t, ht] at hne
      refine Eq.trans ?_ (congrArg (fun ks => (handleCount m.t ks : ℤ)) handles.symm)
      rcases SerialWorld.mem_putManger hm with rfl | ⟨hm, -⟩
      · exact absurd (sm.countRelease_t.trans ht) hne
      · change m.refcount = handleCount m.t (w.handles.erase k)
        rw [Registry.handleCount_erase_of_ne hne.symm]
        exact inv.refcount m hm

/-- **Refinement.** Every call by holders of handles is a step of the registry. -/
theorem step (inv : Counted w) {c : SerialCall B} (holds : HoldsHandles w c)
    (h : c.run w = .ok w') : Registry.Step B.devname w.registry w'.registry ∧ Counted w' := by
  cases c with
  | new holder asked answer =>
      obtain ⟨⟨r, v⟩, hn, rfl⟩ := map_eq_ok.mp h
      exact inv.news (serialNewRecord_step hn)
  | openPort k answer =>
      obtain ⟨⟨rc, v⟩, ho, rfl⟩ := map_eq_ok.mp h
      obtain ⟨registry, inv'⟩ := inv.opens holds (serialOpenRecord_step ho)
      rw [registry]
      exact ⟨.stay _, inv'⟩
  | closePort k answer =>
      obtain ⟨⟨rc, v⟩, hc, rfl⟩ := map_eq_ok.mp h
      obtain ⟨registry, inv'⟩ := inv.closes holds (serialCloseRecord_step hc)
      rw [registry]
      exact ⟨.stay _, inv'⟩
  | destory k answer => exact inv.destorys holds (serialDestoryRecord_step h)

/-- The invariant holds in every state reached. -/
theorem reached (h : (serialPorts B).Reach HoldsHandles w) : Counted w :=
  h.invariant initial fun _ _ _ _ inv holds run => (inv.step holds run).2

end Counted

/-! ## The sharing contract -/

/-- How the manager shares ports: one entry for each device, whose count is the number of handles to
the device, all to the same object with the settings that every holder asked for; more than one only
if every holder ever shared; found for every handle; and freed once, with the last one. -/
structure SharesPorts (w : SerialWorld B) : Prop where
  nodup : w.mangers.Nodup
  live : ∀ sm ∈ w.mangers, ∃ ctx, w.mem sm.t = .live ctx
  oneEntry : ∀ sm ∈ w.mangers, ∀ sm' ∈ w.mangers, ∀ ctx ctx', w.mem sm.t = .live ctx →
    w.mem sm'.t = .live ctx' → ctx.backendData.device = ctx'.backendData.device → sm = sm'
  refcount : ∀ sm ∈ w.mangers, ∀ ctx, w.mem sm.t = .live ctx →
    sm.refcount =
      w.handles.countP (fun k => B.devname k.asked.index = ctx.backendData.device) ∧
    1 ≤ sm.refcount
  same : ∀ sm ∈ w.mangers, ∀ ctx, w.mem sm.t = .live ctx → ∀ k ∈ w.handles,
    B.devname k.asked.index = ctx.backendData.device →
      k.port = sm.t ∧ ctx.info.Serves B.devname k.asked
  sharing : ∀ sm ∈ w.mangers, 1 < sm.refcount → ∀ k ∈ w.granted, k.port = sm.t →
    k.asked.shareMode ≠ 0
  found : ∀ k ∈ w.handles, ∃ sm, w.findSerial (B.devname k.asked.index) = .ok (some sm) ∧
    sm.t = k.port
  destroyed : ∀ k ∈ w.granted, w.trace.countP (SerialEvent.frees k.port) =
    if ∃ k' ∈ w.handles, k'.port = k.port then 0 else 1

namespace Counted

/-- The object of a handle, with the settings asked for. -/
theorem object (inv : Counted w) {k : Handle} (out : k ∈ w.handles) :
    ∃ ctx, w.mem k.port = .live ctx ∧ ctx.info.Serves B.devname k.asked := by
  obtain ⟨info, h⟩ := inv.valid.live k.port (inv.valid.listed k out)
  obtain ⟨ctx, live, rfl⟩ := SerialWorld.live_of_registry h
  exact ⟨ctx, live, (inv.valid.serves k (inv.valid.within.subset out) _ h).2⟩

/-- The handles to a device are those to the port of its entry. -/
theorem port_iff (inv : Counted w) {sm : Manger} (hsm : sm ∈ w.mangers) {ctx : Serial B.Dev}
    (live : w.mem sm.t = .live ctx) {k : Handle} (out : k ∈ w.handles) :
    B.devname k.asked.index = ctx.backendData.device ↔ k.port = sm.t := by
  obtain ⟨ctx', live', serves⟩ := inv.object out
  constructor
  · intro same
    exact (inv.entry_eq hsm live (inv.valid.listed k out) live'
      (same.symm.trans serves.device.symm)).symm
  · intro same
    rw [same, live] at live'
    cases live'
    exact serves.device.symm

/-- The invariant gives the contract. -/
theorem sharesPorts (inv : Counted w) : SharesPorts w := by
  constructor
  case nodup => exact inv.valid.nodup.of_map _
  case live =>
    intro sm hsm
    obtain ⟨info, h⟩ := inv.valid.live sm.t (List.mem_map_of_mem hsm)
    obtain ⟨ctx, live, -⟩ := SerialWorld.live_of_registry h
    exact ⟨ctx, live⟩
  case oneEntry =>
    intro sm hsm sm' hsm' ctx ctx' live live' same
    exact inv.entry_unique hsm hsm'
      (inv.entry_eq hsm live (List.mem_map_of_mem hsm') live' same)
  case refcount =>
    intro sm hsm ctx live
    have count := inv.refcount sm hsm
    have device : w.handles.countP (fun k => B.devname k.asked.index = ctx.backendData.device) =
        handleCount sm.t w.handles :=
      List.countP_congr fun k hk => by simpa using inv.port_iff hsm live hk
    have some := inv.valid.held sm.t (List.mem_map_of_mem hsm)
    change handleCount sm.t w.handles ≠ 0 at some
    rw [device, count]
    exact ⟨rfl, by omega⟩
  case same =>
    intro sm hsm ctx live k hk device
    have port := (inv.port_iff hsm live hk).mp device
    obtain ⟨ctx', live', serves⟩ := inv.object hk
    rw [port, live] at live'
    cases live'
    exact ⟨port, serves⟩
  case sharing =>
    intro sm hsm many k hk port
    rw [inv.refcount sm hsm] at many
    obtain ⟨info, h⟩ := inv.valid.live sm.t (List.mem_map_of_mem hsm)
    -- an exclusive port was granted once only
    have shares : info.shareMode ≠ 0 := by
      intro exclusive
      have once := inv.valid.exclusive sm.t info h exclusive
      have le := inv.valid.handleCount_le sm.t
      change handleCount sm.t w.handles ≤ _ at le
      omega
    rw [← port] at h
    exact inv.valid.shared k hk info h shares
  case found =>
    intro k hk
    obtain ⟨ctx, live, serves⟩ := inv.object hk
    obtain ⟨sm, -, ht, found⟩ := inv.found hk live
    have device : ctx.backendData.device = B.devname k.asked.index := serves.device
    rw [device] at found
    exact ⟨sm, found, ht⟩
  case destroyed =>
    intro k hk
    have freed := inv.valid.freedOnce k.port
    change w.trace.countP (SerialEvent.frees k.port) = _ at freed
    rw [freed]
    cases hl : w.registry.life k.port with
    | unused => exact absurd hl (inv.valid.known k hk)
    | live info =>
        have listed := (inv.valid.serves k hk info hl).1
        have held := inv.valid.held k.port listed
        obtain ⟨k', hk', port⟩ := List.countP_pos_iff.mp (Nat.pos_of_ne_zero held)
        exact (if_pos ⟨k', hk', of_decide_eq_true port⟩).symm
    | freed =>
        refine (if_neg ?_).symm
        rintro ⟨k', hk', port⟩
        obtain ⟨info, live⟩ := inv.valid.live k'.port (inv.valid.listed k' hk')
        rw [port, hl] at live
        cases live

end Counted

/-- A `serial_new` that returns `NULL` leaves the list, the counts and the handles. -/
theorem serialNew_null {holder : ℕ} {asked : Request} {answer : NewAnswer B}
    (h : serialNewRecord holder asked answer w = .ok (none, w')) :
    w'.mangers = w.mangers ∧ w'.handles = w.handles := by
  generalize hr : (none : Option Pid) = r at h
  cases serialNewRecord_step h with
  | refused => exact ⟨rfl, rfl⟩
  | shared => cases hr
  | rejected =>
      have handles := congrArg Registry.handles (SerialWorld.registry_logDev w answer.ptr
        (B.destory answer.close (badPort asked answer.garbage)))
      exact ⟨rfl, handles⟩
  | created => cases hr

/-- **The sharing contract.** However the manager is called by holders of handles, and on whichever
platform, it shares ports as it should, and a refused `serial_new` changes nothing. -/
theorem serial_sharing (h : (serialPorts B).Reach HoldsHandles w) :
    SharesPorts w ∧
      ∀ holder asked answer w', serialNewRecord holder asked answer w = .ok (none, w') →
        w'.mangers = w.mangers ∧ w'.handles = w.handles :=
  ⟨(Counted.reached h).sharesPorts, fun _ _ _ _ run => serialNew_null run⟩

/-- Two holders share a port, and it is freed once when both have given it back. -/
theorem serial_sharing_two :
    ∃ w w' : SerialWorld linuxSerialBackend, SharesPorts w ∧ w.mangers = [⟨0, 2, 0⟩] ∧
      SharesPorts w' ∧ w'.mangers = [] ∧ w'.handles = [] ∧
      w'.trace.countP (SerialEvent.frees 0) = 1 := by
  let blank : Serial UnixDev := ⟨false, false, 0, 0, ⟨"", 0, 0, 0, 0, ⟨{}, 0⟩⟩⟩
  let asked : Request := ⟨1, 9600, 'N'.toUInt8, 8, 1, 1⟩
  let share : List (SerialCall linuxSerialBackend) :=
    [.new 0 asked ⟨0, blank, ⟨true, 0⟩⟩, .new 1 asked ⟨1, blank, ⟨true, 0⟩⟩]
  let giveBack : List (SerialCall linuxSerialBackend) :=
    [.destory ⟨0, 0, asked⟩ ⟨true, 0⟩, .destory ⟨1, 0, asked⟩ ⟨true, 0⟩]
  obtain ⟨w, reached, two⟩ := @Machine.Reach.of_leadsTo _ _ _ (serialPorts linuxSerialBackend)
    HoldsHandles _ (fun w => w.mangers = [⟨0, 2, 0⟩]) share _ .init (by decide +kernel)
  obtain ⟨w', reached', none⟩ := @Machine.Reach.of_leadsTo _ _ _ (serialPorts linuxSerialBackend)
    HoldsHandles _ (fun w => w.mangers = [] ∧ w.handles = [] ∧
      w.trace.countP (SerialEvent.frees 0) = 1) (share ++ giveBack) _ .init (by decide +kernel)
  exact ⟨w, w', (serial_sharing reached).1, of_decide_eq_true two, (serial_sharing reached').1,
    of_decide_eq_true none⟩

end LibZio
