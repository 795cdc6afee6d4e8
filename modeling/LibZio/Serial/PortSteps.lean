import LibZio.Serial.Sharing

/-! # What a call makes of one port

Whatever its callers do, the manager keeps one entry for each port object it has made and not freed,
and no two for one device. A call is about one of these pairs at most: it takes a turn with it
(`Turn`), makes a new one, or takes one away. Properties of the pairs are then kept if each turn
keeps them (`Paired.keeps`). -/

namespace LibZio

variable {B : Backend} {w w' : SerialWorld B} {c : SerialCall B} {Q : Manger → Serial B.Dev → Prop}

/-- The entries and the port objects go in pairs, with different devices, and `Q` holds of each
pair. -/
structure Paired (Q : Manger → Serial B.Dev → Prop) (w : SerialWorld B) : Prop where
  nodup : (w.mangers.map (·.t)).Nodup
  live : ∀ m ∈ w.mangers, ∃ ctx, w.mem m.t = .live ctx ∧ Q m ctx
  entry : ∀ p ctx, w.mem p = .live ctx → ∃ m ∈ w.mangers, m.t = p
  devices : ∀ m ∈ w.mangers, ∀ m' ∈ w.mangers, ∀ ctx ctx', w.mem m.t = .live ctx →
    w.mem m'.t = .live ctx' → ctx.backendData.device = ctx'.backendData.device → m.t = m'.t

namespace Paired

/-- At the start. -/
theorem initial : Paired Q ({} : SerialWorld B) where
  nodup := List.nodup_nil
  live _ h := nomatch h
  entry _ _ h := nomatch h
  devices _ h := nomatch h

/-- The property of a pair. -/
theorem pair (inv : Paired Q w) {m : Manger} {ctx : Serial B.Dev} (hm : m ∈ w.mangers)
    (live : w.mem m.t = .live ctx) : Q m ctx := by
  obtain ⟨ctx', live', h⟩ := inv.live m hm
  rw [live] at live'
  cases live'
  exact h

/-- Entries of one port are the same entry. -/
theorem unique (inv : Paired Q w) {m m' : Manger} (h : m ∈ w.mangers) (h' : m' ∈ w.mangers)
    (same : m.t = m'.t) : m = m' :=
  List.inj_on_of_nodup_map inv.nodup h h' same

/-- A live object finds its entry. -/
theorem found (inv : Paired Q w) {p : Pid} {ctx : Serial B.Dev} (live : w.mem p = .live ctx) :
    ∃ sm ∈ w.mangers, sm.t = p ∧ w.findSerial ctx.backendData.device = .ok (some sm) := by
  obtain ⟨sm, hsm, rfl⟩ := inv.entry p ctx live
  refine ⟨sm, hsm, rfl, findIn_eq ?_ hsm ?_ live rfl⟩
  · intro m hm
    obtain ⟨ctx', live', -⟩ := inv.live m hm
    exact ⟨ctx', live'⟩
  · exact fun m hm ctx' live' same =>
      inv.unique hm hsm (inv.devices m hm sm hsm ctx' ctx live' live same)

/-- The entry that a live object finds is its own. -/
theorem found_eq (inv : Paired Q w) {p : Pid} {ctx : Serial B.Dev} (live : w.mem p = .live ctx)
    {sm : Manger} (h : w.findSerial ctx.backendData.device = .ok (some sm)) :
    sm ∈ w.mangers ∧ sm.t = p := by
  obtain ⟨sm', hsm', ht, h'⟩ := inv.found live
  rw [h] at h'
  cases h'
  exact ⟨hsm', ht⟩

/-- A live object always finds an entry. -/
theorem not_orphan (inv : Paired Q w) {p : Pid} {ctx : Serial B.Dev} (live : w.mem p = .live ctx) :
    w.findSerial ctx.backendData.device ≠ .ok none := by
  intro h
  obtain ⟨sm, -, -, h'⟩ := inv.found live
  rw [h] at h'
  cases h'

/-- An unused object has no entry. -/
theorem ne_of_unused (inv : Paired Q w) {p : Pid} (unused : w.mem p = .unused) {m : Manger}
    (hm : m ∈ w.mangers) : m.t ≠ p := by
  rintro rfl
  obtain ⟨ctx, live, -⟩ := inv.live m hm
  rw [unused] at live
  cases live

end Paired

/-! ## Turns -/

/-- What a call makes of the entry and the object of a port, and what it records, newest first. The
descriptors `fds` are open before it. -/
inductive Turn (fds : List ℤ) (sm : Manger) (ctx : Serial B.Dev) :
    SerialCall B → List (SerialEvent B) → Manger → Serial B.Dev → Prop
  /-- `serial_new` shares the port. -/
  | shared {holder : ℕ} {asked : Request} {answer : NewAnswer B} :
      Turn fds sm ctx (.new holder asked answer) [.acquired ⟨holder, sm.t, asked⟩]
        { sm with refcount := sm.refcount + 1 } ctx
  /-- `serial_open` counts a port that is open. -/
  | again {k : Handle} {answer : B.OpenAnswer} (port : k.port = sm.t) (inUse : 0 < sm.opencount) :
      Turn fds sm ctx (.openPort k answer) [.opened k ctx.backendData.dev]
        { sm with opencount := sm.opencount + 1 } { ctx with isOpen := true }
  /-- The backend does not open the port. -/
  | failed {k : Handle} {answer : B.OpenAnswer} {rc : ℤ} {ctx' : Serial B.Dev}
      {es : List (DevEvent B.Settings)} (port : k.port = sm.t) (unopened : ¬0 < sm.opencount)
      (backend : B.openDev answer fds ctx = .ok (rc, ctx', es)) (failed : rc ≠ 0) :
      Turn fds sm ctx (.openPort k answer) (es.map (.device k.port)) sm ctx'
  /-- The backend opens the port. -/
  | opened {k : Handle} {answer : B.OpenAnswer} {ctx' : Serial B.Dev}
      {es : List (DevEvent B.Settings)} (port : k.port = sm.t) (unopened : ¬0 < sm.opencount)
      (backend : B.openDev answer fds ctx = .ok (0, ctx', es)) :
      Turn fds sm ctx (.openPort k answer)
        (.opened k ctx'.backendData.dev :: es.map (.device k.port))
        { sm with opencount := sm.opencount + 1 } { ctx' with isOpen := true }
  /-- `serial_close` leaves the port to its other users. -/
  | stays {k : Handle} {answer : B.CloseAnswer} (port : k.port = sm.t)
      (inUse : sm.countClose.opencount ≠ 0) :
      Turn fds sm ctx (.closePort k answer) [.closed k] sm.countClose ctx
  /-- `serial_close` asks the backend. -/
  | asks {k : Handle} {answer : B.CloseAnswer} (port : k.port = sm.t)
      (unused : sm.countClose.opencount = 0) :
      Turn fds sm ctx (.closePort k answer)
        ((B.closeDev answer ctx).2.2.map (.device k.port) ++ [.closing k.port, .closed k])
        sm.countClose (B.closeDev answer ctx).2.1
  /-- `serial_destory` leaves the port to the other handles. -/
  | kept {k : Handle} {answer : B.CloseAnswer} (port : k.port = sm.t)
      (more : sm.countRelease.refcount ≠ 0) :
      Turn fds sm ctx (.destory k answer) [.released k] sm.countRelease ctx

/-- A turn is about one port. -/
theorem Turn.t_eq {fds : List ℤ} {sm sm' : Manger} {ctx ctx' : Serial B.Dev}
    {es : List (SerialEvent B)} (h : Turn fds sm ctx c es sm' ctx') : sm'.t = sm.t := by
  cases h <;> simp

/-- A turn leaves alone what `serial_new` settled. -/
theorem Turn.info_eq {fds : List ℤ} {sm sm' : Manger} {ctx ctx' : Serial B.Dev}
    {es : List (SerialEvent B)} (h : Turn fds sm ctx c es sm' ctx') : ctx'.info = ctx.info := by
  cases h with
  | failed port unopened backend failed => exact B.openDev_info backend
  | opened port unopened backend =>
      have hinfo := B.openDev_info backend
      exact hinfo
  | asks port unused => exact B.closeDev_info _ _
  | _ => rfl

/-- What a call does to the manager. -/
inductive PortStep (w : SerialWorld B) : SerialCall B → SerialWorld B → Prop
  /-- `serial_new` refuses to share. -/
  | refused {holder : ℕ} {asked : Request} {answer : NewAnswer B} : PortStep w
      (.new holder asked answer) w
  /-- `serial_new` gives up an object it has not finished. -/
  | rejected {holder : ℕ} {asked : Request} {answer : NewAnswer B}
      (none : w.findSerial (B.devname asked.index) = .ok none) (unused : w.mem answer.ptr = .unused)
      (parity : parityKnown asked.parity = false) :
      PortStep w (.new holder asked answer)
        ((w.logDev answer.ptr (B.destory answer.close (badPort asked answer.garbage))).free
          answer.ptr)
  /-- `serial_new` makes a port. -/
  | created {holder : ℕ} {asked : Request} {answer : NewAnswer B}
      (none : w.findSerial (B.devname asked.index) = .ok none)
      (unused : w.mem answer.ptr = .unused) : PortStep w (.new holder asked answer)
        ((addSerial answer.ptr (w.put answer.ptr (newPort asked answer.garbage))).log
          (.acquired ⟨holder, answer.ptr, asked⟩))
  /-- The call takes a turn with a port. -/
  | turn {c : SerialCall B} {sm sm' : Manger} {ctx ctx' : Serial B.Dev} {es : List (SerialEvent B)}
      {w' : SerialWorld B} (listed : sm ∈ w.mangers) (live : w.mem sm.t = .live ctx)
      (turn : Turn w.openFds sm ctx c es sm' ctx')
      (mangers : w'.mangers = (w.putManger sm').mangers)
      (mem : w'.mem = Function.update w.mem sm.t (.live ctx')) (trace : w'.trace = es ++ w.trace) :
      PortStep w c w'
  /-- `serial_destory` takes a port away. -/
  | removed {k : Handle} {answer : B.CloseAnswer} {sm : Manger} {ctx : Serial B.Dev}
      {w' : SerialWorld B} (listed : sm ∈ w.mangers) (port : k.port = sm.t)
      (live : w.mem sm.t = .live ctx) (none : sm.countRelease.refcount = 0)
      (mangers : w'.mangers = w.mangers.filter fun m => m.t ≠ sm.t)
      (mem : w'.mem = Function.update w.mem sm.t .freed)
      (trace : w'.trace =
        .freed k.port :: ((B.destory answer ctx).map (.device k.port) ++ .released k :: w.trace)) :
      PortStep w (.destory k answer) w'

/-- Writing an entry does not matter to the others. -/
theorem filter_putManger (w : SerialWorld B) (sm : Manger) :
    (w.putManger sm).mangers.filter (fun m => m.t ≠ sm.t) = w.mangers.filter fun m =>
      m.t ≠ sm.t := by
  rw [SerialWorld.putManger, List.filter_map]
  have same : ∀ m ∈ w.mangers.filter ((fun m => decide (m.t ≠ sm.t)) ∘
      fun m => if m.t = sm.t then sm else m), (if m.t = sm.t then sm else m) = m := by
    intro m hm
    have hne := (List.mem_filter.mp hm).2
    by_cases h : m.t = sm.t
    · simp [h] at hne
    · exact if_neg h
  rw [List.map_congr_left same, List.map_id']
  refine List.filter_congr fun m _ => ?_
  by_cases h : m.t = sm.t <;> simp [h]

/-- Looking for a device is looking at the objects of the entries. -/
theorem device_ne_of_absent {device : String} (none : w.findSerial device = .ok none) {m : Manger}
    (hm : m ∈ w.mangers) {ctx : Serial B.Dev} (live : w.mem m.t = .live ctx) :
    ctx.backendData.device ≠ device := by
  obtain ⟨ctx', live', hne⟩ := findIn_none none hm
  rw [live] at live'
  cases live'
  exact hne

namespace Paired

/-- **Every call is a step about one port.** -/
theorem portStep (inv : Paired Q w) (h : c.run w = .ok w') : PortStep w c w' := by
  cases c with
  | new holder asked answer =>
      obtain ⟨⟨r, w''⟩, hnew, rfl⟩ := map_eq_ok.mp h
      cases serialNewRecord_step hnew with
      | refused found => exact .refused
      | shared found live sharing shares baud parity dataBit stopBit room =>
          exact .turn (findIn_some found).1 live .shared rfl (SerialWorld.mem_eq_update live) rfl
      | rejected none unused parity => exact .rejected none unused parity
      | created none unused parity => exact .created none unused
  | openPort k answer =>
      obtain ⟨⟨rc, w''⟩, hopen, rfl⟩ := map_eq_ok.mp h
      cases serialOpenRecord_step hopen with
      | orphan live none => exact absurd none (inv.not_orphan live)
      | again live found inUse room =>
          obtain ⟨listed, ht⟩ := inv.found_eq live found
          rw [← ht] at live
          exact .turn listed live (.again ht.symm inUse) rfl (by rw [ht]; rfl) rfl
      | failed live found unopened backend failed =>
          obtain ⟨listed, ht⟩ := inv.found_eq live found
          rw [← ht] at live
          exact .turn listed live (.failed ht.symm unopened backend failed)
            (SerialWorld.putManger_self inv.nodup listed).symm
            (by rw [ht]; rfl) rfl
      | opened live found unopened backend =>
          obtain ⟨listed, ht⟩ := inv.found_eq live found
          rw [← ht] at live
          refine .turn listed live (.opened ht.symm unopened backend) rfl ?_ rfl
          rw [ht]
          exact Function.update_idem ..
  | closePort k answer =>
      obtain ⟨⟨rc, w''⟩, hclose, rfl⟩ := map_eq_ok.mp h
      cases serialCloseRecord_step hclose with
      | orphan live none => exact absurd none (inv.not_orphan live)
      | kept live found inUse =>
          obtain ⟨listed, ht⟩ := inv.found_eq live found
          rw [← ht] at live
          exact .turn listed live (.stays ht.symm inUse) rfl (SerialWorld.mem_eq_update live) rfl
      | backend live found unused =>
          obtain ⟨listed, ht⟩ := inv.found_eq live found
          rw [← ht] at live
          refine .turn listed live (.asks ht.symm unused) rfl (by rw [ht]; rfl) ?_
          rw [List.append_assoc]
          rfl
  | destory k answer =>
      cases serialDestoryRecord_step h with
      | orphan live none => exact absurd none (inv.not_orphan live)
      | kept live found more =>
          obtain ⟨listed, ht⟩ := inv.found_eq live found
          rw [← ht] at live
          exact .turn listed live (.kept ht.symm more) rfl (SerialWorld.mem_eq_update live) rfl
      | @last ctx sm live found none =>
          obtain ⟨listed, ht⟩ := inv.found_eq live found
          rw [← ht] at live
          refine .removed listed ht.symm live none ?_ (by rw [ht]; rfl) rfl
          have hfilter := filter_putManger (w.log (.released k)) sm.countRelease
          exact hfilter.trans (List.filter_congr fun m _ => by rw [Manger.countRelease_t])

/-- An object without an entry is freed. -/
theorem unlisted (inv : Paired Q w) {p : Pid} (unused : w.mem p = .unused)
    (mangers : w'.mangers = w.mangers) (mem : w'.mem = Function.update w.mem p .freed) :
    Paired Q w' := by
  have old : ∀ m ∈ w.mangers, w'.mem m.t = w.mem m.t := fun m hm => by
    rw [mem, Function.update_of_ne (inv.ne_of_unused unused hm)]
  refine ⟨by rw [mangers]; exact inv.nodup, fun m hm => ?_, fun q ctx live => ?_,
    fun m hm m' hm' ctx ctx' live live' => ?_⟩
  · rw [mangers] at hm
    rw [old m hm]
    exact inv.live m hm
  · have hq : q ≠ p := by
      rintro rfl
      rw [mem, Function.update_self] at live
      cases live
    rw [mem, Function.update_of_ne hq] at live
    rw [mangers]
    exact inv.entry q ctx live
  · rw [mangers] at hm hm'
    exact inv.devices m hm m' hm' ctx ctx' ((old m hm).symm.trans live)
      ((old m' hm').symm.trans live')

/-- A port for a new device gets its entry. -/
theorem created (inv : Paired Q w) {p : Pid} {ctx₀ : Serial B.Dev}
    (none : w.findSerial ctx₀.backendData.device = .ok none) (unused : w.mem p = .unused)
    (mangers : w'.mangers = ⟨p, 1, 0⟩ :: w.mangers)
    (mem : w'.mem = Function.update w.mem p (.live ctx₀))
    (hQ : Q ⟨p, 1, 0⟩ ctx₀) : Paired Q w' := by
  have old : ∀ m ∈ w.mangers, w'.mem m.t = w.mem m.t := fun m hm => by
    rw [mem, Function.update_of_ne (inv.ne_of_unused unused hm)]
  have new : w'.mem p = .live ctx₀ := by rw [mem, Function.update_self]
  refine ⟨?_, fun m hm => ?_, fun q ctx live => ?_, fun m hm m' hm' ctx ctx' live live' same => ?_⟩
  · rw [mangers]
    refine List.nodup_cons.mpr ⟨fun hmem => ?_, inv.nodup⟩
    obtain ⟨m, hm, ht⟩ := List.mem_map.mp hmem
    exact inv.ne_of_unused unused hm ht
  · rw [mangers] at hm
    rcases List.mem_cons.mp hm with rfl | hm
    · exact ⟨_, new, hQ⟩
    · obtain ⟨ctx, live, hQ⟩ := inv.live m hm
      exact ⟨ctx, (old m hm).trans live, hQ⟩
  · rw [mangers]
    by_cases hq : q = p
    · exact ⟨_, List.mem_cons_self, hq.symm⟩
    · rw [mem, Function.update_of_ne hq] at live
      obtain ⟨m, hm, ht⟩ := inv.entry q ctx live
      exact ⟨m, List.mem_cons_of_mem _ hm, ht⟩
  · rw [mangers] at hm hm'
    rcases List.mem_cons.mp hm with rfl | hm <;> rcases List.mem_cons.mp hm' with rfl | hm'
    · rfl
    · cases new.symm.trans live
      exact absurd same.symm (device_ne_of_absent none hm' ((old m' hm').symm.trans live'))
    · cases new.symm.trans live'
      exact absurd same (device_ne_of_absent none hm ((old m hm).symm.trans live))
    · exact inv.devices m hm m' hm' ctx ctx' ((old m hm).symm.trans live)
        ((old m' hm').symm.trans live') same

/-- A pair is rewritten, and stays a pair for its device. -/
theorem rewritten (inv : Paired Q w) {sm sm' : Manger} {ctx ctx' : Serial B.Dev}
    (listed : sm ∈ w.mangers) (live : w.mem sm.t = .live ctx) (ht : sm'.t = sm.t)
    (device : ctx'.backendData.device = ctx.backendData.device)
    (mangers : w'.mangers = (w.putManger sm').mangers)
    (mem : w'.mem = Function.update w.mem sm.t (.live ctx')) (hQ : Q sm' ctx') : Paired Q w' := by
  have hself : w'.mem sm.t = .live ctx' := by rw [mem, Function.update_self]
  have hother : ∀ {p}, p ≠ sm.t → w'.mem p = w.mem p := fun hp => by
    rw [mem, Function.update_of_ne hp]
  -- an entry is that of an entry before, with an object for the same device
  have back : ∀ m ∈ w'.mangers, ∀ d, w'.mem m.t = .live d → ∃ m₀ ∈ w.mangers, ∃ d₀,
      m₀.t = m.t ∧ w.mem m₀.t = .live d₀ ∧ d₀.backendData.device = d.backendData.device := by
    intro m hm d hd
    rw [mangers] at hm
    obtain rfl | ⟨hm, hne⟩ := SerialWorld.mem_putManger hm
    · rw [ht, hself] at hd
      cases hd
      exact ⟨sm, listed, ctx, ht.symm, live, device.symm⟩
    · rw [hother (ht ▸ hne)] at hd
      exact ⟨m, hm, d, rfl, hd, rfl⟩
  refine ⟨?_, fun m hm => ?_, fun p d hd => ?_, fun m hm m' hm' d d' hd hd' same => ?_⟩
  · rw [mangers, SerialWorld.putManger_map_t]
    exact inv.nodup
  · rw [mangers] at hm
    obtain rfl | ⟨hm, hne⟩ := SerialWorld.mem_putManger hm
    · rw [ht]
      exact ⟨ctx', hself, hQ⟩
    · rw [hother (ht ▸ hne)]
      exact inv.live m hm
  · have hport : ∃ m ∈ w.mangers, m.t = p := by
      by_cases hp : p = sm.t
      · exact ⟨sm, listed, hp.symm⟩
      · rw [hother hp] at hd
        exact inv.entry p d hd
    have hmem : p ∈ w'.mangers.map (·.t) := by
      rw [mangers, SerialWorld.putManger_map_t]
      exact List.mem_map.mpr hport
    exact List.mem_map.mp hmem
  · obtain ⟨m₀, hm₀, d₀, hmt, hd₀, hdev⟩ := back m hm d hd
    obtain ⟨m₁, hm₁, d₁, hmt', hd₁, hdev'⟩ := back m' hm' d' hd'
    rw [← hmt, ← hmt']
    exact inv.devices m₀ hm₀ m₁ hm₁ d₀ d₁ hd₀ hd₁ (hdev.trans (same.trans hdev'.symm))

/-- A pair is taken away. -/
theorem removed (inv : Paired Q w) {p : Pid}
    (mangers : w'.mangers = w.mangers.filter fun m => m.t ≠ p)
    (mem : w'.mem = Function.update w.mem p .freed) : Paired Q w' := by
  have hin : ∀ {m}, m ∈ w'.mangers → m ∈ w.mangers ∧ m.t ≠ p := by
    intro m hm
    rw [mangers, List.mem_filter] at hm
    exact ⟨hm.1, of_decide_eq_true hm.2⟩
  have hother : ∀ {q}, q ≠ p → w'.mem q = w.mem q := fun hq => by
    rw [mem, Function.update_of_ne hq]
  refine ⟨?_, fun m hm => ?_, fun q d hd => ?_, fun m hm m' hm' d d' hd hd' => ?_⟩
  · rw [mangers]
    exact inv.nodup.sublist (List.filter_sublist.map _)
  · rw [hother (hin hm).2]
    exact inv.live m (hin hm).1
  · have hq : q ≠ p := by
      rintro rfl
      rw [mem, Function.update_self] at hd
      cases hd
    rw [hother hq] at hd
    obtain ⟨m, hm, rfl⟩ := inv.entry q d hd
    exact ⟨m, by rw [mangers]; exact List.mem_filter.mpr ⟨hm, decide_eq_true hq⟩, rfl⟩
  · rw [hother (hin hm).2] at hd
    rw [hother (hin hm').2] at hd'
    exact inv.devices m (hin hm).1 m' (hin hm').1 d d' hd hd'

/-- **Properties of the pairs.** A step keeps the pairs, with a property that each turn keeps and a
new pair has. -/
theorem keeps (inv : Paired Q w) (h : PortStep w c w')
    (turns : ∀ sm ctx es sm' ctx', sm ∈ w.mangers → w.mem sm.t = .live ctx → Q sm ctx →
      Turn w.openFds sm ctx c es sm' ctx' → Q sm' ctx')
    (news : ∀ asked garbage p, Q ⟨p, 1, 0⟩ (newPort asked garbage)) : Paired Q w' := by
  cases h with
  | refused => exact inv
  | rejected none unused parity => exact inv.unlisted unused rfl rfl
  | created none unused => exact inv.created none unused rfl rfl (news _ _ _)
  | @turn _ sm sm' ctx ctx' es _ listed live turn mangers mem trace =>
      exact inv.rewritten listed live turn.t_eq (congrArg PortInfo.device turn.info_eq) mangers mem
        (turns sm ctx es sm' ctx' listed live (inv.pair listed live) turn)
  | removed listed port live none mangers mem trace => exact inv.removed mangers mem

/-- The pairs without their property. -/
theorem plain (inv : Paired Q w) : Paired (fun _ _ => True) w where
  nodup := inv.nodup
  live m hm := by
    obtain ⟨ctx, live, -⟩ := inv.live m hm
    exact ⟨ctx, live, trivial⟩
  entry := inv.entry
  devices := inv.devices

/-- Every call keeps the pairs. -/
theorem plain_step (inv : Paired Q w) (h : c.run w = .ok w') : Paired (fun _ _ => True) w' :=
  inv.plain.keeps (inv.portStep h) (fun _ _ _ _ _ _ _ _ _ => trivial) fun _ _ _ => trivial

end Paired

end LibZio
