import LibZio.Serial.Basic

/-! # A registry of shared ports

What the manager is for, without its list, counts and memory: a registry of the ports in use and of
the handles that are out. A port is created for its first handle and freed with its last one, and it
is handed out again only for the same settings and where both sides share. The reference count of
the code appears here as the number of handles. -/

namespace LibZio

/-- A port identifier's life. -/
inductive Life
  | unused
  | live (info : PortInfo)
  | freed

/-- The ports in use and the handles to them. -/
structure Registry where
  ports : List Pid
  life : Pid → Life
  handles : List Handle
  /-- All handles there ever were. -/
  granted : List Handle
  /-- How often a port was freed. -/
  freed : Pid → ℕ

/-- The number of handles in `ks` to the port `p`. -/
def handleCount (p : Pid) (ks : List Handle) : ℕ := ks.countP fun k => k.port = p

/-- What the port of a request looks like. -/
def Request.info (devname : UInt8 → String) (asked : Request) : PortInfo where
  device := devname asked.index
  baud := asked.baud
  parity := asked.parity
  dataBit := asked.dataBit
  stopBit := asked.stopBit
  shareMode := asked.shareMode.toNat

/-- The port has the device and the line settings of the request. -/
structure PortInfo.Serves (info : PortInfo) (devname : UInt8 → String) (asked : Request) :
    Prop where
  device : info.device = devname asked.index
  baud : info.baud = asked.baud
  parity : info.parity = asked.parity
  dataBit : info.dataBit = asked.dataBit
  stopBit : info.stopBit = asked.stopBit

/-- A port serves the request it was created for. -/
theorem Request.info_serves (devname : UInt8 → String) (asked : Request) :
    (asked.info devname).Serves devname asked := ⟨rfl, rfl, rfl, rfl, rfl⟩

namespace Registry

variable {devname : UInt8 → String} {r r' : Registry}

/-- What can happen to a registry. -/
inductive Step (devname : UInt8 → String) : Registry → Registry → Prop
  /-- Nothing. -/
  | stay (r : Registry) : Step devname r r
  /-- A port object is allocated and freed at once. -/
  | reject (r : Registry) (p : Pid) (unused : r.life p = .unused) :
      Step devname r { r with
        life := Function.update r.life p .freed
        freed := Function.update r.freed p (r.freed p + 1) }
  /-- A port is created for a device that has none. -/
  | create (r : Registry) (k : Handle) (unused : r.life k.port = .unused)
      (new : ∀ p ∈ r.ports, ∀ info, r.life p = .live info → info.device ≠ devname k.asked.index) :
      Step devname r { r with
        ports := k.port :: r.ports
        life := Function.update r.life k.port (.live (k.asked.info devname))
        handles := k :: r.handles
        granted := k :: r.granted }
  /-- A port is shared. -/
  | share (r : Registry) (k : Handle) (info : PortInfo) (listed : k.port ∈ r.ports)
      (live : r.life k.port = .live info) (serves : info.Serves devname k.asked)
      (shared : info.shareMode ≠ 0) (sharing : k.asked.shareMode ≠ 0) :
      Step devname r { r with handles := k :: r.handles, granted := k :: r.granted }
  /-- A handle is released, and another one to its port is out. -/
  | release (r : Registry) (k : Handle) (out : k ∈ r.handles)
      (more : handleCount k.port (r.handles.erase k) ≠ 0) :
      Step devname r { r with handles := r.handles.erase k }
  /-- The last handle to a port is released. -/
  | last (r : Registry) (k : Handle) (out : k ∈ r.handles)
      (none : handleCount k.port (r.handles.erase k) = 0) :
      Step devname r { r with
        ports := r.ports.filter fun p => p ≠ k.port
        life := Function.update r.life k.port .freed
        handles := r.handles.erase k
        freed := Function.update r.freed k.port (r.freed k.port + 1) }

/-- What holds of every registry. -/
structure Valid (devname : UInt8 → String) (r : Registry) : Prop where
  nodup : r.ports.Nodup
  live : ∀ p ∈ r.ports, ∃ info, r.life p = .live info
  oneEntry : ∀ p ∈ r.ports, ∀ q ∈ r.ports, ∀ info info', r.life p = .live info →
    r.life q = .live info' → info.device = info'.device → p = q
  listed : ∀ k ∈ r.handles, k.port ∈ r.ports
  held : ∀ p ∈ r.ports, handleCount p r.handles ≠ 0
  known : ∀ k ∈ r.granted, r.life k.port ≠ .unused
  serves : ∀ k ∈ r.granted, ∀ info, r.life k.port = .live info →
    k.port ∈ r.ports ∧ info.Serves devname k.asked
  exclusive : ∀ p info, r.life p = .live info → info.shareMode = 0 →
    handleCount p r.granted ≤ 1
  shared : ∀ k ∈ r.granted, ∀ info, r.life k.port = .live info → info.shareMode ≠ 0 →
    k.asked.shareMode ≠ 0
  within : r.handles.Subperm r.granted
  freedOnce : ∀ p, r.freed p = match r.life p with | .freed => 1 | _ => 0

/-- The registry at the start. -/
def empty : Registry := ⟨[], fun _ => .unused, [], [], fun _ => 0⟩

/-- The empty registry is valid. -/
theorem empty_valid : Valid devname empty := by
  constructor
  all_goals simp [empty]

@[simp] theorem handleCount_cons_self (k : Handle) (ks : List Handle) :
    handleCount k.port (k :: ks) = handleCount k.port ks + 1 := by
  simp [handleCount]

/-- A handle to another port does not count. -/
theorem handleCount_cons_of_ne {p : Pid} {k : Handle} (h : k.port ≠ p) (ks : List Handle) :
    handleCount p (k :: ks) = handleCount p ks := by
  simp [handleCount, h]

/-- Releasing a handle that is out takes one off the count of its port. -/
theorem handleCount_erase_self {k : Handle} {ks : List Handle} (h : k ∈ ks) :
    handleCount k.port (ks.erase k) + 1 = handleCount k.port ks := by
  have perm := (List.perm_cons_erase h).countP_eq fun k' => decide (k'.port = k.port)
  rw [handleCount, handleCount, perm]
  exact (List.countP_cons_of_pos (p := fun k' : Handle => decide (k'.port = k.port))
    (decide_eq_true rfl)).symm

/-- Releasing a handle leaves the counts of the other ports. -/
theorem handleCount_erase_of_ne {p : Pid} {k : Handle} {ks : List Handle} (h : k.port ≠ p) :
    handleCount p (ks.erase k) = handleCount p ks := by
  by_cases hk : k ∈ ks
  · have perm := (List.perm_cons_erase hk).countP_eq fun k' => decide (k'.port = p)
    rw [handleCount, handleCount, perm, List.countP_cons_of_neg (by simpa using h)]
  · rw [List.erase_of_not_mem hk]

/-- Without handles to a port, no handle is to it. -/
theorem port_ne_of_handleCount {p : Pid} {ks : List Handle} (h : handleCount p ks = 0) :
    ∀ k ∈ ks, k.port ≠ p := by
  intro k hk heq
  exact of_decide_eq_false (eq_false_of_ne_true (List.countP_eq_zero.mp h k hk)) heq

/-- What is live after an object is freed is another object, which was live before. -/
theorem live_of_freed {p q : Pid} {info : PortInfo}
    (h : Function.update r.life p Life.freed q = .live info) : q ≠ p ∧ r.life q = .live info := by
  by_cases hq : q = p
  · rw [hq, Function.update_self] at h
    cases h
  · rw [Function.update_of_ne hq] at h
    exact ⟨hq, h⟩

namespace Valid

/-- What was never allocated is no port. -/
theorem ne_of_unused (valid : Valid devname r) {p q : Pid} (unused : r.life p = .unused)
    (hq : q ∈ r.ports) : q ≠ p := by
  rintro rfl
  obtain ⟨info, live⟩ := valid.live q hq
  rw [unused] at live
  cases live

/-- A port with handles was granted at least as often. -/
theorem handleCount_le (valid : Valid devname r) (p : Pid) :
    handleCount p r.handles ≤ handleCount p r.granted :=
  valid.within.countP_le _

/-- A rejected port object keeps the registry valid. -/
theorem reject (valid : Valid devname r) {p : Pid} (unused : r.life p = .unused) :
    Valid devname { r with
      life := Function.update r.life p .freed
      freed := Function.update r.freed p (r.freed p + 1) } := by
  -- the object was not known before, and is not live now
  have other : ∀ {q : Pid} {info : PortInfo}, Function.update r.life p Life.freed q = .live info →
      r.life q = .live info := fun h => (live_of_freed h).2
  have unlisted : ∀ q ∈ r.ports, q ≠ p := fun q hq => valid.ne_of_unused unused hq
  constructor <;> dsimp only
  case nodup => exact valid.nodup
  case live =>
    intro q hq
    obtain ⟨info, live⟩ := valid.live q hq
    exact ⟨info, by rw [Function.update_of_ne (unlisted q hq)]; exact live⟩
  case oneEntry =>
    intro q hq q' hq' info info' h h'
    exact valid.oneEntry q hq q' hq' info info' (other h) (other h')
  case listed => exact valid.listed
  case held => exact valid.held
  case known =>
    intro k hk
    have known := valid.known k hk
    by_cases hq : k.port = p
    · rw [hq, Function.update_self]; nofun
    · rw [Function.update_of_ne hq]; exact known
  case serves =>
    intro k hk info h
    exact valid.serves k hk info (other h)
  case exclusive =>
    intro q info h
    exact valid.exclusive q info (other h)
  case shared =>
    intro k hk info h
    exact valid.shared k hk info (other h)
  case within => exact valid.within
  case freedOnce =>
    intro q
    by_cases hq : q = p
    · subst hq
      rw [Function.update_self, Function.update_self, valid.freedOnce, unused]
    · rw [Function.update_of_ne hq, Function.update_of_ne hq]
      exact valid.freedOnce q

/-- A created port keeps the registry valid. -/
theorem create (valid : Valid devname r) {k : Handle} (unused : r.life k.port = .unused)
    (new : ∀ p ∈ r.ports, ∀ info, r.life p = .live info → info.device ≠ devname k.asked.index) :
    Valid devname { r with
      ports := k.port :: r.ports
      life := Function.update r.life k.port (.live (k.asked.info devname))
      handles := k :: r.handles
      granted := k :: r.granted } := by
  -- the new object was no port, and nothing was granted for it
  have unlisted : ∀ q ∈ r.ports, q ≠ k.port := fun q hq => valid.ne_of_unused unused hq
  have ungranted : ∀ k' ∈ r.granted, k'.port ≠ k.port := by
    intro k' hk' heq
    exact valid.known k' hk' (by rw [heq]; exact unused)
  have none : handleCount k.port r.granted = 0 := by
    refine List.countP_eq_zero.mpr fun k' hk' => ?_
    rw [decide_eq_true_eq]
    exact ungranted k' hk'
  constructor <;> dsimp only
  case nodup => exact List.nodup_cons.mpr ⟨fun h => unlisted _ h rfl, valid.nodup⟩
  case live =>
    intro q hq
    rcases List.mem_cons.mp hq with rfl | hq
    · exact ⟨_, Function.update_self ..⟩
    · obtain ⟨info, live⟩ := valid.live q hq
      exact ⟨info, by rw [Function.update_of_ne (unlisted q hq)]; exact live⟩
  case oneEntry =>
    intro q hq q' hq' info info' h h' same
    rcases List.mem_cons.mp hq with rfl | hq
    · rcases List.mem_cons.mp hq' with rfl | hq'
      · rfl
      · rw [Function.update_self] at h
        rw [Function.update_of_ne (unlisted q' hq')] at h'
        cases h
        exact absurd same.symm (new q' hq' info' h')
    · rw [Function.update_of_ne (unlisted q hq)] at h
      rcases List.mem_cons.mp hq' with rfl | hq'
      · rw [Function.update_self] at h'
        cases h'
        exact absurd same (new q hq info h)
      · rw [Function.update_of_ne (unlisted q' hq')] at h'
        exact valid.oneEntry q hq q' hq' info info' h h' same
  case listed =>
    intro k' hk'
    rcases List.mem_cons.mp hk' with rfl | hk'
    · exact List.mem_cons_self ..
    · exact List.mem_cons_of_mem _ (valid.listed k' hk')
  case held =>
    intro q hq
    rcases List.mem_cons.mp hq with rfl | hq
    · rw [handleCount_cons_self]; exact Nat.succ_ne_zero _
    · rw [handleCount_cons_of_ne (unlisted q hq).symm]
      exact valid.held q hq
  case known =>
    intro k' hk'
    rcases List.mem_cons.mp hk' with rfl | hk'
    · rw [Function.update_self]; nofun
    · rw [Function.update_of_ne (ungranted k' hk')]
      exact valid.known k' hk'
  case serves =>
    intro k' hk' info h
    rcases List.mem_cons.mp hk' with rfl | hk'
    · rw [Function.update_self] at h
      cases h
      exact ⟨List.mem_cons_self .., Request.info_serves devname _⟩
    · rw [Function.update_of_ne (ungranted k' hk')] at h
      obtain ⟨listed, serves⟩ := valid.serves k' hk' info h
      exact ⟨List.mem_cons_of_mem _ listed, serves⟩
  case exclusive =>
    intro q info h exclusive
    by_cases hq : q = k.port
    · subst hq
      rw [handleCount_cons_self, none]
    · rw [Function.update_of_ne hq] at h
      rw [handleCount_cons_of_ne (Ne.symm hq)]
      exact valid.exclusive q info h exclusive
  case shared =>
    intro k' hk' info h shared
    rcases List.mem_cons.mp hk' with rfl | hk'
    · rw [Function.update_self] at h
      cases h
      intro zero
      exact shared (by rw [Request.info, zero]; rfl)
    · rw [Function.update_of_ne (ungranted k' hk')] at h
      exact valid.shared k' hk' info h shared
  case within => exact (List.subperm_cons k).mpr valid.within
  case freedOnce =>
    intro q
    by_cases hq : q = k.port
    · subst hq
      rw [Function.update_self, valid.freedOnce, unused]
    · rw [Function.update_of_ne hq]
      exact valid.freedOnce q

/-- A shared port keeps the registry valid. -/
theorem share (valid : Valid devname r) {k : Handle} {info : PortInfo} (listed : k.port ∈ r.ports)
    (live : r.life k.port = .live info) (serves : info.Serves devname k.asked)
    (shared : info.shareMode ≠ 0) (sharing : k.asked.shareMode ≠ 0) :
    Valid devname { r with handles := k :: r.handles, granted := k :: r.granted } := by
  constructor <;> dsimp only
  case nodup => exact valid.nodup
  case live => exact valid.live
  case oneEntry => exact valid.oneEntry
  case listed =>
    intro k' hk'
    rcases List.mem_cons.mp hk' with rfl | hk'
    · exact listed
    · exact valid.listed k' hk'
  case held =>
    intro q hq none
    have before := valid.held q hq
    by_cases h : k.port = q
    · subst h
      rw [handleCount_cons_self] at none
      exact Nat.succ_ne_zero _ none
    · rw [handleCount_cons_of_ne h] at none
      exact before none
  case known =>
    intro k' hk'
    rcases List.mem_cons.mp hk' with rfl | hk'
    · rw [live]; nofun
    · exact valid.known k' hk'
  case serves =>
    intro k' hk' info' live'
    rcases List.mem_cons.mp hk' with rfl | hk'
    · rw [live] at live'
      cases live'
      exact ⟨listed, serves⟩
    · exact valid.serves k' hk' info' live'
  case exclusive =>
    intro q info' live' exclusive
    by_cases h : k.port = q
    · subst h
      rw [live] at live'
      cases live'
      exact absurd exclusive shared
    · rw [handleCount_cons_of_ne h]
      exact valid.exclusive q info' live' exclusive
  case shared =>
    intro k' hk' info' live' shared'
    rcases List.mem_cons.mp hk' with rfl | hk'
    · exact sharing
    · exact valid.shared k' hk' info' live' shared'
  case within => exact (List.subperm_cons k).mpr valid.within
  case freedOnce => exact valid.freedOnce

/-- A released handle that is not the last keeps the registry valid. -/
theorem release (valid : Valid devname r) {k : Handle}
    (more : handleCount k.port (r.handles.erase k) ≠ 0) :
    Valid devname { r with handles := r.handles.erase k } := by
  constructor <;> dsimp only
  case nodup => exact valid.nodup
  case live => exact valid.live
  case oneEntry => exact valid.oneEntry
  case listed =>
    intro k' hk'
    exact valid.listed k' (List.mem_of_mem_erase hk')
  case held =>
    intro q hq
    by_cases h : k.port = q
    · rw [← h]; exact more
    · rw [handleCount_erase_of_ne h]; exact valid.held q hq
  case known => exact valid.known
  case serves => exact valid.serves
  case exclusive => exact valid.exclusive
  case shared => exact valid.shared
  case within => exact (List.erase_sublist ..).subperm.trans valid.within
  case freedOnce => exact valid.freedOnce

/-- The release of the last handle keeps the registry valid. -/
theorem last (valid : Valid devname r) {k : Handle} (out : k ∈ r.handles)
    (none : handleCount k.port (r.handles.erase k) = 0) :
    Valid devname { r with
      ports := r.ports.filter fun p => p ≠ k.port
      life := Function.update r.life k.port .freed
      handles := r.handles.erase k
      freed := Function.update r.freed k.port (r.freed k.port + 1) } := by
  have other : ∀ {q : Pid} {info : PortInfo},
      Function.update r.life k.port Life.freed q = .live info →
        q ≠ k.port ∧ r.life q = .live info := live_of_freed
  have stays :
      ∀ {q : Pid}, q ∈ r.ports.filter (fun p => p ≠ k.port) → q ∈ r.ports ∧ q ≠ k.port := by
    intro q hq
    obtain ⟨hq, hne⟩ := List.mem_filter.mp hq
    exact ⟨hq, of_decide_eq_true hne⟩
  obtain ⟨info₀, live₀⟩ := valid.live k.port (valid.listed k out)
  constructor <;> dsimp only
  case nodup => exact valid.nodup.filter _
  case live =>
    intro q hq
    obtain ⟨hq, hne⟩ := stays hq
    obtain ⟨info, live⟩ := valid.live q hq
    exact ⟨info, by rw [Function.update_of_ne hne]; exact live⟩
  case oneEntry =>
    intro q hq q' hq' info info' h h'
    exact valid.oneEntry q (stays hq).1 q' (stays hq').1 info info' (other h).2 (other h').2
  case listed =>
    intro k' hk'
    refine List.mem_filter.mpr ⟨valid.listed k' (List.mem_of_mem_erase hk'), decide_eq_true ?_⟩
    exact port_ne_of_handleCount none k' hk'
  case held =>
    intro q hq
    obtain ⟨hq, hne⟩ := stays hq
    rw [handleCount_erase_of_ne hne.symm]
    exact valid.held q hq
  case known =>
    intro k' hk'
    by_cases hq : k'.port = k.port
    · rw [hq, Function.update_self]; nofun
    · rw [Function.update_of_ne hq]; exact valid.known k' hk'
  case serves =>
    intro k' hk' info h
    obtain ⟨hne, live⟩ := other h
    obtain ⟨listed, serves⟩ := valid.serves k' hk' info live
    exact ⟨List.mem_filter.mpr ⟨listed, decide_eq_true hne⟩, serves⟩
  case exclusive =>
    intro q info h
    exact valid.exclusive q info (other h).2
  case shared =>
    intro k' hk' info h
    exact valid.shared k' hk' info (other h).2
  case within => exact (List.erase_sublist ..).subperm.trans valid.within
  case freedOnce =>
    intro q
    by_cases hq : q = k.port
    · subst hq
      rw [Function.update_self, Function.update_self, valid.freedOnce, live₀]
    · rw [Function.update_of_ne hq, Function.update_of_ne hq]
      exact valid.freedOnce q

/-- **Every step keeps the registry valid.** -/
theorem step (valid : Valid devname r) (h : Step devname r r') : Valid devname r' := by
  cases h with
  | stay => exact valid
  | reject p unused => exact valid.reject unused
  | create k unused new => exact valid.create unused new
  | share k info listed live serves shared sharing =>
      exact valid.share listed live serves shared sharing
  | release k out more => exact valid.release more
  | last k out none => exact valid.last out none

end Valid

end Registry

end LibZio
