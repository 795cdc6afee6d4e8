import LibZio.Serial.OpenCount
import LibZio.Serial.PortSteps

/-! # A close that fails

`serial_close` takes one off the count of the manager and then asks the backend, which may fail. On
Unix it fails where the settings of the line cannot be restored, and then the count is not put back:
it says that the port is closed, while the line is open. In a run this happens exactly where the
last use of a port ends so (`close_atomic_iff`). -/

namespace LibZio

variable {w w' : UnixPorts} {p : Pid}

/-- The count of the opens of a port that has an entry. -/
def SerialWorld.countOf (w : UnixPorts) (p : Pid) : Option ℤ :=
  (w.mangers.find? fun m => m.t = p).map (·.opencount)

/-- The flag and the descriptor of a port object. -/
def SerialWorld.lineOf (w : UnixPorts) (p : Pid) : Option (Bool × ℤ) :=
  match w.mem p with
  | .live ctx => some (ctx.isOpen, ctx.s)
  | _ => none

/-- A close that fails leaves the port as it was, one that brings the count to zero has closed the
line, and a port whose count is zero is closed. -/
def ClosesAtomically (w : UnixPorts) (c : SerialCall linuxSerialBackend) (w' : UnixPorts) : Prop :=
  (∀ k answer rc, c = .closePort k answer → serialCloseRecord k answer w = .ok (rc, w') →
    (rc = -1 → w'.countOf k.port = w.countOf k.port ∧ w'.lineOf k.port = w.lineOf k.port) ∧
    (rc = 0 → w'.countOf k.port = some 0 → w'.lineOf k.port = some (false, -1))) ∧
  ∀ p, w'.countOf p = some 0 → w'.lineOf p = some (false, -1)

/-- Where the last use of a port ends, the settings of its line are restored. -/
def RestoresLine (w : UnixPorts) : SerialCall linuxSerialBackend → Prop
  | .closePort k answer => w.countOf k.port = some 1 → answer.tcsetattr = true
  | _ => True

/-- The count of the manager, the flag and the descriptor agree. -/
structure LineAgrees (m : Manger) (ctx : Serial UnixDev) : Prop where
  count : 0 ≤ m.opencount
  used : 0 < m.opencount → ctx.isOpen = true ∧ ctx.s ≠ -1
  unused : m.opencount = 0 → ctx.isOpen = false ∧ ctx.s = -1

/-- The flag and the descriptor of a live object. -/
theorem lineOf_of_live {ctx : Serial UnixDev} (live : w.mem p = .live ctx) :
    w.lineOf p = some (ctx.isOpen, ctx.s) := by
  rw [SerialWorld.lineOf, live]

/-- A port with a descriptor is in use. -/
theorem LineAgrees.inUse {m : Manger} {ctx : Serial UnixDev} (h : LineAgrees m ctx)
    (hs : ctx.s ≠ -1) : 0 < m.opencount := by
  have := h.count
  by_contra hno
  exact hs (h.unused (by omega)).2

namespace Paired

variable {Q : Manger → Serial UnixDev → Prop}

/-- The count of a port is that of its entry. -/
theorem countOf_eq (inv : Paired Q w) {m : Manger} (hm : m ∈ w.mangers) :
    w.countOf m.t = some m.opencount := by
  rw [SerialWorld.countOf]
  cases hfind : w.mangers.find? fun m' => m'.t = m.t with
  | none =>
      have hnone := List.find?_eq_none.mp hfind m hm
      simp at hnone
  | some m' =>
      have hsome : m'.t = m.t := by simpa using List.find?_some hfind
      rw [inv.unique (List.mem_of_find?_eq_some hfind) hm hsome]
      rfl

/-- A port with a count has an entry and an object. -/
theorem of_countOf (inv : Paired Q w) {n : ℤ} (h : w.countOf p = some n) :
    ∃ m ∈ w.mangers, m.t = p ∧ m.opencount = n ∧ ∃ ctx, w.mem p = .live ctx ∧ Q m ctx := by
  obtain ⟨m, hfind, hn⟩ := Option.map_eq_some_iff.mp h
  have hm := List.mem_of_find?_eq_some hfind
  have ht : m.t = p := by simpa using List.find?_some hfind
  obtain ⟨ctx, live, hQ⟩ := inv.live m hm
  exact ⟨m, hm, ht, hn, ctx, ht ▸ live, hQ⟩

end Paired

/-- Where the count, the flag and the descriptor agree, a count of zero means that the line is
closed. -/
theorem Paired.lineOf_eq (inv : Paired LineAgrees w) (h : w.countOf p = some 0) :
    w.lineOf p = some (false, -1) := by
  obtain ⟨m, -, -, hn, ctx, live, hagrees⟩ := inv.of_countOf h
  obtain ⟨hoff, hs⟩ := hagrees.unused hn
  rw [lineOf_of_live live, hoff, hs]

/-- **A turn** keeps the agreement, if it restores the line. -/
theorem LineAgrees.turn {fds : List ℤ} {sm sm' : Manger} {ctx ctx' : Serial UnixDev}
    {c : SerialCall linuxSerialBackend} {es : List UnixEvent} (h : LineAgrees sm ctx)
    (turn : Turn (B := linuxSerialBackend) fds sm ctx c es sm' ctx')
    (restores : ∀ k answer, c = .closePort k answer → sm.opencount = 1 → answer.tcsetattr = true) :
    LineAgrees sm' ctx' := by
  have hcount := h.count
  cases turn with
  | shared => exact ⟨hcount, h.used, h.unused⟩
  | again port inUse => exact ⟨by simp only; omega, fun _ => ⟨rfl, (h.used inUse).2⟩,
        fun hzero => by simp only at hzero; omega⟩
  | failed port unopened backend failed =>
      obtain ⟨hoff, hs⟩ := h.unused (by omega)
      cases unixSerialOpen_opens backend with
      | already isOpen => exact absurd rfl failed
      | opened off some fresh => exact absurd rfl failed
      | noDevice | noSpeed | noSettings => exact ⟨hcount, (absurd · unopened), fun _ => ⟨hoff, rfl⟩⟩
  | opened port unopened backend =>
      obtain ⟨hoff, hs⟩ := h.unused (by omega)
      cases unixSerialOpen_opens backend with
      | already isOpen => rw [hoff] at isOpen; cases isOpen
      | @opened fd off some fresh =>
          exact ⟨by simp only; omega, fun _ => ⟨rfl, show (fd : ℤ) ≠ -1 by omega⟩,
            fun hzero => by simp only at hzero; omega⟩
  | stays port inUse =>
      unfold Manger.countClose at inUse ⊢
      split
      · next hpos =>
          rw [if_pos hpos] at inUse
          exact ⟨by simp only; omega, fun _ => h.used hpos, fun hzero => absurd hzero inUse⟩
      · exact h
  | @asks k answer port unused =>
      have way : UnixCloses answer ctx (linuxSerialBackend.closeDev answer ctx) :=
        unixSerialClose_closes answer ctx
      generalize linuxSerialBackend.closeDev answer ctx = out at way ⊢
      cases way with
      | idle none =>
          have hno : ¬0 < sm.opencount := fun hpos => (h.used hpos).2 none
          rw [Manger.countClose, if_neg hno]
          exact h
      | stuck some failed =>
          have hpos := h.inUse some
          rw [Manger.countClose, if_pos hpos] at unused
          have hone : sm.opencount = 1 := by simp only at unused; omega
          rw [restores k answer rfl hone] at failed
          cases failed
      | closed some restored => exact ⟨by omega, fun hpos => by omega, fun _ => ⟨rfl, rfl⟩⟩
  | kept port more =>
      rw [Manger.countRelease]
      split
      · exact ⟨hcount, h.used, h.unused⟩
      · exact h

/-- A call that restores the line keeps the agreement of all ports. -/
theorem Paired.restores {c : SerialCall linuxSerialBackend} (inv : Paired LineAgrees w)
    (restores : RestoresLine w c) (h : c.run w = .ok w') : Paired LineAgrees w' := by
  refine inv.keeps (inv.portStep h) (fun sm ctx es sm' ctx' hsm live hagrees turn => ?_)
    fun asked garbage p =>
      ⟨Int.le_refl 0, fun hpos => absurd hpos (Int.lt_irrefl 0), fun _ => ⟨rfl, rfl⟩⟩
  refine hagrees.turn turn fun k answer hc hone => ?_
  subst hc
  refine restores ?_
  have hport : k.port = sm.t := by cases turn <;> assumption
  rw [hport, inv.countOf_eq hsm, hone]

/-- What a close of a port does, by its count and the outcome of `tcsetattr`. -/
inductive ClosesLine (w : UnixPorts) (k : Handle) (answer : UnixCloseAnswer) (rc : ℤ)
    (w' : UnixPorts) : ℤ → Prop
  /-- The port stays in use. -/
  | stays {n : ℤ} (more : 1 < n) (rc_eq : rc = 0) (count : w'.countOf k.port = some (n - 1)) :
      ClosesLine w k answer rc w' n
  /-- The port was not in use. -/
  | idle (rc_eq : rc = -1) (count : w'.countOf k.port = some 0)
      (line : w'.lineOf k.port = w.lineOf k.port) : ClosesLine w k answer rc w' 0
  /-- The line cannot be restored. -/
  | stuck (failed : answer.tcsetattr = false) (rc_eq : rc = -1)
      (count : w'.countOf k.port = some 0) : ClosesLine w k answer rc w' 1
  /-- The line is closed. -/
  | closed (restored : answer.tcsetattr = true) (rc_eq : rc = 0)
      (count : w'.countOf k.port = some 0)
      (line : w'.lineOf k.port = some (false, -1)) : ClosesLine w k answer rc w' 1

/-- Where the ports agree, every close takes one of its ways. -/
theorem Paired.closesLine {k : Handle} {answer : UnixCloseAnswer} {rc : ℤ}
    (inv : Paired LineAgrees w)
    (h : serialCloseRecord (B := linuxSerialBackend) k answer w = .ok (rc, w')) :
    ∃ n, w.countOf k.port = some n ∧ ClosesLine w k answer rc w' n := by
  have inv' : Paired (fun _ _ => True) w' :=
    inv.plain_step (c := .closePort k answer) (map_eq_ok.mpr ⟨_, h, rfl⟩)
  have counted {sm : Manger} (hsm : sm ∈ w.mangers) (ht : sm.t = k.port)
      (hput : w'.mangers = (w.putManger sm.countClose).mangers) :
      w'.countOf k.port = some sm.countClose.opencount := by
    have hmem : sm.countClose ∈ w'.mangers := by
      rw [hput]
      exact List.mem_map.mpr ⟨sm, hsm, if_pos (Manger.countClose_t sm).symm⟩
    have hcount := inv'.countOf_eq hmem
    rw [Manger.countClose_t, ht] at hcount
    exact hcount
  cases serialCloseRecord_step h with
  | orphan live none => exact absurd none (inv.not_orphan live)
  | @kept ctx sm live found inUse =>
      obtain ⟨hsm, ht⟩ := inv.found_eq live found
      refine ⟨sm.opencount, ht ▸ inv.countOf_eq hsm, ?_⟩
      have hcount := counted hsm ht rfl
      have hnonneg := (inv.pair hsm (ht ▸ live)).count
      have hpos : 0 < sm.opencount := by
        by_contra hno
        rw [Manger.countClose, if_neg hno] at inUse
        omega
      have hless : sm.countClose.opencount = sm.opencount - 1 := by
        rw [Manger.countClose, if_pos hpos]
      rw [hless] at hcount inUse
      exact .stays (by omega) rfl hcount
  | @backend ctx sm live found unused =>
      obtain ⟨hsm, ht⟩ := inv.found_eq live found
      refine ⟨sm.opencount, ht ▸ inv.countOf_eq hsm, ?_⟩
      have hagrees := inv.pair hsm (ht ▸ live)
      have hcount := counted hsm ht rfl
      rw [unused] at hcount
      have hone (hpos : 0 < sm.opencount) : 1 = sm.opencount := by
        rw [Manger.countClose, if_pos hpos] at unused
        simp only at unused
        omega
      have way : UnixCloses answer ctx (linuxSerialBackend.closeDev answer ctx) :=
        unixSerialClose_closes answer ctx
      clear counted inv' h
      generalize linuxSerialBackend.closeDev answer ctx = out at way hcount ⊢
      cases way with
      | idle none =>
          have hzero : 0 = sm.opencount := by
            have hnonneg := hagrees.count
            by_contra hne
            exact (hagrees.used (by omega)).2 none
          rw [← hzero]
          refine .idle rfl hcount ?_
          rw [lineOf_of_live (Function.update_self ..), lineOf_of_live live]
      | stuck some failed =>
          rw [← hone (hagrees.inUse some)]
          exact .stuck failed rfl hcount
      | closed some restored =>
          rw [← hone (hagrees.inUse some)]
          refine .closed restored rfl hcount ?_
          rw [lineOf_of_live (Function.update_self ..)]
          rfl

/-- **One close.** Where the ports agree, a call closes atomically if and only if it restores the
line. -/
theorem closesAtomically_iff {c : SerialCall linuxSerialBackend} (inv : Paired LineAgrees w)
    (h : c.run w = .ok w') : ClosesAtomically w c w' ↔ RestoresLine w c := by
  constructor
  · intro hcloses
    cases c with
    | closePort k answer =>
        intro hone
        obtain ⟨⟨rc, _⟩, hclose, rfl⟩ := map_eq_ok.mp h
        obtain ⟨n, hn, way⟩ := inv.closesLine hclose
        obtain rfl : 1 = n := Option.some.inj (hone.symm.trans hn)
        cases way with
        | stays more => omega
        | stuck failed rc_eq count =>
            have hback := ((hcloses.1 k answer rc rfl hclose).1 rc_eq).1
            rw [count, hone] at hback
            cases hback
        | closed restored => exact restored
    | new holder asked answer => trivial
    | openPort k answer => trivial
    | destory k answer => trivial
  · intro hrestores
    refine ⟨fun k answer rc hc hclose => ?_, fun p => (inv.restores hrestores h).lineOf_eq⟩
    subst hc
    obtain ⟨n, hn, way⟩ := inv.closesLine hclose
    cases way with
    | stays more rc_eq count =>
        refine ⟨fun hrc => by omega, fun _ hzero => ?_⟩
        have := Option.some.inj (count.symm.trans hzero)
        omega
    | idle rc_eq count line => exact ⟨fun _ => ⟨count.trans hn.symm, line⟩, fun hrc => by omega⟩
    | stuck failed rc_eq count =>
        rw [hrestores hn] at failed
        cases failed
    | closed restored rc_eq count line => exact ⟨fun hrc => by omega, fun _ _ => line⟩

/-- A close of a port in use can always be made. -/
theorem Paired.close_made {k : Handle} (inv : Paired LineAgrees w) (answer : UnixCloseAnswer)
    {n : ℤ} (h : w.countOf k.port = some n) :
    ∃ w', (SerialCall.closePort (B := linuxSerialBackend) k answer).run w = .ok w' := by
  obtain ⟨-, -, -, -, ctx, live, -⟩ := inv.of_countOf h
  obtain ⟨sm, -, -, found⟩ := inv.found live
  have hderef : (w.log (.closed k)).deref k.port = .ok ctx := derefIn_eq_ok.mpr live
  have hfound : (w.log (.closed k)).findSerial ctx.backendData.device = .ok (some sm) := found
  simp only [SerialCall.run, serialCloseRecord, serialClose, hderef, hfound, ok_bind]
  split
  · split <;> exact ⟨_, rfl⟩
  · split <;> exact ⟨_, rfl⟩

/-- **Failure atomicity of `serial_close`.** A run of calls closes atomically throughout, with every
port whose count is zero closed, if and only if the settings of the line are restored wherever the
last use of a port ends. -/
theorem close_atomic_iff (is : List (SerialCall linuxSerialBackend)) :
    (serialPorts linuxSerialBackend).Throughout ClosesAtomically is {} ↔
      (serialPorts linuxSerialBackend).Meets RestoresLine is {} := by
  refine Machine.throughout_iff_meets (I := Paired (B := linuxSerialBackend) LineAgrees)
    (fun w c w' inv h => ?_) (fun w c w' inv restores h => ?_)
    (fun w c inv hno => ?_) Paired.initial
  · exact closesAtomically_iff inv h
  · exact inv.restores restores h
  · cases c with
    | closePort k answer =>
        obtain ⟨hone, -⟩ := Classical.not_imp.mp hno
        exact inv.close_made answer hone
    | new holder asked answer => exact absurd trivial hno
    | openPort k answer => exact absurd trivial hno
    | destory k answer => exact absurd trivial hno

/-- A port is opened as the descriptor `3` and closed while its settings cannot be restored. The
close fails, and the port counts as closed, with the line still open. -/
theorem close_not_atomic :
    ¬ (serialPorts linuxSerialBackend).Throughout ClosesAtomically
      [.new 0 ⟨0, 9600, 'N'.toUInt8, 8, 1, 0⟩
        ⟨0, ⟨false, false, 0, 0, ⟨"", 0, 0, 0, 0, ⟨{}, 0⟩⟩⟩, ⟨true, 0⟩⟩,
        .openPort ⟨0, 0, ⟨0, 9600, 'N'.toUInt8, 8, 1, 0⟩⟩ ⟨some 3, some {}, true, true, 0⟩,
        .closePort ⟨0, 0, ⟨0, 9600, 'N'.toUInt8, 8, 1, 0⟩⟩ ⟨false, 5⟩] {} := by
  intro all
  obtain ⟨-, all⟩ := all _ rfl
  obtain ⟨-, all⟩ := all _ rfl
  obtain ⟨⟨closes, -⟩, -⟩ := all _ rfl
  have back := ((closes _ _ (-1) rfl rfl).1 rfl).1
  exact absurd back (by decide)

end LibZio
