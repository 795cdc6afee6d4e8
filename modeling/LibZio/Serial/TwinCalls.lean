import LibZio.Serial.Steps
import LibZio.Serial.Win32

/-! # The same call on two platforms

The calls on a port of each platform, in front of devices that behave alike, and what each call
returns and records as a function of what the device does. -/

namespace LibZio

/-! ## Devices that behave alike -/

/-- What arrives for one `read` of the Unix loop. -/
abbrev Segment : Type := { bytes : List UInt8 // 0 < bytes.length ∧ bytes.length ≤ 1024 }

/-- What a device does during a read. -/
inductive ReadBehaviour
  /-- Bytes arrive in time, in one or more segments, and then no more. -/
  | bytes (first : Segment) (rest : List Segment)
  /-- No byte arrives before the timeout. -/
  | silence
  /-- The device fails. -/
  | error

/-- A call on the port, with what the device does. -/
inductive TwinCall
  /-- `open`: the device is opened as `fd`, or refuses. -/
  | openPort (fd : Option ℕ)
  /-- `read` into `buf`, with a timeout in milliseconds. -/
  | read (buf : List UInt8) (mtimeout : ℤ) (behaviour : ReadBehaviour)
  /-- `write`, of which the device takes a number of bytes, or fails. -/
  | write (taken : Option ℕ)
  /-- `close`. -/
  | closePort

/-- The bytes of segments. -/
def segmentBytes (segs : List Segment) : List UInt8 := (segs.map Subtype.val).flatten

/-- What the Unix loop is answered. -/
def ReadBehaviour.unix : ReadBehaviour → List UnixReadAnswer
  | .bytes first rest => (first :: rest).map (fun seg => ⟨1, some seg.val⟩) ++ [⟨0, none⟩]
  | .silence => [⟨0, none⟩]
  | .error => [⟨1, none⟩]

/-- What `ReadFile` is answered. -/
def ReadBehaviour.win : ReadBehaviour → Option (List UInt8)
  | .bytes first rest => some (segmentBytes (first :: rest))
  | .silence => some []
  | .error => none

/-- The call on Unix, where `e` is `errno` after a failure. -/
def unixCall (c : TwinCall) (e : ℤ) (ctx : Serial UnixDev) : SerialRes (ℤ × Serial UnixDev) :=
  match c with
  | .openPort fd => do
      let (rc, ctx, _) ← unixSerialOpen ⟨fd, some {}, true, true, e⟩ [] ctx
      return (rc, ctx)
  | .read buf mtimeout behaviour => do
      let (rc, ctx, _) ← unixSerialRead buf.length mtimeout behaviour.unix e ctx buf
      return (rc, ctx)
  | .write taken => .ok (unixSerialWrite (taken.elim (-1) (↑)) e ctx)
  | .closePort =>
      let (rc, ctx, _) := unixSerialClose ⟨true, e⟩ ctx
      .ok (rc, ctx)

/-- The call on Windows, where `e` is `GetLastError` after a failure. -/
def winCall (c : TwinCall) (e : ℤ) (ctx : Serial WinDev) : SerialRes (ℤ × Serial WinDev) :=
  match c with
  | .openPort fd => do
      let (rc, ctx, _) ← win32SerialOpen ⟨fd, some {}, true, ⟨true, true, e⟩, e⟩ [] ctx
      return (rc, ctx)
  | .read buf mtimeout behaviour => do
      let (rc, ctx, _) ← win32SerialRead buf.length mtimeout ⟨true, behaviour.win, e⟩ ctx buf
      return (rc, ctx)
  | .write taken => .ok (win32SerialWrite taken e ctx)
  | .closePort =>
      let (rc, ctx, _) := win32SerialClose ⟨true, true, e⟩ ctx
      .ok (rc, ctx)

/-- The call returns `rc`, and records an error code or keeps the one there was. -/
def Yields {Dev : Type} (f : ℤ → SerialRes (ℤ × Serial Dev)) (rc : ℤ) (records : Bool) (old : ℤ) :
    Prop :=
  ∀ e, ∃ ctx, f e = .ok (rc, ctx) ∧ ctx.errCode = if records then e else old

/-- Whether a call leaves the port open. -/
def TwinCall.leaves : TwinCall → Bool → Bool
  | .openPort fd, isOpen => isOpen || fd.isSome
  | .closePort, _ => false
  | _, isOpen => isOpen

/-! ## What the calls yield on Unix -/

/-- The loop reads all segments that fit. -/
theorem unixReadLoop_bytes {len mtimeout : ℤ} (positive : 0 < mtimeout) (segs : List Segment)
    {readLen : ℕ} {buf : List UInt8} (fits : (readLen + (segmentBytes segs).length : ℤ) ≤ len)
    (room : len ≤ buf.length) :
    ∃ buf', unixReadLoop len mtimeout (segs.map (fun seg => ⟨1, some seg.val⟩) ++ [⟨0, none⟩])
      readLen buf = .ok (false, readLen + (segmentBytes segs).length, buf') := by
  have timeout : unixSerialSetTimeout mtimeout 0 = -1 := by
    rw [unixSerialSetTimeout, if_neg (by omega), if_pos rfl]
  have ready : unixSerialSetTimeout mtimeout 1 ≠ -1 := by
    rw [unixSerialSetTimeout, if_neg (by omega), if_neg (by decide)]
    decide
  induction segs generalizing readLen buf with
  | nil =>
      refine ⟨buf, ?_⟩
      rw [List.map_nil, List.nil_append, unixReadLoop]
      split
      · rw [if_pos ⟨by omega, timeout⟩]
        rfl
      · rfl
  | cons seg segs ih =>
      obtain ⟨bytes, some, small⟩ := seg
      have length : (segmentBytes (⟨bytes, some, small⟩ :: segs)).length =
          bytes.length + (segmentBytes segs).length := List.length_append
      rw [length] at fits ⊢
      push_cast at fits
      have inside : readLen + bytes.length ≤ buf.length := by omega
      obtain ⟨buf', h⟩ := @ih (readLen + bytes.length) (splice buf readLen bytes)
        (by push_cast; omega) (by rw [length_splice inside]; exact room)
      refine ⟨buf', ?_⟩
      rw [List.map_cons, List.cons_append, unixReadLoop, if_pos (by omega),
        if_neg fun h => ready h.2]
      have asked : (bytes.length : ℤ) ≤ min (len - readLen) 1024 := by omega
      refine bind_eq_ok.mpr ⟨⟨⟩, ensure_eq_ok.mpr (decide_eq_true asked), ?_⟩
      rw [if_neg (Nat.pos_iff_ne_zero.mp some)]
      refine bind_eq_ok.mpr ⟨_, orFail_eq_ok.mpr (store_eq_some inside), ?_⟩
      change unixReadLoop len mtimeout _ (readLen + bytes.length) _ = _
      rw [h, Nat.add_assoc]

/-- Segments hold some bytes. -/
theorem segmentBytes_pos (first : Segment) (rest : List Segment) :
    0 < (segmentBytes (first :: rest)).length := by
  have length : (segmentBytes (first :: rest)).length =
      first.val.length + (segmentBytes rest).length := List.length_append
  have := first.2.1
  omega

section Unix

variable {u : Serial UnixDev} {buf : List UInt8} {mtimeout : ℤ}

/-- A read on a closed line. -/
theorem unixRead_closed (off : u.isOpen = false) (behaviour : ReadBehaviour) :
    Yields (fun e => unixCall (.read buf mtimeout behaviour) e u) (-1) false u.errCode := by
  intro e
  refine ⟨u, ?_, rfl⟩
  change unixSerialRead .. >>= _ = _
  rw [unixSerialRead, off]
  rfl

/-- A read that gets bytes. -/
theorem unixRead_bytes (isOpen : u.isOpen = true) (some : u.s ≠ -1) (positive : 0 < mtimeout)
    {first : Segment} {rest : List Segment}
    (fits : (segmentBytes (first :: rest)).length ≤ buf.length) :
    Yields (fun e => unixCall (.read buf mtimeout (.bytes first rest)) e u)
      (segmentBytes (first :: rest)).length false u.errCode := by
  intro e
  have fits' : ((0 : ℕ) + (segmentBytes (first :: rest)).length : ℤ) ≤ buf.length := by omega
  obtain ⟨buf', h⟩ := unixReadLoop_bytes positive (first :: rest) fits' (Int.le_refl _)
  have got := segmentBytes_pos first rest
  refine ⟨u, ?_, rfl⟩
  change unixSerialRead .. >>= _ = _
  refine bind_eq_ok.mpr ⟨((segmentBytes (first :: rest)).length, u, buf'), ?_, rfl⟩
  rw [unixSerialRead, isOpen, Bool.not_true, if_neg Bool.false_ne_true, if_neg some]
  refine bind_eq_ok.mpr ⟨_, h, ?_⟩
  dsimp only
  rw [if_neg Bool.false_ne_true, Nat.zero_add, if_neg (by omega)]
  rfl

/-- A read that gets no byte in time. -/
theorem unixRead_silence (isOpen : u.isOpen = true) (some : u.s ≠ -1) (positive : 0 < mtimeout) :
    Yields (fun e => unixCall (.read buf mtimeout .silence) e u) (-1) true u.errCode := by
  intro e
  have loop : unixReadLoop buf.length mtimeout [⟨0, none⟩] 0 buf = .ok (false, 0, buf) := by
    have timeout : unixSerialSetTimeout mtimeout 0 = -1 := by
      rw [unixSerialSetTimeout, if_neg (by omega), if_pos rfl]
    rw [unixReadLoop]
    split
    · exact if_pos ⟨by omega, timeout⟩
    · rfl
  refine ⟨{ u with errCode := e }, ?_, rfl⟩
  change unixSerialRead .. >>= _ = _
  refine bind_eq_ok.mpr ⟨(-1, { u with errCode := e }, buf), ?_, rfl⟩
  rw [unixSerialRead, isOpen, Bool.not_true, if_neg Bool.false_ne_true, if_neg some]
  exact bind_eq_ok.mpr ⟨_, loop, rfl⟩

/-- A read that fails on the device, which an empty buffer does not reach. -/
theorem unixRead_error (isOpen : u.isOpen = true) (some : u.s ≠ -1) (positive : 0 < mtimeout) :
    Yields (fun e => unixCall (.read buf mtimeout .error) e u) (if buf = [] then -1 else 0)
      (buf = []) u.errCode := by
  intro e
  by_cases empty : buf = []
  · subst empty
    refine ⟨{ u with errCode := e }, ?_, rfl⟩
    change unixSerialRead .. >>= _ = _
    refine bind_eq_ok.mpr ⟨(-1, { u with errCode := e }, []), ?_, rfl⟩
    rw [unixSerialRead, isOpen, Bool.not_true, if_neg Bool.false_ne_true, if_neg some]
    rfl
  · have room : 0 < buf.length := List.length_pos_iff.mpr empty
    have loop : unixReadLoop buf.length mtimeout [⟨1, none⟩] 0 buf = .ok (true, 0, buf) := by
      have ready : unixSerialSetTimeout mtimeout 1 ≠ -1 := by
        rw [unixSerialSetTimeout, if_neg (by omega), if_neg (by decide)]
        decide
      rw [unixReadLoop, if_pos (by exact_mod_cast room), if_neg fun h => ready h.2]
    refine ⟨u, ?_, by rw [decide_eq_false empty]; rfl⟩
    change unixSerialRead .. >>= _ = _
    refine bind_eq_ok.mpr ⟨(0, u, buf), ?_, by rw [if_neg empty]; rfl⟩
    rw [unixSerialRead, isOpen, Bool.not_true, if_neg Bool.false_ne_true, if_neg some]
    exact bind_eq_ok.mpr ⟨_, loop, rfl⟩

/-- Opening a line. -/
theorem unixOpen_yields (fd : Option ℕ) :
    Yields (fun e => unixCall (.openPort fd) e u) (if u.isOpen ∨ fd.isSome then 0 else -1)
      (!u.isOpen && fd.isNone) u.errCode := by
  intro e
  cases hopen : u.isOpen with
  | true =>
      refine ⟨u, ?_, rfl⟩
      change unixSerialOpen .. >>= _ = _
      rw [unixSerialOpen, if_pos hopen]
      rfl
  | false =>
      have way : unixCall (.openPort fd) e u = (do
          let (rc, ctx, _) ← unixSerialOpen ⟨fd, some {}, true, true, e⟩ [] u
          return (rc, ctx)) := rfl
      rw [unixSerialOpen, hopen, if_neg Bool.false_ne_true] at way
      cases fd with
      | none => exact ⟨_, way, rfl⟩
      | some fd => exact ⟨_, way, rfl⟩

/-- Writing to a line. -/
theorem unixWrite_yields (open_iff : u.isOpen = true ↔ u.s ≠ -1) (taken : Option ℕ) :
    Yields (fun e => unixCall (.write taken) e u) (if u.isOpen then taken.elim (-1) (↑) else -1)
      (u.isOpen && taken.isNone) u.errCode := by
  intro e
  change ∃ ctx, Except.ok (unixSerialWrite _ e u) = _ ∧ _
  cases hopen : u.isOpen with
  | false =>
      rw [unixSerialWrite, hopen]
      exact ⟨u, rfl, rfl⟩
  | true =>
      rw [unixSerialWrite, hopen, Bool.not_true, if_neg Bool.false_ne_true,
        if_neg (open_iff.mp hopen)]
      cases taken with
      | none => exact ⟨_, rfl, rfl⟩
      | some n =>
          refine ⟨u, ?_, rfl⟩
          have count : ((n : ℕ) : ℤ) ≠ -1 := by omega
          exact congrArg Except.ok (if_neg count)

/-- Closing a line. -/
theorem unixClose_yields (open_iff : u.isOpen = true ↔ u.s ≠ -1) :
    Yields (fun e => unixCall .closePort e u) (if u.isOpen then 0 else -1) false u.errCode := by
  intro e
  have way : unixCall .closePort e u =
      match unixSerialClose ⟨true, e⟩ u with | (rc, ctx, _) => .ok (rc, ctx) := rfl
  cases hopen : u.isOpen with
  | false =>
      have none : u.s = -1 := by
        by_contra h
        rw [open_iff.mpr h] at hopen
        cases hopen
      have out : unixSerialClose ⟨true, e⟩ u = (-1, u, []) := if_pos none
      rw [out] at way
      exact ⟨u, way, rfl⟩
  | true =>
      have out : unixSerialClose ⟨true, e⟩ u = (0, { u.setS (-1) with isOpen := false },
          [.closed u.s, .configured u.s u.backendData.dev.oldTios]) := if_neg (open_iff.mp hopen)
      rw [out] at way
      exact ⟨_, way, rfl⟩

/-- A read leaves the line as it is. -/
theorem unixSerialRead_keeps {len e rc : ℤ} {answers : List UnixReadAnswer} {u' : Serial UnixDev}
    {buf' : List UInt8} (h : unixSerialRead len mtimeout answers e u buf = .ok (rc, u', buf')) :
    u'.isOpen = u.isOpen ∧ u'.s = u.s := by
  rw [unixSerialRead] at h
  split at h
  · cases h
    exact ⟨rfl, rfl⟩
  split at h
  · cases h
    exact ⟨rfl, rfl⟩
  obtain ⟨⟨returned, readLen, buf₁⟩, -, h⟩ := bind_eq_ok.mp h
  dsimp only at h
  split at h
  · cases h
    exact ⟨rfl, rfl⟩
  split at h <;>
  · cases h
    exact ⟨rfl, rfl⟩

/-- After a call the line is open as the call leaves it, and its descriptor tells. -/
theorem unixCall_leaves {c : TwinCall} {e rc : ℤ} {u' : Serial UnixDev}
    (open_iff : u.isOpen = true ↔ u.s ≠ -1) (h : unixCall c e u = .ok (rc, u')) :
    u'.isOpen = c.leaves u.isOpen ∧ (u'.isOpen = true ↔ u'.s ≠ -1) := by
  cases c with
  | openPort fd =>
      change unixSerialOpen .. >>= _ = _ at h
      cases hopen : u.isOpen with
      | true =>
          rw [unixSerialOpen, if_pos hopen] at h
          cases h
          exact ⟨hopen, open_iff⟩
      | false =>
          rw [unixSerialOpen, hopen, if_neg Bool.false_ne_true] at h
          cases fd with
          | none =>
              cases h
              exact ⟨hopen, fun ho => absurd (hopen.symm.trans ho) Bool.false_ne_true,
                fun hs => absurd rfl hs⟩
          | some fd =>
              cases h
              refine ⟨rfl, fun _ => ?_, fun _ => rfl⟩
              change ((fd : ℕ) : ℤ) ≠ -1
              omega
  | read buf mtimeout behaviour =>
      obtain ⟨⟨rc₁, u₁, buf₁⟩, hread, hrest⟩ := bind_eq_ok.mp h
      cases hrest
      obtain ⟨same, sameFd⟩ := unixSerialRead_keeps hread
      refine ⟨same, ?_⟩
      rw [same, sameFd]
      exact open_iff
  | write taken =>
      have out := Except.ok.inj h
      rw [unixSerialWrite] at out
      split at out
      · cases out
        exact ⟨rfl, open_iff⟩
      split at out
      · cases out
        exact ⟨rfl, open_iff⟩
      split at out <;>
      · cases out
        exact ⟨rfl, open_iff⟩
  | closePort =>
      have way := unixSerialClose_closes ⟨true, e⟩ u
      change (match unixSerialClose ⟨true, e⟩ u with | (rc, ctx, _) => Except.ok (rc, ctx)) = _ at h
      generalize unixSerialClose ⟨true, e⟩ u = out at way h
      cases way with
      | idle none =>
          cases h
          refine ⟨eq_false_of_ne_true fun ho => open_iff.mp ho none, open_iff⟩
      | stuck some failed => cases failed
      | closed some restored =>
          cases h
          exact ⟨rfl, fun ho => absurd ho Bool.false_ne_true, fun hs => absurd rfl hs⟩

end Unix

/-! ## What the calls yield on Windows -/

section Windows

variable {v : Serial WinDev} {buf : List UInt8} {mtimeout : ℤ}

/-- A read on a closed device. -/
theorem winRead_closed (off : v.isOpen = false) (behaviour : ReadBehaviour) :
    Yields (fun e => winCall (.read buf mtimeout behaviour) e v) (-1) false v.errCode := by
  intro e
  refine ⟨v, ?_, rfl⟩
  change win32SerialRead .. >>= _ = _
  rw [win32SerialRead, off]
  rfl

/-- A read on an open device, whose result is the answer of `ReadFile`. -/
theorem winRead_open (isOpen : v.isOpen = true) {behaviour : ReadBehaviour}
    (fits : ∀ data, behaviour.win = some data → data.length ≤ buf.length) :
    Yields (fun e => winCall (.read buf mtimeout behaviour) e v)
      (behaviour.win.elim (-1) fun data => data.length) behaviour.win.isNone v.errCode := by
  intro e
  have way : winCall (.read buf mtimeout behaviour) e v = (do
      let (rc, ctx, _) ← win32SerialRead buf.length mtimeout ⟨true, behaviour.win, e⟩ v buf
      return (rc, ctx)) := rfl
  have set : ¬(0 ≤ mtimeout ∧ true = false) := fun h => Bool.noConfusion h.2
  rw [win32SerialRead, isOpen, Bool.not_true, if_neg Bool.false_ne_true, if_neg set] at way
  cases hwin : behaviour.win with
  | none =>
      rw [hwin] at way
      exact ⟨_, way, rfl⟩
  | some data =>
      have room : 0 + data.length ≤ buf.length := by
        have := fits data hwin
        omega
      have inside : decide ((data.length : ℤ) ≤ buf.length) = true :=
        decide_eq_true (by omega)
      rw [hwin] at way
      simp only [inside, ensure_true, store_eq_some room, orFail_some, ok_bind] at way
      exact ⟨v, way, rfl⟩

/-- What `ReadFile` gives fits the buffer. -/
theorem winRead_fits {behaviour : ReadBehaviour} {e : ℤ} {r : ℤ × Serial WinDev}
    (isOpen : v.isOpen = true) (h : winCall (.read buf mtimeout behaviour) e v = .ok r) :
    ∀ data, behaviour.win = some data → data.length ≤ buf.length := by
  intro data hdata
  obtain ⟨r₁, hread, -⟩ := bind_eq_ok.mp h
  rw [win32SerialRead, isOpen, Bool.not_true, if_neg Bool.false_ne_true, hdata] at hread
  obtain ⟨a, fits, -⟩ := bind_eq_ok.mp hread
  exact_mod_cast of_decide_eq_true (ensure_eq_ok.mp fits)

/-- Opening a device. -/
theorem winOpen_yields (fd : Option ℕ) :
    Yields (fun e => winCall (.openPort fd) e v) (if v.isOpen ∨ fd.isSome then 0 else -1)
      (!v.isOpen && fd.isNone) v.errCode := by
  intro e
  cases hopen : v.isOpen with
  | true =>
      refine ⟨v, ?_, rfl⟩
      change win32SerialOpen .. >>= _ = _
      rw [win32SerialOpen, if_pos hopen]
      rfl
  | false =>
      have way : winCall (.openPort fd) e v = (do
          let (rc, ctx, _) ← win32SerialOpen ⟨fd, some {}, true, ⟨true, true, e⟩, e⟩ [] v
          return (rc, ctx)) := rfl
      rw [win32SerialOpen, hopen, if_neg Bool.false_ne_true] at way
      cases fd with
      | none => exact ⟨_, way, rfl⟩
      | some fd => exact ⟨_, way, rfl⟩

/-- Writing to a device. -/
theorem winWrite_yields (taken : Option ℕ) :
    Yields (fun e => winCall (.write taken) e v) (if v.isOpen then taken.elim (-1) (↑) else -1)
      (v.isOpen && taken.isNone) v.errCode := by
  intro e
  cases hopen : v.isOpen with
  | false =>
      have out : win32SerialWrite taken e v = (-1, v) := if_pos (by rw [hopen]; rfl)
      exact ⟨v, congrArg Except.ok out, rfl⟩
  | true =>
      have shut : ¬(!v.isOpen) = true := by rw [hopen]; exact Bool.false_ne_true
      cases taken with
      | none => exact ⟨_, congrArg Except.ok (if_neg shut), rfl⟩
      | some n => exact ⟨v, congrArg Except.ok (if_neg shut), rfl⟩

/-- Closing a device. -/
theorem winClose_yields : Yields (fun e => winCall .closePort e v) 0 false v.errCode := by
  intro e
  have way : winCall .closePort e v =
      match win32SerialClose ⟨true, true, e⟩ v with | (rc, ctx, _) => .ok (rc, ctx) := rfl
  rw [win32SerialClose] at way
  by_cases h : v.isOpen = true ∨ INVALID_HANDLE_VALUE ≠ v.fd
  · rw [if_pos h] at way
    exact ⟨_, way, rfl⟩
  · rw [if_neg h] at way
    exact ⟨v, way, rfl⟩

/-- A read leaves the device as it is. -/
theorem win32SerialRead_keeps {len rc : ℤ} {answer : WinReadAnswer} {v' : Serial WinDev}
    {buf' : List UInt8} (h : win32SerialRead len mtimeout answer v buf = .ok (rc, v', buf')) :
    v'.isOpen = v.isOpen ∧ v'.fd = v.fd := by
  rw [win32SerialRead] at h
  split at h
  · cases h
    exact ⟨rfl, rfl⟩
  dsimp only at h
  cases hread : answer.readFile with
  | none =>
      rw [hread] at h
      cases h
      split <;> exact ⟨rfl, rfl⟩
  | some data =>
      rw [hread] at h
      obtain ⟨u, -, h⟩ := bind_eq_ok.mp h
      obtain ⟨buf₁, -, h⟩ := bind_eq_ok.mp h
      cases h
      split <;> exact ⟨rfl, rfl⟩

/-- After a call the device is open as the call leaves it, and its handle tells. -/
theorem winCall_leaves {c : TwinCall} {e rc : ℤ} {v' : Serial WinDev}
    (open_iff : v.isOpen = true ↔ v.fd ≠ INVALID_HANDLE_VALUE) (h : winCall c e v = .ok (rc, v')) :
    v'.isOpen = c.leaves v.isOpen ∧ (v'.isOpen = true ↔ v'.fd ≠ INVALID_HANDLE_VALUE) := by
  cases c with
  | openPort fd =>
      change win32SerialOpen .. >>= _ = _ at h
      cases hopen : v.isOpen with
      | true =>
          rw [win32SerialOpen, if_pos hopen] at h
          cases h
          exact ⟨hopen, open_iff⟩
      | false =>
          rw [win32SerialOpen, hopen, if_neg Bool.false_ne_true] at h
          cases fd with
          | none =>
              cases h
              exact ⟨hopen, fun ho => absurd (hopen.symm.trans ho) Bool.false_ne_true,
                fun hs => absurd rfl hs⟩
          | some fd =>
              cases h
              refine ⟨rfl, fun _ => ?_, fun _ => rfl⟩
              change ((fd : ℕ) : ℤ) ≠ -1
              omega
  | read buf mtimeout behaviour =>
      obtain ⟨⟨rc₁, v₁, buf₁⟩, hread, hrest⟩ := bind_eq_ok.mp h
      cases hrest
      obtain ⟨same, sameFd⟩ := win32SerialRead_keeps hread
      refine ⟨same, ?_⟩
      rw [same, sameFd]
      exact open_iff
  | write taken =>
      have out := Except.ok.inj h
      unfold win32SerialWrite at out
      split at out
      · cases out
        exact ⟨rfl, open_iff⟩
      cases taken <;>
      · cases out
        exact ⟨rfl, open_iff⟩
  | closePort =>
      change (match win32SerialClose ⟨true, true, e⟩ v with | (rc, ctx, _) => Except.ok (rc, ctx))
        = _ at h
      rw [win32SerialClose] at h
      by_cases hv : v.isOpen = true ∨ INVALID_HANDLE_VALUE ≠ v.fd
      · rw [if_pos hv] at h
        cases h
        exact ⟨rfl, fun ho => absurd ho Bool.false_ne_true, fun hs => absurd rfl hs⟩
      · rw [if_neg hv] at h
        cases h
        exact ⟨eq_false_of_ne_true fun ho => hv (.inl ho), open_iff⟩

end Windows

end LibZio
